import RowSchema.Record

/-! # Declarations up to spans, and edits of them

Two declarations say the same if they are equal once all spans are left out. An edit changes the
attributes of declarations, or declares fields with `let`. -/

namespace RowSchema

/-! ## Without spans -/

mutual

/-- The expression without the spans of the arguments in it. -/
def Expr.unplaced : Expr → Expr
  | .array elements => .array (Expr.unplacedAll elements)
  | .call callee arguments => .call callee (Argument.unplacedAll arguments)
  | e => e

def Expr.unplacedAll : List Expr → List Expr
  | [] => []
  | e :: rest => e.unplaced :: Expr.unplacedAll rest

def Argument.unplaced : Argument → Argument
  | ⟨label, value, _⟩ => ⟨label, value.unplaced, none⟩

def Argument.unplacedAll : List Argument → List Argument
  | [] => []
  | a :: rest => a.unplaced :: Argument.unplacedAll rest

end

def Attribute.unplaced (a : Attribute) : Attribute :=
  { a with arguments := Argument.unplacedAll a.arguments, span := none }

def Field.unplaced (f : Field) : Field :=
  { f with
    attributes := f.attributes.map Attribute.unplaced
    default := f.default.map Expr.unplaced
    span := none
    bindingSpan := none
    nameSpan := none }

def Payload.unplaced (p : Payload) : Payload :=
  { p with default := p.default.map Expr.unplaced, span := none }

def Case.unplaced (c : Case) : Case :=
  { c with
    payloads := c.payloads.map Payload.unplaced
    attributes := c.attributes.map Attribute.unplaced
    span := none }

/-- What the record declares, wherever it stands. -/
def Record.unplaced (r : Record) : Record :=
  { r with
    attributes := r.attributes.map Attribute.unplaced
    fields := r.fields.map Field.unplaced
    cases := r.cases.map Case.unplaced
    span := none }

theorem Expr.unplacedAll_eq_map (es : List Expr) : unplacedAll es = es.map unplaced := by
  induction es with
  | nil => rfl
  | cons e es ih => rw [unplacedAll, ih, List.map_cons]

theorem Argument.unplacedAll_eq_map (as : List Argument) : unplacedAll as = as.map unplaced := by
  induction as with
  | nil => rfl
  | cons a as ih => rw [unplacedAll, ih, List.map_cons]

theorem Expr.sources_eq_map (es : List Expr) : Expr.sources es = es.map Expr.source := by
  induction es with
  | nil => rfl
  | cons e es ih => rw [Expr.sources, ih, List.map_cons]

theorem Argument.sources_eq_map (as : List Argument) :
    Argument.sources as = as.map Argument.source := by
  induction as with
  | nil => rfl
  | cons a as ih => rw [Argument.sources, ih, List.map_cons]

mutual

/-- The text of an expression does not depend on spans. -/
theorem Expr.source_unplaced : (e : Expr) → e.unplaced.source = e.source
  | .array elements => by simp only [Expr.unplaced, Expr.source, Expr.sources_unplaced elements]
  | .call callee arguments => by
    simp only [Expr.unplaced, Expr.source, Argument.sources_unplaced arguments]
  | .string _ | .boolean _ | .integer _ | .float _ | .nil | .member _ | .type _ | .reference _
  | .constant _ | .supplied _ => rfl

theorem Expr.sources_unplaced : (es : List Expr) →
    Expr.sources (Expr.unplacedAll es) = Expr.sources es
  | [] => rfl
  | e :: rest => by
    simp only [Expr.unplacedAll, Expr.sources, Expr.source_unplaced e, Expr.sources_unplaced rest]

theorem Argument.source_unplaced : (a : Argument) → a.unplaced.source = a.source
  | ⟨none, value, _⟩ => Expr.source_unplaced value
  | ⟨some label, value, _⟩ => by
    simp only [Argument.unplaced, Argument.source, Expr.source_unplaced value]

theorem Argument.sources_unplaced : (as : List Argument) →
    Argument.sources (Argument.unplacedAll as) = Argument.sources as
  | [] => rfl
  | a :: rest => by
    simp only [Argument.unplacedAll, Argument.sources, Argument.source_unplaced a,
      Argument.sources_unplaced rest]

end

theorem Expr.source_eq_of_unplaced {e e' : Expr} (h : e'.unplaced = e.unplaced) :
    e'.source = e.source := by
  rw [← e'.source_unplaced, h, e.source_unplaced]

/-! ## Edits -/

/-- A change of declarations: what becomes of each attribute, if anything, and whether fields stay
mutable that are declared by the keyword at a span. -/
structure Edit where
  revised : Attribute → Option Attribute := some
  staysMutable : Option Span → Bool := fun _ => true

namespace Edit

def attributes (e : Edit) (as : List Attribute) : List Attribute := as.filterMap e.revised

def field (e : Edit) (f : Field) : Field :=
  { f with
    attributes := e.attributes f.attributes
    isMutable := f.isMutable && e.staysMutable f.bindingSpan }

def case (e : Edit) (c : Case) : Case := { c with attributes := e.attributes c.attributes }

/-- The record with the edit made in all that it declares. -/
def record (e : Edit) (r : Record) : Record :=
  { r with
    attributes := e.attributes r.attributes
    fields := r.fields.map e.field
    cases := r.cases.map e.case }

/-- The attribute at the span has its argument number `i` no more. -/
def removeArgument (span : Span) (i : Nat) : Edit where
  revised a :=
    some (if a.span = some span then { a with arguments := a.arguments.eraseIdx i } else a)

/-- The attribute at the span is gone. -/
def removeAttribute (span : Span) : Edit where
  revised a := if a.span = some span then none else some a

/-- The field whose keyword stands at the span is declared with `let`. -/
def declareLet (span : Span) : Edit where
  staysMutable s := s != some span

@[simp] theorem attributes_nil (e : Edit) : e.attributes [] = [] := rfl

@[simp] theorem attributes_append (e : Edit) (as bs : List Attribute) :
    e.attributes (as ++ bs) = e.attributes as ++ e.attributes bs := List.filterMap_append

@[simp] theorem attributes_empty (as : List Attribute) : attributes {} as = as := by
  rw [attributes, List.filterMap_some]

@[simp] theorem record_empty (r : Record) : record {} r = r := by
  have hfield : field {} = id := funext fun f => by simp [field]
  have hcase : case {} = id := funext fun c => by simp [case]
  simp [record, hfield, hcase]

end Edit

end RowSchema
