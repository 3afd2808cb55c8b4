import RowSchema.Proofs.Token.Spans
import RowSchema.Record

/-! # Where declarations stand

What it means that a record stands at a span of a text: each thing that it declares stands in it,
and the parts of that thing stand in the thing. -/

namespace RowSchema

mutual

/-- The arguments of the calls in an expression, at any depth. -/
def Expr.inner : Expr → List Argument
  | .array elements => Expr.inners elements
  | .call _ arguments => Argument.inner arguments
  | _ => []

def Expr.inners : List Expr → List Argument
  | [] => []
  | e :: rest => e.inner ++ Expr.inners rest

/-- The arguments, and those of the calls in them. -/
def Argument.inner : List Argument → List Argument
  | [] => []
  | ⟨label, value, span⟩ :: rest => ⟨label, value, span⟩ :: (value.inner ++ Argument.inner rest)

end

@[simp] theorem Expr.inners_append (es es' : List Expr) :
    inners (es ++ es') = inners es ++ inners es' := by
  induction es with
  | nil => rfl
  | cons e es ih => simp [inners, ih]

@[simp] theorem Argument.inner_append (as as' : List Argument) :
    inner (as ++ as') = inner as ++ inner as' := by
  induction as with
  | nil => rfl
  | cons a as ih =>
    obtain ⟨label, value, span⟩ := a
    simp [inner, ih]

/-- The arguments that are written down stand in the span. -/
def Argument.PlacedIn (outer : Span) (arguments : List Argument) : Prop :=
  ∀ b ∈ arguments, ∃ s, b.span = some s ∧ s.Inside outer

/-- The attribute stands at the span, from its sign on, and its arguments stand in it. -/
structure Attribute.Placed (source : String) (a : Attribute) (span : Span) : Prop where
  span_eq : a.span = some span
  sign : (span.textIn source).toList.head? = some '@'
  arguments : Argument.PlacedIn span (Argument.inner a.arguments)

/-- The attributes stand in the span. -/
def Attribute.PlacedIn (source : String) (outer : Span) (attributes : List Attribute) : Prop :=
  ∀ a ∈ attributes, ∃ s, s.Inside outer ∧ a.Placed source s

/-- The field stands at the span. Its attributes, its keyword, its name and the arguments in its
default stand in it. -/
structure Field.Placed (source : String) (f : Field) (span : Span) : Prop where
  span_eq : f.span = some span
  attributes : Attribute.PlacedIn source span f.attributes
  binding : ∃ s, f.bindingSpan = some s ∧ s.Inside span ∧
    s.textIn source = if f.isMutable then "var" else "let"
  name : ∃ s, f.nameSpan = some s ∧ s.Inside span ∧ s.textIn source = f.name
  default : ∀ e, f.default = some e → Argument.PlacedIn span e.inner

structure Payload.Placed (p : Payload) (span : Span) : Prop where
  span_eq : p.span = some span
  default : ∀ e, p.default = some e → Argument.PlacedIn span e.inner

/-- The case stands at the span, and its associated values stand in it. Its attributes need not:
they may stand before several cases. -/
structure Case.Placed (c : Case) (span : Span) : Prop where
  span_eq : c.span = some span
  payloads : ∀ p ∈ c.payloads, ∃ s, s.Inside span ∧ p.Placed s

/-- The record stands at the span, and all that it declares stands in it. -/
structure Record.Placed (source : String) (r : Record) (span : Span) : Prop where
  span_eq : r.span = some span
  attributes : Attribute.PlacedIn source span r.attributes
  fields : ∀ f ∈ r.fields, ∃ s, s.Inside span ∧ f.Placed source s
  cases : ∀ c ∈ r.cases, (∃ s, s.Inside span ∧ c.Placed s) ∧
    Attribute.PlacedIn source span c.attributes

section

variable {source : String} {s outer : Span}

theorem Argument.PlacedIn.mono {arguments : List Argument} (h : PlacedIn s arguments)
    (hs : s.Inside outer) : PlacedIn outer arguments := by
  intro b hb
  obtain ⟨t, ht, hin⟩ := h b hb
  exact ⟨t, ht, hin.trans hs⟩

theorem Argument.PlacedIn.append {as bs : List Argument} (ha : PlacedIn outer as)
    (hb : PlacedIn outer bs) : PlacedIn outer (as ++ bs) :=
  fun b hmem => (List.mem_append.mp hmem).elim (ha b) (hb b)

theorem Argument.PlacedIn.nil : PlacedIn outer [] := fun _ h => nomatch h

theorem Attribute.PlacedIn.mono {attributes : List Attribute} (h : PlacedIn source s attributes)
    (hs : s.Inside outer) : PlacedIn source outer attributes := by
  intro a ha
  obtain ⟨t, hin, hplaced⟩ := h a ha
  exact ⟨t, hin.trans hs, hplaced⟩

theorem Attribute.PlacedIn.nil : PlacedIn source outer [] := fun _ h => nomatch h

end

end RowSchema
