import RowSchema.Proofs.Record.Edit
import RowSchema.Proofs.Record.Placed

/-! # Declarations with other spans

Declarations say the same if they are equal once all spans are left out. Where they have spans
everywhere, they are even equal once it is forgotten where the spans are, but not that there are
spans, and whether these are empty or of no use. -/

namespace RowSchema

namespace Span

/-- The span moved so that it stops at the beginning of the text. How long it is is left open but
for what its length is asked for: whether it has one, and whether that is nothing. -/
def erased (s : Span) : Span :=
  if s.stop < s.start then ⟨1, 0⟩
  else if RangeError.longest < s.stop - s.start then ⟨-(RangeError.longest + 1), 0⟩
  else if s.start = s.stop then ⟨0, 0⟩
  else ⟨-1, 0⟩

/-- Whether there is a span, and of what kind, but not where it is. -/
def erase : Option Span → Option Span := Option.map erased

@[simp] theorem erase_none : erase none = none := rfl

@[simp] theorem erase_some (s : Span) : erase (some s) = some s.erased := rfl

theorem isEmpty?_erased (s : Span) : s.erased.isEmpty? = s.isEmpty? := by
  by_cases hbackwards : s.stop < s.start
  · rw [erased, if_pos hbackwards, isEmpty?, isEmpty?, if_pos hbackwards]
    rfl
  by_cases hlong : RangeError.longest < s.stop - s.start
  · rw [erased, if_neg hbackwards, if_pos hlong, isEmpty?, isEmpty?, if_neg hbackwards,
      if_pos hlong]
    rfl
  by_cases hempty : s.start = s.stop
  · rw [erased, if_neg hbackwards, if_neg hlong, if_pos hempty, isEmpty?, isEmpty?,
      if_neg hbackwards, if_neg hlong, beq_iff_eq.mpr hempty]
    rfl
  · rw [erased, if_neg hbackwards, if_neg hlong, if_neg hempty, isEmpty?, isEmpty?,
      if_neg hbackwards, if_neg hlong, beq_false_of_ne hempty]
    rfl

theorem orElse_erase (s other : Option Span) :
    orElse (erase s) (erase other) = (orElse s other).map erase := by
  cases s with
  | none => rfl
  | some s =>
    rw [erase_some, orElse, isEmpty?_erased, orElse]
    rcases s.isEmpty? with e | _ | _ <;> rfl

theorem erased_stop (s : Span) : s.erased.stop = 0 := by
  unfold erased
  split
  · rfl
  · split
    · rfl
    · split <;> rfl

/-- The place where a span stops. -/
theorem erased_empty (n : Int) : erased ⟨n, n⟩ = ⟨0, 0⟩ := by
  have hlong : ¬ RangeError.longest < n - n := by
    rw [Int.sub_self]
    decide
  rw [erased, if_neg (Int.lt_irrefl n), if_neg hlong, if_pos rfl]

end Span

/-! ## Expressions -/

mutual

/-- The expression with each span `s` in it changed to `f s`. -/
def Expr.respan (f : Option Span → Option Span) : Expr → Expr
  | .array elements => .array (Expr.respanAll f elements)
  | .call callee arguments => .call callee (Argument.respanAll f arguments)
  | e => e

def Expr.respanAll (f : Option Span → Option Span) : List Expr → List Expr
  | [] => []
  | e :: rest => e.respan f :: Expr.respanAll f rest

def Argument.respan (f : Option Span → Option Span) : Argument → Argument
  | ⟨label, value, span⟩ => ⟨label, value.respan f, f span⟩

def Argument.respanAll (f : Option Span → Option Span) : List Argument → List Argument
  | [] => []
  | a :: rest => a.respan f :: Argument.respanAll f rest

end

section

variable (f g : Option Span → Option Span)

theorem Argument.respan_eq (a : Argument) : a.respan f = ⟨a.label, a.value.respan f, f a.span⟩ := by
  cases a
  rw [respan]

@[simp] theorem Argument.label_respan (a : Argument) : (a.respan f).label = a.label := by
  rw [respan_eq]

@[simp] theorem Argument.value_respan (a : Argument) : (a.respan f).value = a.value.respan f := by
  rw [respan_eq]

@[simp] theorem Argument.span_respan (a : Argument) : (a.respan f).span = f a.span := by
  rw [respan_eq]

theorem Expr.respanAll_eq_map (es : List Expr) : respanAll f es = es.map (respan f) := by
  induction es with
  | nil => rfl
  | cons e es ih => rw [respanAll, ih, List.map_cons]

theorem Argument.respanAll_eq_map (as : List Argument) : respanAll f as = as.map (respan f) := by
  induction as with
  | nil => rfl
  | cons a as ih => rw [respanAll, ih, List.map_cons]

mutual

theorem Expr.respan_none : (e : Expr) → e.respan (fun _ => none) = e.unplaced
  | .array elements => by simp only [Expr.respan, Expr.unplaced, Expr.respanAll_none elements]
  | .call callee arguments => by
    simp only [Expr.respan, Expr.unplaced, Argument.respanAll_none arguments]
  | .string _ | .boolean _ | .integer _ | .float _ | .nil | .member _ | .type _ | .reference _
  | .constant _ | .supplied _ => rfl

theorem Expr.respanAll_none : (es : List Expr) →
    Expr.respanAll (fun _ => none) es = Expr.unplacedAll es
  | [] => rfl
  | e :: rest => by
    simp only [Expr.respanAll, Expr.unplacedAll, Expr.respan_none e, Expr.respanAll_none rest]

theorem Argument.respan_none : (a : Argument) → a.respan (fun _ => none) = a.unplaced
  | ⟨_, value, _⟩ => by simp only [Argument.respan, Argument.unplaced, Expr.respan_none value]

theorem Argument.respanAll_none : (as : List Argument) →
    Argument.respanAll (fun _ => none) as = Argument.unplacedAll as
  | [] => rfl
  | a :: rest => by
    simp only [Argument.respanAll, Argument.unplacedAll, Argument.respan_none a,
      Argument.respanAll_none rest]

end

mutual

theorem Expr.respan_respan : (e : Expr) → (e.respan f).respan g = e.respan (g ∘ f)
  | .array elements => by simp only [Expr.respan, Expr.respanAll_respanAll elements]
  | .call callee arguments => by simp only [Expr.respan, Argument.respanAll_respanAll arguments]
  | .string _ | .boolean _ | .integer _ | .float _ | .nil | .member _ | .type _ | .reference _
  | .constant _ | .supplied _ => rfl

theorem Expr.respanAll_respanAll : (es : List Expr) →
    Expr.respanAll g (Expr.respanAll f es) = Expr.respanAll (g ∘ f) es
  | [] => rfl
  | e :: rest => by
    simp only [Expr.respanAll, Expr.respan_respan e, Expr.respanAll_respanAll rest]

theorem Argument.respan_respan : (a : Argument) → (a.respan f).respan g = a.respan (g ∘ f)
  | ⟨_, value, _⟩ => by simp only [Argument.respan, Expr.respan_respan value, Function.comp_apply]

theorem Argument.respanAll_respanAll : (as : List Argument) →
    Argument.respanAll g (Argument.respanAll f as) = Argument.respanAll (g ∘ f) as
  | [] => rfl
  | a :: rest => by
    simp only [Argument.respanAll, Argument.respan_respan a, Argument.respanAll_respanAll rest]

end

theorem Argument.unplaced_respan (a : Argument) : (a.respan f).unplaced = a.unplaced := by
  rw [← respan_none, respan_respan, ← respan_none]
  rfl

/-- The text of an argument does not depend on spans. -/
theorem Argument.source_respan (a : Argument) : (a.respan f).source = a.source := by
  rw [← source_unplaced, unplaced_respan, source_unplaced]

theorem Argument.sources_respan (as : List Argument) :
    Argument.sources (Argument.respanAll f as) = Argument.sources as := by
  simp only [sources_eq_map, respanAll_eq_map, List.map_map, Function.comp_def, source_respan]

end

section

variable {f g : Option Span → Option Span}

mutual

/-- Only the spans in an expression matter to a change of its spans. -/
theorem Expr.respan_congr : (e : Expr) → (∀ b ∈ e.inner, f b.span = g b.span) →
    e.respan f = e.respan g
  | .array elements, h => congrArg Expr.array (Expr.respanAll_congr elements h)
  | .call callee arguments, h => congrArg (Expr.call callee) (Argument.respanAll_congr arguments h)
  | .string _, _ | .boolean _, _ | .integer _, _ | .float _, _ | .nil, _ | .member _, _
  | .type _, _ | .reference _, _ | .constant _, _ | .supplied _, _ => rfl

theorem Expr.respanAll_congr : (es : List Expr) → (∀ b ∈ Expr.inners es, f b.span = g b.span) →
    Expr.respanAll f es = Expr.respanAll g es
  | [], _ => rfl
  | e :: rest, h => by
    rw [Expr.inners] at h
    obtain ⟨hfirst, hrest⟩ := List.forall_mem_append.mp h
    rw [Expr.respanAll, Expr.respanAll, Expr.respan_congr e hfirst, Expr.respanAll_congr rest hrest]

theorem Argument.respanAll_congr : (as : List Argument) →
    (∀ b ∈ Argument.inner as, f b.span = g b.span) →
    Argument.respanAll f as = Argument.respanAll g as
  | [], _ => rfl
  | ⟨label, value, span⟩ :: rest, h => by
    rw [Argument.inner] at h
    obtain ⟨hspan, h⟩ := List.forall_mem_cons.mp h
    obtain ⟨hvalue, hrest⟩ := List.forall_mem_append.mp h
    have hspan : f span = g span := hspan
    rw [Argument.respanAll, Argument.respanAll, Argument.respan, Argument.respan, hspan,
      Expr.respan_congr value hvalue, Argument.respanAll_congr rest hrest]

end

end

/-! ## Declarations -/

section

variable (f : Option Span → Option Span)

def Attribute.respan (a : Attribute) : Attribute :=
  { a with arguments := Argument.respanAll f a.arguments, span := f a.span }

def Field.respan (x : Field) : Field :=
  { x with
    attributes := x.attributes.map (Attribute.respan f)
    default := x.default.map (Expr.respan f)
    span := f x.span
    bindingSpan := f x.bindingSpan
    nameSpan := f x.nameSpan }

def Payload.respan (p : Payload) : Payload :=
  { p with default := p.default.map (Expr.respan f), span := f p.span }

def Case.respan (c : Case) : Case :=
  { c with
    payloads := c.payloads.map (Payload.respan f)
    attributes := c.attributes.map (Attribute.respan f)
    span := f c.span }

def Record.respan (r : Record) : Record :=
  { r with
    attributes := r.attributes.map (Attribute.respan f)
    fields := r.fields.map (Field.respan f)
    cases := r.cases.map (Case.respan f)
    span := f r.span }

@[simp] theorem Record.key_respan (r : Record) : (r.respan f).key = r.key := rfl

end

/-! ## Spans of a declaration -/

/-- The spans of the arguments in an expression. -/
def Expr.spans (e : Expr) : List (Option Span) := e.inner.map Argument.span

def Attribute.spans (a : Attribute) : List (Option Span) :=
  a.span :: (Argument.inner a.arguments).map Argument.span

def Field.spans (x : Field) : List (Option Span) :=
  x.span :: x.bindingSpan :: x.nameSpan ::
    (x.attributes.flatMap Attribute.spans ++ x.default.toList.flatMap Expr.spans)

def Payload.spans (p : Payload) : List (Option Span) := p.span :: p.default.toList.flatMap Expr.spans

def Case.spans (c : Case) : List (Option Span) :=
  c.span :: (c.payloads.flatMap Payload.spans ++ c.attributes.flatMap Attribute.spans)

/-- All spans of a record and of what it declares. -/
def Record.spans (r : Record) : List (Option Span) :=
  r.span :: (r.attributes.flatMap Attribute.spans ++ r.fields.flatMap Field.spans ++
    r.cases.flatMap Case.spans)

section

variable {f g : Option Span → Option Span}

theorem map_congr_of_flatMap {α β γ : Type} {P : γ → Prop} {spans : α → List γ} {l : List α}
    {h k : α → β} (hone : ∀ a, (∀ s ∈ spans a, P s) → h a = k a)
    (hall : ∀ s ∈ l.flatMap spans, P s) : l.map h = l.map k :=
  List.map_congr_left fun a ha => hone a fun s hs => hall s (List.mem_flatMap.mpr ⟨a, ha, hs⟩)

theorem Expr.respan_eq_of_spans {e : Expr} (h : ∀ s ∈ e.spans, f s = g s) :
    e.respan f = e.respan g :=
  e.respan_congr (List.forall_mem_map.mp h)

theorem Expr.map_respan_congr {e : Option Expr} (h : ∀ s ∈ e.toList.flatMap spans, f s = g s) :
    e.map (respan f) = e.map (respan g) := by
  cases e with
  | none => rfl
  | some e =>
    have he : ∀ s ∈ e.spans, f s = g s := by simpa using h
    exact congrArg some (respan_eq_of_spans he)

theorem Attribute.respan_congr (a : Attribute) (h : ∀ s ∈ a.spans, f s = g s) :
    a.respan f = a.respan g := by
  obtain ⟨hspan, harguments⟩ := List.forall_mem_cons.mp h
  simp only [respan, hspan, Argument.respanAll_congr _ (List.forall_mem_map.mp harguments)]

theorem Field.respan_congr (x : Field) (h : ∀ s ∈ x.spans, f s = g s) :
    x.respan f = x.respan g := by
  simp only [spans, List.forall_mem_cons, List.forall_mem_append] at h
  obtain ⟨hspan, hbinding, hname, hattributes, hdefault⟩ := h
  simp only [respan, hspan, hbinding, hname, Expr.map_respan_congr hdefault,
    map_congr_of_flatMap Attribute.respan_congr hattributes]

theorem Payload.respan_congr (p : Payload) (h : ∀ s ∈ p.spans, f s = g s) :
    p.respan f = p.respan g := by
  obtain ⟨hspan, hdefault⟩ := List.forall_mem_cons.mp h
  simp only [respan, hspan, Expr.map_respan_congr hdefault]

theorem Case.respan_congr (c : Case) (h : ∀ s ∈ c.spans, f s = g s) :
    c.respan f = c.respan g := by
  simp only [spans, List.forall_mem_cons, List.forall_mem_append] at h
  obtain ⟨hspan, hpayloads, hattributes⟩ := h
  simp only [respan, hspan, map_congr_of_flatMap Payload.respan_congr hpayloads,
    map_congr_of_flatMap Attribute.respan_congr hattributes]

theorem Record.respan_congr (r : Record) (h : ∀ s ∈ r.spans, f s = g s) :
    r.respan f = r.respan g := by
  simp only [spans, List.forall_mem_cons, List.forall_mem_append] at h
  obtain ⟨hspan, ⟨hattributes, hfields⟩, hcases⟩ := h
  simp only [respan, hspan, map_congr_of_flatMap Attribute.respan_congr hattributes,
    map_congr_of_flatMap Field.respan_congr hfields, map_congr_of_flatMap Case.respan_congr hcases]

end

/-! ## Declarations that say the same -/

section

variable (f g : Option Span → Option Span)

theorem Attribute.respan_respan (a : Attribute) : (a.respan f).respan g = a.respan (g ∘ f) := by
  simp only [respan, Argument.respanAll_respanAll, Function.comp_apply]

theorem Field.respan_respan (x : Field) : (x.respan f).respan g = x.respan (g ∘ f) := by
  simp only [respan, List.map_map, Option.map_map, Function.comp_def, Attribute.respan_respan,
    Expr.respan_respan]

theorem Payload.respan_respan (p : Payload) : (p.respan f).respan g = p.respan (g ∘ f) := by
  simp only [respan, Option.map_map, Function.comp_def, Expr.respan_respan]

theorem Case.respan_respan (c : Case) : (c.respan f).respan g = c.respan (g ∘ f) := by
  simp only [respan, List.map_map, Function.comp_def, Payload.respan_respan,
    Attribute.respan_respan]

theorem Record.respan_respan (r : Record) : (r.respan f).respan g = r.respan (g ∘ f) := by
  simp only [respan, List.map_map, Function.comp_def, Attribute.respan_respan,
    Field.respan_respan, Case.respan_respan]

theorem Attribute.respan_none : Attribute.respan (fun _ => none) = unplaced :=
  funext fun a => by simp only [respan, unplaced, Argument.respanAll_none]

theorem Record.respan_none (r : Record) : r.respan (fun _ => none) = r.unplaced := by
  have hexpr : Expr.respan (fun _ => none) = Expr.unplaced := funext Expr.respan_none
  have hfield : Field.respan (fun _ => none) = Field.unplaced :=
    funext fun x => by simp only [Field.respan, Field.unplaced, Attribute.respan_none, hexpr]
  have hpayload : Payload.respan (fun _ => none) = Payload.unplaced :=
    funext fun p => by simp only [Payload.respan, Payload.unplaced, hexpr]
  have hcase : Case.respan (fun _ => none) = Case.unplaced :=
    funext fun c => by simp only [Case.respan, Case.unplaced, Attribute.respan_none, hpayload]
  simp only [respan, unplaced, Attribute.respan_none, hfield, hcase]

end

/-- The span has a length, and is not empty. -/
structure Span.Ordinary (s : Span) : Prop where
  proper : s.start < s.stop
  short : s.stop - s.start ≤ RangeError.longest

theorem Span.Ordinary.erased_eq {s : Span} (h : s.Ordinary) : s.erased = ⟨-1, 0⟩ := by
  obtain ⟨hproper, hshort⟩ := h
  rw [erased, if_neg (by omega), if_neg (by omega), if_neg (by omega)]

/-- The record and all that it declares have ordinary spans. -/
def Record.Spanned (r : Record) : Prop := ∀ s ∈ r.spans, ∃ x : Span, s = some x ∧ x.Ordinary

/-- A record with ordinary spans everywhere is, but for where these are, what it says. -/
theorem Record.Spanned.respan_erase {r : Record} (h : r.Spanned) :
    r.respan Span.erase = r.unplaced.respan fun _ => some ⟨-1, 0⟩ := by
  rw [← Record.respan_none, Record.respan_respan]
  refine r.respan_congr fun s hs => ?_
  obtain ⟨x, rfl, hx⟩ := h s hs
  rw [Span.erase_some, hx.erased_eq]
  rfl

section

variable {source : String} {span outer : Span}

theorem Argument.PlacedIn.spans {arguments : List Argument} (h : PlacedIn outer arguments) :
    ∀ s ∈ arguments.map Argument.span, ∃ x, s = some x ∧ x.Inside outer :=
  List.forall_mem_map.mpr h

theorem Attribute.PlacedIn.spans {attributes : List Attribute}
    (h : PlacedIn source outer attributes) :
    ∀ s ∈ attributes.flatMap Attribute.spans, ∃ x, s = some x ∧ x.Inside outer := by
  refine List.forall_mem_flatMap.mpr fun a ha => ?_
  obtain ⟨s, hs, hplaced⟩ := h a ha
  exact List.forall_mem_cons.mpr ⟨⟨s, hplaced.span_eq, hs⟩, (hplaced.arguments.mono hs).spans⟩

theorem Expr.spans_of_placed {e : Option Expr}
    (h : ∀ x, e = some x → Argument.PlacedIn outer x.inner) :
    ∀ s ∈ e.toList.flatMap spans, ∃ x, s = some x ∧ x.Inside outer := by
  refine List.forall_mem_flatMap.mpr fun x hx => ?_
  exact (h x (Option.mem_toList.mp hx)).spans

/-- All spans of a record stand where the record stands. -/
theorem Record.Placed.spans {r : Record} (h : r.Placed source span) (hspan : span.Inside outer) :
    ∀ s ∈ r.spans, ∃ x, s = some x ∧ x.Inside outer := by
  simp only [Record.spans, List.forall_mem_cons, List.forall_mem_append,
    List.forall_mem_flatMap (f := Field.spans), List.forall_mem_flatMap (f := Case.spans)]
  refine ⟨⟨span, h.span_eq, hspan⟩, ⟨(h.attributes.mono hspan).spans, fun x hx => ?_⟩,
    fun c hc => ?_⟩
  · obtain ⟨s, hs, hfield⟩ := h.fields x hx
    have hs := hs.trans hspan
    obtain ⟨binding, hbinding, hinBinding, -⟩ := hfield.binding
    obtain ⟨name, hname, hinName, -⟩ := hfield.name
    simp only [Field.spans, List.forall_mem_cons, List.forall_mem_append]
    exact ⟨⟨s, hfield.span_eq, hs⟩, ⟨binding, hbinding, hinBinding.trans hs⟩,
      ⟨name, hname, hinName.trans hs⟩, (hfield.attributes.mono hs).spans,
      Expr.spans_of_placed fun e he => (hfield.default e he).mono hs⟩
  · obtain ⟨⟨s, hs, hcase⟩, hattributes⟩ := h.cases c hc
    have hs := hs.trans hspan
    simp only [Case.spans, List.forall_mem_cons, List.forall_mem_append]
    refine ⟨⟨s, hcase.span_eq, hs⟩, List.forall_mem_flatMap.mpr fun p hp => ?_,
      (hattributes.mono hspan).spans⟩
    obtain ⟨t, ht, hpayload⟩ := hcase.payloads p hp
    have ht := ht.trans hs
    exact List.forall_mem_cons.mpr ⟨⟨t, hpayload.span_eq, ht⟩,
      Expr.spans_of_placed fun e he => (hpayload.default e he).mono ht⟩

/-- What stands in a text has ordinary spans everywhere. -/
theorem Record.Placed.spanned {r : Record} {length : Nat} (h : r.Placed source span)
    (hspan : span.Inside ⟨0, length⟩) (hlength : (length : Int) ≤ RangeError.longest) :
    r.Spanned := by
  intro s hs
  obtain ⟨x, rfl, hstart, hproper, hstop⟩ := h.spans hspan s hs
  dsimp only at hstart hstop
  exact ⟨x, rfl, hproper, by omega⟩

end

end RowSchema
