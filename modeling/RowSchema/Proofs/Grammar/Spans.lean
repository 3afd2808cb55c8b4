import RowSchema.Proofs.Grammar.Trees
import RowSchema.Proofs.Token.Spans

/-! # Where derivations stand

A derivation stands where its tokens do: from the first of them to the last. So the values of the
symbols of a production stand one after another inside the value of the part. -/

namespace RowSchema.Grammar

/-- From the first token to the last. -/
def hull (xs : List (Sigma Label)) : Span :=
  ⟨(xs.head?.map fun x => x.2.span.start).getD 0, (xs.getLast?.map fun x => x.2.span.stop).getD 0⟩

theorem hull_append {xs ys : List (Sigma Label)} (hxs : xs ≠ []) (hys : ys ≠ []) :
    hull (xs ++ ys) = ⟨(hull xs).start, (hull ys).stop⟩ := by
  simp [hull, List.getLast?_eq_some_getLast hys, List.head?_eq_some_head hxs]

/-- No part of a text but the whole is empty. -/
theorem symbols_ne_declarations {n : Nonterminal} {symbols : List Symbol}
    (p : Production n symbols) : ∀ s ∈ symbols, s ≠ .part .declarations := by
  cases p <;> simp

theorem symbols_ne_nil {n : Nonterminal} {symbols : List Symbol} (p : Production n symbols)
    (hn : n ≠ .declarations) : symbols ≠ [] := by
  cases p <;> first | exact List.cons_ne_nil _ _ | exact absurd rfl hn

mutual

/-- A derivation has tokens, and it stands where they do. -/
theorem Tree.spread : {s : Symbol} → (t : Tree Label s) → s ≠ .part .declarations →
    t.leaves ≠ [] ∧ t.located.span = hull t.leaves
  | _, .leaf _, _ => ⟨List.cons_ne_nil _ _, rfl⟩
  | _, .node p children, hn =>
    children.spread (symbols_ne_declarations p)
      (symbols_ne_nil p fun h => hn (congrArg Symbol.part h))

theorem Forest.spread : {symbols : List Symbol} → (f : Forest Label symbols) →
    (∀ s ∈ symbols, s ≠ .part .declarations) → symbols ≠ [] →
      f.leaves ≠ [] ∧ f.values.span = hull f.leaves
  | _, .nil, _, hne => absurd rfl hne
  | _, .cons first .nil, hs, _ => by
    obtain ⟨hleaves, hspan⟩ := first.spread (hs _ List.mem_cons_self)
    simpa [Forest.values, Values.span] using And.intro hleaves hspan
  | _, .cons first (.cons second rest), hs, _ => by
    obtain ⟨hleaves, hspan⟩ := first.spread (hs _ List.mem_cons_self)
    obtain ⟨hmore, hmorespan⟩ := Forest.spread (.cons second rest)
      (fun s hmem => hs s (List.mem_cons_of_mem _ hmem)) (List.cons_ne_nil _ _)
    constructor
    · rw [Forest.leaves]
      exact List.append_ne_nil_of_left_ne_nil hleaves _
    · rw [Forest.leaves, hull_append hleaves hmore, ← hspan, ← hmorespan]
      rfl

end

/-! ## Values in order -/

/-- Each value has the property. -/
def Values.All (P : (s : Symbol) → Located s.Value → Prop) :
    {symbols : List Symbol} → Values symbols → Prop
  | [], _ => True
  | s :: _, ⟨x, rest⟩ => P s x ∧ Values.All P rest

/-- The values stand one after another, and none at an empty span. -/
def Values.InOrder : {symbols : List Symbol} → Values symbols → Prop
  | [], _ => True
  | [_], ⟨x, _⟩ => x.span.start < x.span.stop
  | _ :: _ :: _, ⟨x, rest⟩ =>
    x.span.start < x.span.stop ∧ x.span.Before (Values.span rest) ∧ Values.InOrder rest

theorem Values.All.imp {P Q : (s : Symbol) → Located s.Value → Prop}
    (h : ∀ s x, P s x → Q s x) :
    {symbols : List Symbol} → {xs : Values symbols} → xs.All P → xs.All Q
  | [], _, _ => trivial
  | _ :: _, ⟨_, _⟩, ⟨hx, hrest⟩ => ⟨h _ _ hx, Values.All.imp h hrest⟩

theorem Values.InOrder.proper : {symbols : List Symbol} → {xs : Values symbols} → xs.InOrder →
    symbols ≠ [] → xs.span.start < xs.span.stop
  | [], _, _, hne => absurd rfl hne
  | [_], ⟨_, _⟩, h, _ => h
  | _ :: _ :: _, ⟨x, rest⟩, ⟨hx, hbefore, hrest⟩, _ => by
    have hproper := hrest.proper (List.cons_ne_nil _ _)
    simp only [Span.Before] at hbefore
    show x.span.start < rest.span.stop
    omega

/-- Values in order stand inside their common span. -/
theorem Values.InOrder.inside : {symbols : List Symbol} → {xs : Values symbols} → xs.InOrder →
    xs.All fun _ x => x.span.Inside xs.span
  | [], _, _ => trivial
  | [_], ⟨_, _⟩, h => ⟨⟨Int.le_refl _, h, Int.le_refl _⟩, trivial⟩
  | _ :: _ :: _, ⟨x, rest⟩, ⟨hx, hbefore, hrest⟩ => by
    have hproper := hrest.proper (List.cons_ne_nil _ _)
    simp only [Span.Before] at hbefore
    have hfirst : x.span.Inside ⟨x.span.start, rest.span.stop⟩ := by
      refine ⟨Int.le_refl _, hx, ?_⟩
      show x.span.stop ≤ rest.span.stop
      omega
    have hlater : rest.span.Inside ⟨x.span.start, rest.span.stop⟩ := by
      refine ⟨?_, hproper, Int.le_refl _⟩
      show x.span.start ≤ rest.span.start
      omega
    exact ⟨hfirst, hrest.inside.imp fun _ _ h => h.trans hlater⟩

/-- The tokens stand one after another, and none at an empty span. -/
structure InOrder (xs : List (Sigma Label)) : Prop where
  proper : ∀ x ∈ xs, x.2.span.start < x.2.span.stop
  pairs : xs.Pairwise fun x y => x.2.span.Before y.2.span

theorem InOrder.append {xs ys : List (Sigma Label)} (h : InOrder (xs ++ ys)) :
    InOrder xs ∧ InOrder ys ∧ ∀ x ∈ xs, ∀ y ∈ ys, x.2.span.Before y.2.span := by
  obtain ⟨hxs, hys, hbetween⟩ := List.pairwise_append.mp h.pairs
  exact ⟨⟨fun x hx => h.proper x (List.mem_append_left _ hx), hxs⟩,
    ⟨fun y hy => h.proper y (List.mem_append_right _ hy), hys⟩, hbetween⟩

theorem InOrder.part {xs ys : List (Sigma Label)} (h : InOrder ys) (hpart : xs <:+: ys) :
    InOrder xs :=
  ⟨fun x hx => h.proper x (hpart.subset hx), h.pairs.sublist hpart.sublist⟩

/-- Tokens in order stand inside their hull. -/
theorem InOrder.inside_hull {xs : List (Sigma Label)} (h : InOrder xs) {x : Sigma Label}
    (hx : x ∈ xs) : x.2.span.Inside (hull xs) := by
  obtain ⟨front, back, rfl⟩ := List.mem_iff_append.mp hx
  obtain ⟨hfront, hback, hbefore⟩ := h.append
  have hproper := h.proper x hx
  refine ⟨?_, hproper, ?_⟩
  · cases front with
    | nil => exact Int.le_refl _
    | cons y front =>
      have hy := hfront.proper y List.mem_cons_self
      have hstop : y.2.span.stop ≤ x.2.span.start :=
        hbefore y List.mem_cons_self x List.mem_cons_self
      show y.2.span.start ≤ x.2.span.start
      omega
  · rcases List.eq_nil_or_concat back with rfl | ⟨back, y, rfl⟩
    · simp [hull]
    · rw [List.concat_eq_append] at hback ⊢
      have hy := hback.proper y (by simp)
      have hstop : x.2.span.stop ≤ y.2.span.start :=
        (List.pairwise_cons.mp hback.pairs).1 y (by simp)
      have hlast : (hull (front ++ x :: (back ++ [y]))).stop = y.2.span.stop := by
        simp [hull, List.getLast?_append, List.getLast?_cons]
      omega

/-- Tokens in order stretch from the start of the first to the end of the last. -/
theorem InOrder.hull_proper {xs : List (Sigma Label)} (h : InOrder xs) (hne : xs ≠ []) :
    (hull xs).start < (hull xs).stop := by
  induction xs with
  | nil => exact absurd rfl hne
  | cons x xs ih =>
    have hx := h.proper x List.mem_cons_self
    cases xs with
    | nil => simpa [hull] using hx
    | cons y ys =>
      have hlater := ih ⟨fun z hz => h.proper z (List.mem_cons_of_mem _ hz),
        (List.pairwise_cons.mp h.pairs).2⟩ (List.cons_ne_nil _ _)
      have hbefore : x.2.span.Before y.2.span :=
        (List.pairwise_cons.mp h.pairs).1 y List.mem_cons_self
      simp only [hull, Span.Before, List.head?_cons, List.getLast?_cons_cons, Option.map_some,
        Option.getD_some] at *
      omega

theorem hull_before {xs ys : List (Sigma Label)} (hxs : xs ≠ []) (hys : ys ≠ [])
    (h : ∀ x ∈ xs, ∀ y ∈ ys, x.2.span.Before y.2.span) : (hull xs).Before (hull ys) := by
  have hlast := h _ (List.getLast_mem hxs) _ (List.head_mem hys)
  simpa [hull, Span.Before, List.getLast?_eq_some_getLast hxs, List.head?_eq_some_head hys]
    using hlast

theorem Tree.proper {s : Symbol} (t : Tree Label s) (hs : s ≠ .part .declarations)
    (h : InOrder t.leaves) : t.located.span.start < t.located.span.stop := by
  obtain ⟨hne, hspan⟩ := t.spread hs
  rw [hspan]
  exact h.hull_proper hne

theorem Forest.inOrder : {symbols : List Symbol} → (f : Forest Label symbols) →
    (∀ s ∈ symbols, s ≠ .part .declarations) → InOrder f.leaves → f.values.InOrder
  | _, .nil, _, _ => trivial
  | _, .cons first .nil, hs, h => by
    have hfirst : InOrder first.leaves := by simpa using h
    exact first.proper (hs _ List.mem_cons_self) hfirst
  | _, .cons first (.cons second rest), hs, h => by
    obtain ⟨hfirst, hrest, hbetween⟩ := h.append
    have hlater := fun s hmem => hs s (List.mem_cons_of_mem _ hmem)
    obtain ⟨hleaves, hspan⟩ := first.spread (hs _ List.mem_cons_self)
    obtain ⟨hmore, hmorespan⟩ := Forest.spread (.cons second rest) hlater (List.cons_ne_nil _ _)
    refine ⟨first.proper (hs _ List.mem_cons_self) hfirst, ?_,
      Forest.inOrder (.cons second rest) hlater hrest⟩
    show first.located.span.Before (Forest.values (.cons second rest)).span
    rw [hspan, hmorespan]
    exact hull_before hleaves hmore hbetween

end RowSchema.Grammar
