import RowSchema.Proofs.Grammar.Parts

/-! # A part in place of another

Where one part of a derivation is replaced by another one that an edit leads to, or left out, the
edit leads from what was declared before to what is declared then. -/

namespace RowSchema

open Grammar

/-- Nothing is left of an attribute, or of a list of attributes. -/
def Edit.Gone (e : Edit) : (s : Symbol) → Located s.Value → Prop
  | .part .attributeItem, x => e.revised x.value = none
  | .part .attributeList, x => e.attributes x.value = []
  | _, _ => False

/-- What the edit makes of a value: nothing, or the value of that derivation. -/
def Edit.Becomes (e : Edit) (s : Symbol) (x : Located s.Value) : Option (Tree Label s) → Prop
  | some t => e.Edits s x t.located
  | none => e.Gone s x

namespace Grammar

/-- Derivations of symbols that stand one after another, where some may have been left out. -/
def Partial : List Symbol → Type
  | [] => Unit
  | s :: symbols => Option (Tree Label s) × Partial symbols

/-- The tokens of a derivation, if there is one. -/
def leavesOf {s : Symbol} (t : Option (Tree Label s)) : List (Sigma Label) := t.elim [] Tree.leaves

@[simp] theorem leavesOf_some {s : Symbol} (t : Tree Label s) : leavesOf (some t) = t.leaves := rfl

@[simp] theorem leavesOf_none {s : Symbol} : leavesOf (none : Option (Tree Label s)) = [] := rfl

def Partial.leaves : {symbols : List Symbol} → Partial symbols → List (Sigma Label)
  | [], _ => []
  | _ :: _, ⟨t, rest⟩ => leavesOf t ++ Partial.leaves rest

/-- The derivations with none left out. -/
def Forest.toPartial : {symbols : List Symbol} → Forest Label symbols → Partial symbols
  | _, .nil => ()
  | _, .cons first rest => (some first, rest.toPartial)

theorem Forest.leaves_toPartial {symbols : List Symbol} (f : Forest Label symbols) :
    f.toPartial.leaves = f.leaves := by
  cases f with
  | nil => rfl
  | cons first rest => exact congrArg (first.leaves ++ ·) rest.leaves_toPartial

end Grammar

/-- What the edit makes of each of the values. -/
def Edit.BecomesAll (e : Edit) : {symbols : List Symbol} → Values symbols → Partial symbols → Prop
  | [], _, _ => True
  | s :: _, ⟨x, xs⟩, ⟨t, rest⟩ => e.Becomes s x t ∧ e.BecomesAll xs rest

namespace Grammar

variable {e : Edit}

theorem Forest.becomesAll_of_kept : {symbols : List Symbol} → {f : Forest Label symbols} →
    f.Kept e → e.BecomesAll f.values f.toPartial
  | _, .nil, _ => trivial
  | _, .cons first _, h =>
    ⟨first.edits_of_bare first h.1 rfl, Forest.becomesAll_of_kept h.2⟩

theorem isAttributed_of_gone {s : Symbol} {x : Located s.Value} (h : e.Gone s x) :
    s.isAttributed = true := by
  cases s with
  | token k => exact h.elim
  | part n => cases n <;> first | rfl | exact h.elim

/-- Nothing but attributes and lists of them can be left out. -/
theorem exists_forest : {symbols : List Symbol} → {xs : Values symbols} →
    {parts : Partial symbols} → symbols.all (!·.isAttributed) = true → e.BecomesAll xs parts →
      ∃ f : Forest Label symbols, f.leaves = parts.leaves ∧ e.EditsAll xs f.values
  | [], _, _, _, _ => ⟨.nil, rfl, trivial⟩
  | s :: _, ⟨x, _⟩, ⟨some t, _⟩, hs, ⟨ht, hrest⟩ => by
    rw [List.all_cons, Bool.and_eq_true] at hs
    obtain ⟨f, hleaves, hedits⟩ := exists_forest hs.2 hrest
    exact ⟨.cons t f, congrArg (t.leaves ++ ·) hleaves, ht, hedits⟩
  | s :: _, ⟨x, _⟩, ⟨none, _⟩, hs, ⟨hgone, _⟩ => by
    have hattributed : s.isAttributed = true := isAttributed_of_gone hgone
    simp [hattributed] at hs

theorem attributes_singleton_of_none {a : Attribute} (h : e.revised a = none) :
    e.attributes [a] = [] := by
  simp [Edit.attributes, h]

/-- What is left of a list of attributes and of one more. -/
theorem exists_attributeMore {attributes : Located (List Attribute)} {a : Located Attribute}
    (list : Option (Of Label .attributeList)) (t : Option (Of Label .attributeItem)) {span : Span}
    (hlist : e.Becomes (.part .attributeList) attributes list)
    (ha : e.Becomes (.part .attributeItem) a t) :
    ∃ t' : Option (Of Label .attributeList), leavesOf t' = leavesOf list ++ leavesOf t ∧
      e.Becomes (.part .attributeList) ⟨attributes.value ++ [a.value], span⟩ t' := by
  cases list with
  | some list =>
    have hlist : list.located.value.map Attribute.unplaced =
      (e.attributes attributes.value).map Attribute.unplaced := hlist
    cases t with
    | some t =>
      refine ⟨some (.of2 .attributeMore list t), by simp, ?_⟩
      exact edits_action .attributeMore ⟨attributes, a, ()⟩ ⟨list.located, t.located, ()⟩
        ⟨hlist, ha, trivial⟩ trivial
    | none =>
      have hnone : e.revised a.value = none := ha
      refine ⟨some list, by simp, ?_⟩
      show list.located.value.map Attribute.unplaced =
        (e.attributes (attributes.value ++ [a.value])).map Attribute.unplaced
      rw [Edit.attributes_append, attributes_singleton_of_none hnone, List.append_nil]
      exact hlist
  | none =>
    have hnil : e.attributes attributes.value = [] := hlist
    cases t with
    | some t =>
      refine ⟨some (.of1 .attributeFirst t), by simp, ?_⟩
      show [t.located.value].map Attribute.unplaced =
        (e.attributes (attributes.value ++ [a.value])).map Attribute.unplaced
      rw [Edit.attributes_append, hnil, List.nil_append]
      exact unplaced_attributes_singleton ha
    | none =>
      have hnone : e.revised a.value = none := ha
      refine ⟨none, rfl, ?_⟩
      show e.attributes (attributes.value ++ [a.value]) = []
      rw [Edit.attributes_append, hnil, attributes_singleton_of_none hnone, List.append_nil]

/-- Where no attributes are left, the production without them takes the place of the one with
them. -/
theorem exists_attributed {n : Nonterminal} {symbols : List Symbol}
    (p : Production n (.part .attributeList :: symbols)) (q : Production n symbols)
    (hsymbols : symbols.all (!·.isAttributed) = true)
    (xs : Values (.part .attributeList :: symbols))
    (parts : Partial (.part .attributeList :: symbols)) (h : e.BecomesAll xs parts)
    (hkeeps : e.Keeps n ⟨action p xs, xs.span⟩)
    (hplain : ∀ ys : Values symbols, e.attributes xs.1.value = [] → e.EditsAll xs.2 ys →
      e.Edits (.part n) ⟨action p xs, xs.span⟩ ⟨action q ys, ys.span⟩) :
    ∃ t : Option (Of Label n), leavesOf t = parts.leaves ∧
      e.Becomes (.part n) ⟨action p xs, xs.span⟩ t := by
  obtain ⟨attributes, xs⟩ := xs
  obtain ⟨list, parts⟩ := parts
  obtain ⟨hlist, hparts⟩ := h
  obtain ⟨rest, hleaves, hrest⟩ := exists_forest hsymbols hparts
  cases list with
  | some list =>
    refine ⟨some (.node p (.cons list rest)), congrArg (list.leaves ++ ·) hleaves, ?_⟩
    exact edits_action p ⟨attributes, xs⟩ ⟨list.located, rest.values⟩ ⟨hlist, hrest⟩ hkeeps
  | none => exact ⟨some (.node q rest), hleaves, hplain rest.values hlist hrest⟩

/-- Each production makes a derivation of what is left of its symbols. -/
theorem exists_assembled {n : Nonterminal} {symbols : List Symbol} (p : Production n symbols)
    (xs : Values symbols) (parts : Partial symbols) (h : e.BecomesAll xs parts)
    (hkeeps : e.Keeps n ⟨action p xs, xs.span⟩) :
    ∃ t : Option (Of Label n), leavesOf t = parts.leaves ∧
      e.Becomes (.part n) ⟨action p xs, xs.span⟩ t := by
  have hwhole : symbols.all (!·.isAttributed) = true → ∃ t : Option (Of Label n),
      leavesOf t = parts.leaves ∧ e.Becomes (.part n) ⟨action p xs, xs.span⟩ t := by
    intro hs
    obtain ⟨f, hleaves, hedits⟩ := exists_forest hs h
    exact ⟨some (.node p f), hleaves, edits_action p xs f.values hedits hkeeps⟩
  cases p with
  | attributeFirst =>
    obtain ⟨a, ⟨⟩⟩ := xs
    obtain ⟨t, ⟨⟩⟩ := parts
    cases t with
    | some t => exact ⟨some (.of1 .attributeFirst t), rfl, unplaced_attributes_singleton h.1⟩
    | none =>
      have hnone : e.revised a.value = none := h.1
      exact ⟨none, rfl, attributes_singleton_of_none hnone⟩
  | attributeMore =>
    obtain ⟨attributes, a, ⟨⟩⟩ := xs
    obtain ⟨list, t, ⟨⟩⟩ := parts
    obtain ⟨t', hleaves, ht'⟩ := exists_attributeMore list t h.1 h.2.1
    exact ⟨t', by simpa [Partial.leaves] using hleaves, ht'⟩
  | declarationAttributed =>
    refine exists_attributed .declarationAttributed .declarationPlain rfl xs parts h hkeeps ?_
    obtain ⟨attributes, header, body, ⟨⟩⟩ := xs
    rintro ⟨header', body', ⟨⟩⟩ hnil ⟨hheader, hbody, _⟩
    have hheader : header'.value = header.value := hheader
    simp only [Edit.Edits, action, hheader]
    exact unplaced_recordOf (by rw [hnil]) hbody
  | memberFieldAttributed =>
    refine exists_attributed .memberFieldAttributed .memberField rfl xs parts h hkeeps ?_
    rintro ⟨d', ⟨⟩⟩ hnil ⟨hd, _⟩
    exact congrArg (fun m => some [m]) (unplaced_field hd (by rw [hnil]))
  | memberCaseAttributed =>
    refine exists_attributed .memberCaseAttributed .memberCase rfl xs parts h hkeeps ?_
    rintro ⟨cases', ⟨⟩⟩ hnil ⟨hcases, _⟩
    exact congrArg some (unplaced_casesWith hcases (by rw [hnil]))
  | _ => exact hwhole rfl

/-! ## Replacing a part -/

mutual

/-- An edit leaves a derivation as it is if it leaves the parts of its tokens as they are. -/
theorem Tree.kept_of_leaves {among : List (Sigma Label)}
    (h : ∀ m (v : Of Label m), v.leaves ⊆ among → e.Keeps m v.located) : {s : Symbol} →
      (t : Tree Label s) → t.leaves ⊆ among → t.Kept e
  | _, .leaf _, _ => trivial
  | _, .node p children, ht => ⟨h _ (.node p children) ht, children.kept_of_leaves h ht⟩

theorem Forest.kept_of_leaves {among : List (Sigma Label)}
    (h : ∀ m (v : Of Label m), v.leaves ⊆ among → e.Keeps m v.located) :
    {symbols : List Symbol} → (f : Forest Label symbols) → f.leaves ⊆ among → f.Kept e
  | _, .nil, _ => trivial
  | _, .cons first rest, hf =>
    ⟨first.kept_of_leaves h fun _ hx => hf (List.mem_append_left _ hx),
      rest.kept_of_leaves h fun _ hx => hf (List.mem_append_right _ hx)⟩

end

/-- What may come in place of a part. -/
abbrev Substitution := (n : Nonterminal) → Of Label n → Option (Of Label n) → Prop

/-- The tokens, between those others, are what there is once something is substituted for a part
with the property. -/
def Substituted (P : PartProp) (R : Substitution) (front xs back : List (Sigma Label)) : Prop :=
  ∃ n f u b u', P n f u b ∧ R n u u' ∧ front ⊆ f ∧ back ⊆ b ∧
    front ++ (xs ++ back) = f ++ (leavesOf u' ++ b)

/-- The edit leads from a part with the property to what is substituted for it, and changes nothing
in the tokens before the part or after it. -/
structure Makes (e : Edit) (P : PartProp) (R : Substitution) : Prop where
  targets : P.OfTargets
  becomes : ∀ n f u b, P n f u b → ∃ u', R n u u' ∧ e.Becomes (.part n) u.located u'
  keeps : ∀ n f u b, P n f u b → ∀ m (v : Of Label m), v.leaves ⊆ f ++ b → e.Keeps m v.located

mutual

/-- Once something is substituted for a part, the edit leads from the whole to the whole. -/
theorem Tree.Has.exists_substituted {P : PartProp} {R : Substitution} (he : Makes e P R) :
    {s : Symbol} → {t : Tree Label s} → {front back : List (Sigma Label)} → t.Has P front back →
      ∃ t' : Option (Tree Label s), Substituted P R front (leavesOf t') back ∧
        e.Becomes s t.located t'
  | .token _, .leaf _, _, _, h => False.elim h
  | .part n, .node p children, front, back, h => by
    rcases h with h | h
    · obtain ⟨u', hR, hbecomes⟩ := he.becomes _ _ _ _ h
      exact ⟨u', ⟨n, front, _, back, u', h, hR, List.Subset.refl _, List.Subset.refl _, rfl⟩,
        hbecomes⟩
    · obtain ⟨parts, hparts, hbecomes⟩ := h.exists_substituted he
      -- attributes and keywords have no such parts themselves, so the edit does not change this one
      have hkeep : e.Keeps n ⟨action p children.values, children.values.span⟩ := by
        by_cases htarget : n.isTarget = true
        · exact absurd h (children.not_has_of_isInner he.targets (all_isInner p (.inr htarget)))
        · cases n <;> trivial
      obtain ⟨t', hleaves, ht'⟩ := exists_assembled p children.values parts hbecomes hkeep
      exact ⟨t', by rwa [hleaves], ht'⟩

theorem Forest.Has.exists_substituted {P : PartProp} {R : Substitution} (he : Makes e P R) :
    {symbols : List Symbol} → {f : Forest Label symbols} → {front back : List (Sigma Label)} →
      f.Has P front back →
      ∃ parts : Partial symbols, Substituted P R front parts.leaves back ∧
        e.BecomesAll f.values parts
  | _, .nil, _, _, h => False.elim h
  | _, .cons first rest, front, back, h => by
    rcases h with h | h
    · obtain ⟨t', ⟨n, f, u, b, u', hu, hR, hfront, hback, heq⟩, hbecomes⟩ :=
        h.exists_substituted he
      have hrest : rest.Kept e := rest.kept_of_leaves (he.keeps n f u b hu) fun x hx =>
        List.mem_append_right _ (hback (List.mem_append_left _ hx))
      refine ⟨(t', rest.toPartial), ⟨n, f, u, b, u', hu, hR, hfront, ?_, ?_⟩, hbecomes,
        Forest.becomesAll_of_kept hrest⟩
      · exact fun x hx => hback (List.mem_append_right _ hx)
      · rw [← heq, Partial.leaves, rest.leaves_toPartial, List.append_assoc]
    · obtain ⟨parts, ⟨n, f, u, b, u', hu, hR, hfront, hback, heq⟩, hbecomes⟩ :=
        h.exists_substituted he
      have hfirst : first.Kept e := first.kept_of_leaves (he.keeps n f u b hu) fun x hx =>
        List.mem_append_left _ (hfront (List.mem_append_right _ hx))
      refine ⟨(some first, parts), ⟨n, f, u, b, u', hu, hR, ?_, hback, ?_⟩,
        first.edits_of_bare first hfirst rfl, hbecomes⟩
      · exact fun x hx => hfront (List.mem_append_left _ hx)
      · rw [← heq, Partial.leaves, leavesOf_some, List.append_assoc, List.append_assoc]

end

end Grammar

end RowSchema
