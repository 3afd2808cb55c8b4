import RowSchema.Proofs.Grammar.Edited

/-! # Derivations without spans

The tokens of a derivation may be put elsewhere, as long as they say the same: what is declared
differs in spans only. An edit that changes none of the parts of a derivation changes nothing. -/

namespace RowSchema.Grammar

/-- What the tokens say. -/
def contents (xs : List (Sigma Label)) : List (Sigma Terminal.Content) :=
  xs.map fun x => ⟨x.1, x.2.value⟩

@[simp] theorem contents_nil : contents [] = [] := rfl

@[simp] theorem contents_append (xs ys : List (Sigma Label)) :
    contents (xs ++ ys) = contents xs ++ contents ys := List.map_append

mutual

/-- The derivation without the spans of its tokens. -/
def Tree.bare : {s : Symbol} → Tree Label s → Tree Terminal.Content s
  | _, .leaf x => .leaf x.value
  | _, .node p children => .node p children.bare

def Forest.bare : {symbols : List Symbol} → Forest Label symbols → Forest Terminal.Content symbols
  | _, .nil => .nil
  | _, .cons first rest => .cons first.bare rest.bare

end

mutual

theorem Tree.leaves_bare : {s : Symbol} → (t : Tree Label s) → t.bare.leaves = contents t.leaves
  | _, .leaf _ => rfl
  | _, .node _ children => children.leaves_bare

theorem Forest.leaves_bare : {symbols : List Symbol} → (f : Forest Label symbols) →
    f.bare.leaves = contents f.leaves
  | _, .nil => rfl
  | _, .cons first rest => by
    rw [Forest.bare, Forest.leaves, Forest.leaves, contents_append, first.leaves_bare,
      rest.leaves_bare]

end

mutual

/-- A derivation of what some tokens say is one of these tokens. -/
theorem Tree.exists_bare : {s : Symbol} → (d : Tree Terminal.Content s) →
    (xs : List (Sigma Label)) → d.leaves = contents xs →
      ∃ t : Tree Label s, t.bare = d ∧ t.leaves = xs
  | _, .leaf c, xs, h => by
    obtain ⟨x, rfl⟩ : ∃ x, xs = [x] := by
      rw [← List.length_eq_one_iff, ← List.length_map, ← contents, ← h]
      rfl
    obtain ⟨k, c', span⟩ := x
    cases h
    exact ⟨.leaf ⟨c', span⟩, rfl, rfl⟩
  | _, .node p children, xs, h => by
    obtain ⟨f, hf, hleaves⟩ := Forest.exists_bare children xs h
    exact ⟨.node p f, by rw [Tree.bare, hf], hleaves⟩

theorem Forest.exists_bare : {symbols : List Symbol} → (d : Forest Terminal.Content symbols) →
    (xs : List (Sigma Label)) → d.leaves = contents xs →
      ∃ f : Forest Label symbols, f.bare = d ∧ f.leaves = xs
  | _, .nil, xs, h => by
    cases xs with
    | nil => exact ⟨.nil, rfl, rfl⟩
    | cons x rest => cases h
  | _, .cons first rest, xs, h => by
    obtain ⟨ys, zs, rfl, hys, hzs⟩ := List.map_eq_append_iff.mp h.symm
    obtain ⟨t, ht, hfirst⟩ := Tree.exists_bare first ys hys.symm
    obtain ⟨f, hf, hrest⟩ := Forest.exists_bare rest zs hzs.symm
    exact ⟨.cons t f, by rw [Forest.bare, ht, hf], by rw [Forest.leaves, hfirst, hrest]⟩

end

/-! ## Edits that change nothing -/

mutual

/-- The edit leaves every attribute and every keyword of a field in the derivation as it is. -/
def Tree.Kept (e : Edit) : {s : Symbol} → Tree Label s → Prop
  | _, .leaf _ => True
  | .part n, .node p children => e.Keeps n (Tree.node p children).located ∧ children.Kept e

def Forest.Kept (e : Edit) : {symbols : List Symbol} → Forest Label symbols → Prop
  | _, .nil => True
  | _, .cons first rest => first.Kept e ∧ rest.Kept e

end

mutual

/-- Derivations that say the same declare the same but for spans. -/
theorem Tree.edits_of_bare {e : Edit} : {s : Symbol} → (t t' : Tree Label s) → t.Kept e →
    t'.bare = t.bare → e.Edits s t.located t'.located
  | _, .leaf x, .leaf y, _, h => by
    have hvalue : y.value = x.value := Tree.leaf.inj h
    exact hvalue
  | _, .node p children, .node p' children', hkept, h => by
    rw [Tree.bare, Tree.bare] at h
    obtain ⟨rfl, hp, hchildren⟩ := Tree.node.inj h
    obtain rfl := eq_of_heq hp
    exact edits_action p' children.values children'.values
      (children.edits_of_bare children' hkept.2 (eq_of_heq hchildren)) hkept.1

theorem Forest.edits_of_bare {e : Edit} : {symbols : List Symbol} →
    (f f' : Forest Label symbols) → f.Kept e → f'.bare = f.bare → e.EditsAll f.values f'.values
  | _, .nil, .nil, _, _ => trivial
  | _, .cons first rest, .cons first' rest', hkept, h => by
    rw [Forest.bare, Forest.bare] at h
    obtain ⟨hfirst, hrest⟩ := Forest.cons.inj h
    exact ⟨first.edits_of_bare first' hkept.1 hfirst, rest.edits_of_bare rest' hkept.2 hrest⟩

end

mutual

theorem Tree.kept_empty : {s : Symbol} → (t : Tree Label s) → t.Kept {}
  | _, .leaf _ => trivial
  | .part n, .node p children => by
    refine ⟨?_, children.kept_empty⟩
    cases n <;> first | rfl | trivial

theorem Forest.kept_empty : {symbols : List Symbol} → (f : Forest Label symbols) → f.Kept {}
  | _, .nil => trivial
  | _, .cons first rest => ⟨first.kept_empty, rest.kept_empty⟩

end

end RowSchema.Grammar
