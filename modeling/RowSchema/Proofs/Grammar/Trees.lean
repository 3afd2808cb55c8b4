import RowSchema.Grammar

/-! # Derivations

What is true of derivations whatever the productions are: an induction over them, and the change
of what they say of each token. -/

namespace RowSchema.Grammar

variable {τ : Terminal → Type}

attribute [simp] Tree.leaves Forest.leaves

/-! ## Lists -/

/-- The tokens of the items read so far, and of the comma after them. -/
def Listed.leaves {list : Nonterminal} : Listed τ list → List (Sigma τ)
  | none => []
  | some (items, separator) => items.leaves ++ [⟨.comma, separator⟩]

@[simp] theorem Listed.leaves_add {list item : Nonterminal} (first : Production list [.part item])
    (more : Production list [.part list, .token .comma, .part item]) (done : Listed τ list)
    (x : Of τ item) : (done.add first more x).leaves = done.leaves ++ x.leaves := by
  cases done <;> simp [add, leaves]

/-- The tokens of a list that may not have begun. -/
def optionLeaves {list : Nonterminal} (done : Option (Of τ list)) : List (Sigma τ) :=
  done.elim [] Tree.leaves

@[simp] theorem optionLeaves_none {list : Nonterminal} :
    optionLeaves (none : Option (Of τ list)) = [] := rfl

@[simp] theorem optionLeaves_some {list : Nonterminal} (t : Of τ list) :
    optionLeaves (some t) = t.leaves := rfl

@[simp] theorem leaves_append {list item : Nonterminal} (first : Production list [.part item])
    (more : Production list [.part list, .part item]) (done : Option (Of τ list))
    (x : Of τ item) : (append first more done x).leaves = optionLeaves done ++ x.leaves := by
  cases done <;> simp [append]

/-! ## Induction -/

/-- Each of the derivations has the property. -/
def Forest.All (P : {s : Symbol} → Tree τ s → Prop) :
    {symbols : List Symbol} → Forest τ symbols → Prop
  | _, .nil => True
  | _, .cons first rest => P first ∧ rest.All P

mutual

/-- What every production passes on from the symbols to the part is true of every derivation. -/
theorem Tree.induct {P : {s : Symbol} → Tree τ s → Prop}
    (leaf : ∀ {k : Terminal} (x : τ k), P (Tree.leaf x))
    (node : ∀ {n : Nonterminal} {symbols : List Symbol} (p : Production n symbols)
      (children : Forest τ symbols), children.All P → P (Tree.node p children)) :
    {s : Symbol} → (t : Tree τ s) → P t
  | _, .leaf x => leaf x
  | _, .node p children => node p children (Forest.induct leaf node children)

theorem Forest.induct {P : {s : Symbol} → Tree τ s → Prop}
    (leaf : ∀ {k : Terminal} (x : τ k), P (Tree.leaf x))
    (node : ∀ {n : Nonterminal} {symbols : List Symbol} (p : Production n symbols)
      (children : Forest τ symbols), children.All P → P (Tree.node p children)) :
    {symbols : List Symbol} → (f : Forest τ symbols) → f.All P
  | _, .nil => trivial
  | _, .cons first rest => ⟨Tree.induct leaf node first, Forest.induct leaf node rest⟩

end

/-! ## Derivations of kinds -/

/-- A derivation from the kinds of tokens alone. -/
abbrev Shape (n : Nonterminal) := Of (fun _ => Unit) n

/-- The kinds of the tokens that are derived, in order. -/
def Tree.kinds {s : Symbol} (t : Tree τ s) : List Terminal := t.leaves.map Sigma.fst

def Forest.kinds {symbols : List Symbol} (f : Forest τ symbols) : List Terminal :=
  f.leaves.map Sigma.fst

mutual

/-- The derivation without what it says of each token. -/
def Tree.shape : {s : Symbol} → Tree τ s → Tree (fun _ => Unit) s
  | _, .leaf _ => .leaf ()
  | _, .node p children => .node p children.shape

def Forest.shape : {symbols : List Symbol} → Forest τ symbols → Forest (fun _ => Unit) symbols
  | _, .nil => .nil
  | _, .cons first rest => .cons first.shape rest.shape

end

mutual

theorem Tree.kinds_shape : {s : Symbol} → (t : Tree τ s) → t.shape.kinds = t.kinds
  | _, .leaf _ => rfl
  | _, .node _ children => Forest.kinds_shape children

theorem Forest.kinds_shape : {symbols : List Symbol} → (f : Forest τ symbols) →
    f.shape.kinds = f.kinds
  | _, .nil => rfl
  | _, .cons first rest => by
    have hfirst := first.kinds_shape
    have hrest := rest.kinds_shape
    simp only [Tree.kinds, Forest.kinds] at hfirst hrest ⊢
    simp only [Forest.shape, Forest.leaves, List.map_append, hfirst, hrest]

end

mutual

/-- A derivation of some kinds is a derivation of any tokens of these kinds. -/
theorem Tree.exists_shape : {s : Symbol} → (d : Tree (fun _ => Unit) s) → (xs : List (Sigma τ)) →
    d.kinds = xs.map Sigma.fst → ∃ t : Tree τ s, t.shape = d ∧ t.leaves = xs
  | _, .leaf (), xs, h => by
    obtain ⟨x, rfl⟩ : ∃ x, xs = [x] := by
      rw [← List.length_eq_one_iff, ← List.length_map (f := Sigma.fst), ← h]
      rfl
    obtain ⟨k, x⟩ := x
    cases h
    exact ⟨.leaf x, rfl, rfl⟩
  | _, .node p children, xs, h => by
    obtain ⟨f, hf, hleaves⟩ := Forest.exists_shape children xs h
    exact ⟨.node p f, by rw [Tree.shape, hf], hleaves⟩

theorem Forest.exists_shape : {symbols : List Symbol} → (d : Forest (fun _ => Unit) symbols) →
    (xs : List (Sigma τ)) → d.kinds = xs.map Sigma.fst →
      ∃ f : Forest τ symbols, f.shape = d ∧ f.leaves = xs
  | _, .nil, xs, h => by
    cases xs with
    | nil => exact ⟨.nil, rfl, rfl⟩
    | cons x rest => cases h
  | _, .cons first rest, xs, h => by
    -- the first derivation takes as many tokens as it has kinds
    have hsplit : first.kinds ++ rest.kinds = xs.map Sigma.fst := by
      rw [← h, Tree.kinds, Forest.kinds, Forest.kinds, Forest.leaves, List.map_append]
    obtain ⟨ys, zs, rfl, hys, hzs⟩ := List.map_eq_append_iff.mp hsplit.symm
    obtain ⟨t, ht, hfirst⟩ := Tree.exists_shape first ys hys.symm
    obtain ⟨f, hf, hrest⟩ := Forest.exists_shape rest zs hzs.symm
    exact ⟨.cons t f, by rw [Forest.shape, ht, hf], by rw [Forest.leaves, hfirst, hrest]⟩

end

end RowSchema.Grammar
