import RowSchema.Proofs.Grammar.Trees

/-! # Readers

A reader takes one token at a time. What it has read so far is its state, and a state may hold a
complete derivation. -/

namespace RowSchema.Reader

open Grammar

variable {α β γ : Type}

/-- The reader takes those tokens, one after another, from the first state to the second. -/
def Reads (feed : α → γ → Option α) (r : α) (xs : List γ) (r' : α) : Prop :=
  List.foldlM feed r xs = some r'

namespace Reads

variable {feed : α → γ → Option α} {outer : β → γ → Option β} {r r' r'' : α} {x : γ}
  {xs ys : List γ}

theorem nil : Reads feed r [] r := rfl

theorem one (h : feed r x = some r') : Reads feed r [x] r' := by
  simp only [Reads, List.foldlM_cons, h, List.foldlM_nil]
  rfl

theorem append (h : Reads feed r xs r') (h' : Reads feed r' ys r'') :
    Reads feed r (xs ++ ys) r'' := by
  unfold Reads at h h' ⊢
  rw [List.foldlM_append, h]
  exact h'

theorem snoc (h : Reads feed r xs r') (h' : feed r' x = some r'') :
    Reads feed r (xs ++ [x]) r'' :=
  h.append (one h')

theorem cons (h : feed r x = some r') (h' : Reads feed r' xs r'') :
    Reads feed r (x :: xs) r'' :=
  (one h).append h'

/-- A reader whose states go along with those of the reader inside it. -/
theorem simulate {R : α → β → Prop} (hstep : ∀ r p x r', R r p → feed r x = some r' →
    ∃ p', outer p x = some p' ∧ R r' p') {p : β} (hR : R r p) (h : Reads feed r xs r') :
    ∃ p', Reads outer p xs p' ∧ R r' p' := by
  induction xs generalizing r p with
  | nil =>
    obtain rfl : r = r' := by simpa [Reads] using h
    exact ⟨p, nil, hR⟩
  | cons x xs ih =>
    unfold Reads at h
    rw [List.foldlM_cons] at h
    obtain ⟨next, hnext, hrest⟩ := Option.bind_eq_some_iff.mp h
    obtain ⟨q, hq, hRq⟩ := hstep _ _ _ _ hR hnext
    obtain ⟨p', hp', hRp'⟩ := ih hRq hrest
    exact ⟨p', cons hq hp', hRp'⟩

/-- A reader that hands every token on to the reader inside it. -/
theorem lift {wrap : α → β} (hwrap : ∀ r x r', feed r x = some r' →
    outer (wrap r) x = some (wrap r')) (h : Reads feed r xs r') :
    Reads outer (wrap r) xs (wrap r') := by
  obtain ⟨p, hread, rfl⟩ := h.simulate (R := fun r p => p = wrap r)
    (fun r p x r' hR hfeed => ⟨wrap r', hR ▸ hwrap r x r' hfeed, rfl⟩) rfl
  exact hread

theorem unique (h : Reads feed r xs r') (h' : Reads feed r xs r'') : r' = r'' :=
  Option.some.inj (h.symm.trans h')

/-- What the reader has read, if one token adds itself. -/
theorem leaves_eq {leaves : α → List γ}
    (hfeed : ∀ r x r', feed r x = some r' → leaves r' = leaves r ++ [x])
    (h : Reads feed r xs r') : leaves r' = leaves r ++ xs := by
  induction xs generalizing r with
  | nil =>
    obtain rfl : r = r' := by simpa [Reads] using h
    rw [List.append_nil]
  | cons x xs ih =>
    unfold Reads at h
    rw [List.foldlM_cons] at h
    obtain ⟨next, hnext, hrest⟩ := Option.bind_eq_some_iff.mp h
    rw [ih hrest, hfeed _ _ _ hnext, List.append_assoc, List.singleton_append]

end Reads

variable {τ : Terminal → Type} {n : Nonterminal}

/-- From the state `r`, the tokens of the derivation lead to a state that holds it. -/
def Finds (feed : α → Sigma τ → Option α) (tree? : α → Option (Of τ n)) (r : α) (t : Of τ n) :
    Prop :=
  ∃ r', Reads feed r t.leaves r' ∧ tree? r' = some t

/-- Whether a member of a record ends where such a token follows. -/
def endsMember : Terminal → Bool
  | .closeBrace | .semicolon | .atSign | .keyword _ => true
  | _ => false

/-- Whether a binding or a case ends where such a token follows. -/
def endsItem : Terminal → Bool
  | .comma => true
  | k => endsMember k

theorem endsItem_of_endsMember {k : Terminal} (h : endsMember k = true) : endsItem k = true := by
  cases k <;> first | rfl | cases h

end RowSchema.Reader
