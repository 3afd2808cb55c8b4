import RowSchema.Proofs.Reader.Reads

/-! # Lists

A reader that begins each item of a list anew, and keeps the items before it, reads every list
whose items it reads. -/

namespace RowSchema.Reader

open Grammar

variable {τ : Terminal → Type} {α β : Type} {list item : Nonterminal}

/-- With commas between the items: `state` holds the items before the one that is being read. -/
theorem reads_listed {first : Production list [.part item]}
    {more : Production list [.part list, .token .comma, .part item]}
    (feed : α → Sigma τ → Option α) (state : Listed τ list → β → α) (start : β)
    (item? : β → Option (Of τ item))
    (hlist : ∀ t : Of τ list, ∃ (done : Listed τ list) (x : Of τ item), done.add first more x = t)
    (hitem : ∀ (done : Listed τ list) (x : Of τ item), ∃ r : β,
      Reads feed (state done start) x.leaves (state done r) ∧ item? r = some x)
    (hcomma : ∀ (done : Listed τ list) (r : β) (x : Of τ item) (c : τ .comma),
      item? r = some x →
        feed (state done r) ⟨.comma, c⟩ = some (state (some (done.add first more x, c)) start))
    (t : Of τ list) :
    ∃ (done : Listed τ list) (r : β) (x : Of τ item),
      Reads feed (state none start) t.leaves (state done r) ∧ item? r = some x ∧
        done.add first more x = t := by
  induction hsize : sizeOf t using Nat.strongRecOn generalizing t with
  | ind size ih =>
    obtain ⟨done, x, rfl⟩ := hlist t
    cases done with
    | none =>
      obtain ⟨r, hread, hx⟩ := hitem none x
      exact ⟨none, r, x, by simpa [Listed.add] using hread, hx, rfl⟩
    | some before =>
      obtain ⟨items, c⟩ := before
      have hsmaller : sizeOf items < size := by
        rw [← hsize]
        simp [Listed.add]
        omega
      obtain ⟨done, last, y, hbefore, hy, rfl⟩ := ih _ hsmaller items rfl
      obtain ⟨r, hread, hx⟩ := hitem (some (_, c)) x
      refine ⟨some (_, c), r, x, ?_, hx, rfl⟩
      have hall := (hbefore.snoc (hcomma done last y c hy)).append hread
      simpa [Listed.leaves] using hall

/-- Without commas: the first token of an item also ends the item before it. -/
theorem reads_append {first : Production list [.part item]}
    {more : Production list [.part list, .part item]}
    (feed : α → Sigma τ → Option α) (state : Option (Of τ list) → β → α) (start : α)
    (item? : β → Option (Of τ item))
    (hlist : ∀ t : Of τ list, ∃ (done : Option (Of τ list)) (x : Of τ item),
      append first more done x = t)
    (hfirst : ∀ x : Of τ item, ∃ r : β,
      Reads feed start x.leaves (state none r) ∧ item? r = some x)
    (hmore : ∀ (done : Option (Of τ list)) (last : β) (y x : Of τ item), item? last = some y →
      ∃ r : β, Reads feed (state done last) x.leaves (state (some (append first more done y)) r) ∧
        item? r = some x)
    (t : Of τ list) :
    ∃ (done : Option (Of τ list)) (r : β) (x : Of τ item),
      Reads feed start t.leaves (state done r) ∧ item? r = some x ∧
        append first more done x = t := by
  induction hsize : sizeOf t using Nat.strongRecOn generalizing t with
  | ind size ih =>
    obtain ⟨done, x, rfl⟩ := hlist t
    cases done with
    | none =>
      obtain ⟨r, hread, hx⟩ := hfirst x
      exact ⟨none, r, x, by simpa [append] using hread, hx, rfl⟩
    | some items =>
      have hsmaller : sizeOf items < size := by
        rw [← hsize]
        simp [append]
        omega
      obtain ⟨done, last, y, hbefore, hy, rfl⟩ := ih _ hsmaller items rfl
      obtain ⟨r, hread, hx⟩ := hmore done last y x hy
      exact ⟨some _, r, x, by simpa using hbefore.append hread, hx, rfl⟩

end RowSchema.Reader
