import Mathlib.Algebra.GroupWithZero.Nat
import RowSchema.Proofs.Decode.Fields
import RowSchema.Proofs.Decode.Match

/-! # The entries of a row

All entries of a record contribute, each from its own cells, and the first one that fails decides.
Here a record is decoded from the outcomes that its entries have on their own, by their numbers. -/

namespace RowSchema

/-! ## Whole cells -/

/-- There is a value in each of the cells. -/
def Present (cells : List Cell) : Prop := ∀ cell ∈ cells, ∃ v, cell = .ok v

theorem Present.slice {cells : List Cell} (h : Present cells) (offset : Nat) (w : Int) :
    Present (slice cells offset w) :=
  fun cell hcell => h cell (List.mem_of_mem_drop (List.mem_of_mem_take hcell))

/-- As many cells as that, and a value in each of them. -/
structure Fills (cells : List Cell) (width : Int) : Prop where
  length_eq : (cells.length : Int) = width
  present : Present cells

namespace Fills

variable {cells : List Cell} {width w : Int} {offset : Nat}

theorem of_values {values : List Value} (h : (values.length : Int) = width) :
    Fills (values.map .ok) width := by
  refine ⟨?_, ?_⟩
  · rwa [List.length_map]
  · intro cell hcell
    obtain ⟨v, -, rfl⟩ := List.mem_map.mp hcell
    exact ⟨v, rfl⟩

theorem sliced (h : Fills cells width) (hw : 0 ≤ w) (hend : offset + w ≤ width) :
    Fills (slice cells offset w) w := by
  have hlength := h.length_eq
  refine ⟨?_, h.present.slice offset w⟩
  rw [slice, List.length_take, List.length_drop]
  omega

theorem eq_singleton (h : Fills cells 1) : ∃ v, cells = [.ok v] := by
  have hlength := h.length_eq
  match cells, hlength with
  | [cell], _ =>
    obtain ⟨v, rfl⟩ := h.present cell List.mem_cons_self
    exact ⟨v, rfl⟩

end Fills

/-- A conversion that reports no missing columns is all that can fail in a cell that is there. -/
theorem Column.valueOf_not_missing {converters : Converters} (hc : converters.NeverMissing)
    {column : Column} {cells : List Cell} (hcells : Present cells)
    {error : DecodeError} (h : column.valueOf converters cells = .error error) :
    error.isMissing = false := by
  unfold Column.valueOf at h
  split at h
  · obtain ⟨v, rfl⟩ := hcells _ List.mem_cons_self
    exact hc error (convert_raise h)
  · cases h
    rfl

/-! ## Outcomes of entries -/

namespace Entry

variable {converters : Converters} {policy : DecodePolicy} {cells : List Cell} {e : Entry}
  {rest : List Entry} {offset : Nat}

/-- How many cells come before those of entry number `i`. -/
def start (entries : List Entry) (i : Nat) : Nat :=
  ((entries.take i).map (·.width.toNat)).sum

@[simp] theorem start_zero (entries : List Entry) : start entries 0 = 0 := by
  simp [start]

@[simp] theorem start_cons_succ (e : Entry) (rest : List Entry) (i : Nat) :
    start (e :: rest) (i + 1) = e.width.toNat + start rest i := by
  simp [start]

/-- Every entry ends before the row does. -/
theorem start_add_width_le {entries : List Entry} (hs : AllSized entries) {i : Nat}
    (he : entries[i]? = some e) : (start entries i : Int) + e.width ≤ totalWidth entries := by
  induction entries generalizing i with
  | nil => cases he
  | cons first rest ih =>
    rw [AllSized] at hs
    have hfirst := hs.1.width_nonneg
    have hrest := hs.2.width_nonneg
    rw [totalWidth]
    cases i with
    | zero =>
      cases he
      rw [start_zero]
      omega
    | succ i =>
      have := ih hs.2 he
      rw [start_cons_succ]
      omega

/-- What entry number `i` contributes from its own slice of the cells, those of the first entry
beginning at `offset`. -/
def outcomes (converters : Converters) (policy : DecodePolicy) (cells : List Cell) (offset : Nat)
    (entries : List Entry) (i : Nat) : Option (Except DecodeError Contribution) :=
  entries[i]?.map fun e =>
    e.contributionOf converters policy (slice cells (offset + start entries i) e.width)

/-- The first of all entries has its cells from the start. -/
theorem outcomes_eq_some {entries : List Entry} {i : Nat}
    {outcome : Except DecodeError Contribution} :
    outcomes converters policy cells 0 entries i = some outcome ↔
      ∃ e, entries[i]? = some e ∧
        e.contributionOf converters policy (slice cells (start entries i) e.width) = outcome := by
  rw [outcomes, Option.map_eq_some_iff, Nat.zero_add]

theorem outcomes_succ (i : Nat) :
    outcomes converters policy cells offset (e :: rest) (i + 1) =
      outcomes converters policy cells (offset + e.width.toNat) rest i := by
  simp only [outcomes, List.getElem?_cons_succ, start_cons_succ, Nat.add_assoc]

/-- There are contributions if every entry makes one. -/
theorem contributionsOf_eq_ok {entries : List Entry} : ∀ {offset : Nat}
    {contributions : List Contribution},
    contributionsOf converters policy cells offset entries = .ok contributions ↔
      ∀ i, outcomes converters policy cells offset entries i = contributions[i]?.map .ok := by
  induction entries with
  | nil =>
    intro offset contributions
    rw [contributionsOf]
    constructor
    · intro h
      cases h
      intro i
      rfl
    · intro h
      cases contributions with
      | nil => rfl
      | cons contribution more => cases h 0
  | cons e rest ih =>
    intro offset contributions
    rw [contributionsOf]
    constructor
    · intro h i
      obtain ⟨contribution, hone, h⟩ := bind_eq_ok.mp h
      obtain ⟨more, hmore, rfl⟩ := map_eq_ok.mp h
      cases i with
      | zero => exact congrArg some hone
      | succ i =>
        rw [outcomes_succ]
        exact ih.mp hmore i
    · intro h
      cases contributions with
      | nil => cases h 0
      | cons contribution more =>
        have hmore : contributionsOf converters policy cells (offset + e.width.toNat) rest =
            .ok more := by
          refine ih.mpr fun i => ?_
          rw [← outcomes_succ]
          exact h (i + 1)
        exact bind_eq_ok.mpr ⟨contribution, Option.some.inj (h 0), map_eq_ok.mpr ⟨more, hmore, rfl⟩⟩

/-- The first entry that fails decides. -/
theorem outcomes_of_contributionsOf_error {entries : List Entry} {error : DecodeError} :
    ∀ {offset : Nat}, contributionsOf converters policy cells offset entries = .error error →
    ∃ i, outcomes converters policy cells offset entries i = some (.error error) ∧
      ∀ j < i, ∃ contribution,
        outcomes converters policy cells offset entries j = some (.ok contribution) := by
  induction entries with
  | nil =>
    intro offset h
    rw [contributionsOf] at h
    cases h
  | cons e rest ih =>
    intro offset h
    rw [contributionsOf] at h
    cases hone : e.contributionOf converters policy (slice cells offset e.width) with
    | error error' =>
      rw [hone] at h
      cases h
      exact ⟨0, congrArg some hone, fun j hj => absurd hj (Nat.not_lt_zero j)⟩
    | ok contribution =>
      rw [hone] at h
      cases hmore : contributionsOf converters policy cells (offset + e.width.toNat) rest with
      | error error' =>
        simp only [hmore, Except.bind, Except.map] at h
        cases h
        obtain ⟨i, hi, hbefore⟩ := ih hmore
        refine ⟨i + 1, (outcomes_succ i).trans hi, ?_⟩
        intro j hj
        cases j with
        | zero => exact ⟨contribution, congrArg some hone⟩
        | succ j =>
          rw [outcomes_succ]
          exact hbefore j (by omega)
      | ok more =>
        simp only [hmore, Except.bind, Except.map] at h
        cases h

/-- No entry reports missing columns: it contributes them. -/
theorem contributionOf_not_missing (hc : converters.NeverMissing)
    (hcells : Present cells) {error : DecodeError}
    (h : e.contributionOf converters policy cells = .error error) : error.isMissing = false := by
  obtain ⟨column, members⟩ := e
  cases members with
  | none =>
    rw [contributionOf] at h
    cases hvalue : column.valueOf converters cells with
    | ok value =>
      rw [hvalue] at h
      exact Column.settle_not_missing h
    | error error' =>
      rw [hvalue] at h
      cases h
      exact Column.valueOf_not_missing hc hcells hvalue
  | some members =>
    rw [contributionOf] at h
    split at h
    · exact Column.settle_not_missing h
    · rename_i error' hne _
      cases h
      exact DecodeError.isMissing_eq_false hne
    · exact Column.settle_not_missing h

end Entry

/-- No case reports missing columns: it has no value then. -/
theorem CaseEntry.valueOf_not_missing {converters : Converters} {policy : DecodePolicy}
    (hc : converters.NeverMissing) {cells : List Cell}
    (hcells : Present cells) {k : CaseEntry} {error : DecodeError}
    (h : k.valueOf converters policy cells = .error error) : error.isMissing = false := by
  obtain ⟨name, label, payload⟩ := k
  match payload with
  | none =>
    rw [valueOf] at h
    cases h
  | some ⟨column, none⟩ =>
    rw [valueOf] at h
    cases hvalue : column.valueOf converters cells with
    | ok value =>
      rw [hvalue] at h
      cases h
    | error error' =>
      rw [hvalue] at h
      cases h
      exact Column.valueOf_not_missing hc hcells hvalue
  | some ⟨column, some members⟩ =>
    rw [valueOf] at h
    split at h
    · cases h
    · rename_i error' hne _
      cases h
      exact DecodeError.isMissing_eq_false hne
    · cases h

/-! ## Records -/

namespace Catalog

variable {converters : Converters} {policy : DecodePolicy} {cells : List Cell} {c : Catalog}

theorem valueOf_eq (c : Catalog) : c.valueOf converters policy cells =
    (Entry.contributionsOf converters policy cells 0 c.entries).bind
      (assemble c.maker policy c.typeName) := by
  cases c
  rw [valueOf]

/-- A record is made of what its entries contribute from their own cells. -/
theorem valueOf_madeOf : c.MadeOf policy (Entry.outcomes converters policy cells 0 c.entries)
    (c.valueOf converters policy cells) where
  defined _ := Option.isSome_map
  contributes i e contribution he h := by
    obtain ⟨e', he', hone⟩ := Entry.outcomes_eq_some.mp h
    cases he.symm.trans he'
    exact Entry.contributionOf_of hone
  eq_ok v := by
    rw [valueOf_eq]
    refine bind_eq_ok.trans ?_
    simp only [Entry.contributionsOf_eq_ok]

end Catalog

end RowSchema
