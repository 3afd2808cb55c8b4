import RowSchema.Proofs.Basic
import RowSchema.Proofs.Decode.Policy
import RowSchema.Proofs.Decode.Slices

/-! # The case of a row

An enum decodes to its first case that has a value. All cases are decoded, with one cursor for them
all; here each one is given its own cells only, and the case of the row is found among the outcomes
of these decodes. -/

namespace RowSchema

/-- The cursor with no more than `n` cells left. -/
def Cursor.only (c : Cursor) (n : Nat) : Cursor := ⟨c.position, c.rest.take n⟩

@[simp] theorem Cursor.cells_only (c : Cursor) (n : Nat) : (c.only n).cells = c.cells.take n := by
  apply List.ext_getElem?
  intro i
  simp only [cells, only, List.getElem?_mapIdx, List.getElem?_take]
  split <;> rfl

namespace CaseEntry

/-- How many cells come before those of case number `i`. -/
def start : List CaseEntry → Nat → Nat
  | [], _ => 0
  | _, 0 => 0
  | k :: rest, i + 1 => k.width.toNat + start rest i

@[simp] theorem start_zero (cases : List CaseEntry) : start cases 0 = 0 := by
  cases cases <;> rfl

@[simp] theorem start_cons_succ (k : CaseEntry) (rest : List CaseEntry) (i : Nat) :
    start (k :: rest) (i + 1) = k.width.toNat + start rest i := rfl

theorem start_succ {cases : List CaseEntry} {i : Nat} {k : CaseEntry} (h : cases[i]? = some k) :
    start cases (i + 1) = start cases i + k.width.toNat := by
  induction cases generalizing i with
  | nil => cases h
  | cons k' rest ih =>
    cases i with
    | zero =>
      cases h
      simp
    | succ i =>
      rw [start_cons_succ, start_cons_succ, ih h, Nat.add_assoc]

theorem start_mono (cases : List CaseEntry) {i j : Nat} (h : i ≤ j) :
    start cases i ≤ start cases j := by
  induction cases generalizing i j with
  | nil => simp [start]
  | cons k rest ih =>
    cases i with
    | zero => simp
    | succ i =>
      cases j with
      | zero => omega
      | succ j =>
        have := @ih i j (by omega)
        simp only [start_cons_succ]
        omega

theorem start_length {cases : List CaseEntry} (h : AllSized cases) :
    (start cases cases.length : Int) = totalWidth cases := by
  induction cases with
  | nil => rfl
  | cons k rest ih =>
    rw [AllSized] at h
    have hk := h.1.width_nonneg
    have hrest := ih h.2
    rw [List.length_cons, start_cons_succ, totalWidth]
    omega

end CaseEntry

/-! ## Outcomes of cases -/

/-- The outcomes that cases have on their own, by their numbers. -/
abbrev Outcomes := Nat → Option (Except DecodeError (Option Value))

/-- Case number `i` has the value `v`, and no case before it has one. -/
structure FirstMatch (outcomes : Outcomes) (i : Nat) (v : Value) : Prop where
  present : outcomes i = some (.ok (some v))
  before : ∀ j < i, outcomes j = some (.ok none)

namespace FirstMatch

variable {outcomes outcomes' : Outcomes} {i i' : Nat} {v v' : Value}

theorem unique (h : FirstMatch outcomes i v) (h' : FirstMatch outcomes i' v') :
    i = i' ∧ v = v' := by
  rcases Nat.lt_trichotomy i i' with hlt | rfl | hlt
  · have := h'.before i hlt
    rw [h.present] at this
    cases this
  · have := h.present.symm.trans h'.present
    cases this
    exact ⟨rfl, rfl⟩
  · have := h.before i' hlt
    rw [h'.present] at this
    cases this

/-- What comes after the match does not matter. -/
theorem of_agree (h : FirstMatch outcomes i v) (hagree : ∀ j ≤ i, outcomes' j = outcomes j) :
    FirstMatch outcomes' i v where
  present := (hagree i (Nat.le_refl i)).trans h.present
  before := fun j hj => (hagree j (Nat.le_of_lt hj)).trans (h.before j hj)

/-- A case that has a value is the match if none before it has one. -/
theorem eq_of_present (h : FirstMatch outcomes i v) (hpresent : outcomes i' = some (.ok (some v')))
    (hbefore : ∀ j < i', ∀ w, outcomes j ≠ some (.ok (some w))) : i = i' := by
  rcases Nat.lt_trichotomy i i' with hlt | rfl | hlt
  · exact absurd h.present (hbefore i hlt v)
  · rfl
  · cases hpresent.symm.trans (h.before i' hlt)

theorem succ (hzero : outcomes 0 = some (.ok none))
    (h : FirstMatch (fun j => outcomes (j + 1)) i v) : FirstMatch outcomes (i + 1) v where
  present := h.present
  before := by
    intro j hj
    cases j with
    | zero => exact hzero
    | succ j => exact h.before j (by omega)

end FirstMatch

namespace CaseEntry

variable {converters : Converters} {policy : DecodePolicy} {cells : List Cell}

/-- What case number `i` has in its own slice of the cells, those of the first case beginning at
`offset`. -/
def outcomes (converters : Converters) (policy : DecodePolicy) (cells : List Cell) (offset : Nat)
    (cases : List CaseEntry) : Outcomes := fun i =>
  cases[i]?.map fun k => k.valueOf converters policy (slice cells (offset + start cases i) k.width)

theorem outcomes_succ {offset : Nat} {k : CaseEntry} {rest : List CaseEntry} (i : Nat) :
    outcomes converters policy cells offset (k :: rest) (i + 1) =
      outcomes converters policy cells (offset + k.width.toNat) rest i := by
  simp only [outcomes, List.getElem?_cons_succ, start_cons_succ, Nat.add_assoc]

/-- The first of all cases has its cells from the start. -/
theorem outcomes_eq_some {cases : List CaseEntry} {i : Nat}
    {outcome : Except DecodeError (Option Value)} :
    outcomes converters policy cells 0 cases i = some outcome ↔
      ∃ k, cases[i]? = some k ∧
        k.valueOf converters policy (slice cells (start cases i) k.width) = outcome := by
  rw [outcomes, Option.map_eq_some_iff, Nat.zero_add]

/-- The cases that have values begin with the first match. -/
theorem head?_valuesOf {cases : List CaseEntry} : ∀ {offset : Nat} {matched : List (String × Value)},
    valuesOf converters policy cells offset cases = .ok matched →
    match matched.head? with
    | some (name, v) => ∃ i k, cases[i]? = some k ∧ k.name = name ∧
        FirstMatch (outcomes converters policy cells offset cases) i v
    | none => ∀ i < cases.length,
        outcomes converters policy cells offset cases i = some (.ok none) := by
  induction cases with
  | nil =>
    intro offset matched h
    rw [valuesOf] at h
    cases h
    intro i hi
    cases hi
  | cons k rest ih =>
    intro offset matched h
    rw [valuesOf] at h
    obtain ⟨outcome, hfirst, h⟩ := bind_eq_ok.mp h
    obtain ⟨more, hmore, rfl⟩ := map_eq_ok.mp h
    cases outcome with
    | some v => exact ⟨0, k, rfl, rfl, congrArg some hfirst, fun j hj => absurd hj (Nat.not_lt_zero j)⟩
    | none =>
      have hzero := congrArg some hfirst
      have hrest := ih hmore
      simp only [Option.map_none, Option.toList_none, List.nil_append]
      split at hrest
      · obtain ⟨i, k', hk', hname, hmatch⟩ := hrest
        refine ⟨i + 1, k', hk', hname, ?_⟩
        refine FirstMatch.succ hzero ?_
        simpa only [outcomes_succ] using hmatch
      · intro i hi
        cases i with
        | zero => exact hzero
        | succ i =>
          rw [outcomes_succ]
          exact hrest i (by simpa using hi)

/-- All cases are decoded, also those after the match. -/
theorem outcomes_of_valuesOf {cases : List CaseEntry} : ∀ {offset : Nat}
    {matched : List (String × Value)},
    valuesOf converters policy cells offset cases = .ok matched →
    ∀ i < cases.length, ∃ outcome,
      outcomes converters policy cells offset cases i = some (.ok outcome) := by
  induction cases with
  | nil =>
    intro offset matched _ i hi
    cases hi
  | cons k rest ih =>
    intro offset matched h i hi
    rw [valuesOf] at h
    obtain ⟨outcome, hfirst, h⟩ := bind_eq_ok.mp h
    obtain ⟨more, hmore, -⟩ := map_eq_ok.mp h
    cases i with
    | zero => exact ⟨outcome, congrArg some hfirst⟩
    | succ i =>
      rw [outcomes_succ]
      exact ih hmore i (by simpa using hi)

/-- An error of all cases together is that of one of them. -/
theorem outcomes_of_valuesOf_error {cases : List CaseEntry} {error : DecodeError} :
    ∀ {offset : Nat}, valuesOf converters policy cells offset cases = .error error →
    ∃ i, outcomes converters policy cells offset cases i = some (.error error) := by
  induction cases with
  | nil =>
    intro offset h
    rw [valuesOf] at h
    cases h
  | cons k rest ih =>
    intro offset h
    rw [valuesOf] at h
    cases hfirst : k.valueOf converters policy (slice cells offset k.width) with
    | error e =>
      rw [hfirst] at h
      cases h
      exact ⟨0, congrArg some hfirst⟩
    | ok outcome =>
      rw [hfirst] at h
      cases hmore : valuesOf converters policy cells (offset + k.width.toNat) rest with
      | error e =>
        simp only [hmore, Except.bind, Except.map] at h
        cases h
        obtain ⟨i, hi⟩ := ih hmore
        exact ⟨i + 1, (outcomes_succ i).trans hi⟩
      | ok more =>
        simp only [hmore, Except.bind, Except.map] at h
        cases h

end CaseEntry

/-! ## Enums -/

namespace EnumCatalog

/-- The value of the enum for a case with its payload. -/
def make (c : EnumCatalog) (name : String) (payload : Value) : Value :=
  match c.maker with
  | some maker => maker.enum name payload
  | none => .variant name payload

/-- The cases of the catalog have different names. -/
def Distinct (c : EnumCatalog) : Prop := (c.cases.map (·.name)).Nodup

theorem Distinct.eq_of_name {c : EnumCatalog} (h : c.Distinct) {i j : Nat} {k k' : CaseEntry}
    (hk : c.cases[i]? = some k) (hk' : c.cases[j]? = some k') (hname : k.name = k'.name) :
    i = j := by
  have hlt : i < (c.cases.map (·.name)).length := by
    rw [List.length_map]
    exact (List.getElem?_eq_some_iff.mp hk).1
  refine (List.getElem?_inj hlt h).mp ?_
  rw [List.getElem?_map, List.getElem?_map, hk, hk', Option.map_some, Option.map_some, hname]

theorem Distinct.name_beq {c : EnumCatalog} (h : c.Distinct) {i j : Nat} {k k' : CaseEntry}
    (hk : c.cases[i]? = some k) (hk' : c.cases[j]? = some k') :
    (k.name == k'.name) = decide (i = j) := by
  by_cases hij : i = j
  · subst hij
    rw [hk] at hk'
    cases hk'
    simp
  · have hne : k.name ≠ k'.name := fun hname => hij (h.eq_of_name hk hk' hname)
    simp [hij, hne]

/-- The row decodes to case number `i` with the payload `v`. What an enum with a maker makes of
these is its own affair. -/
def Decodes (c : EnumCatalog) (converters : Converters) (policy : DecodePolicy)
    (row : List (Option Value)) (i : Nat) (v : Value) : Prop :=
  ∃ k, c.cases[i]? = some k ∧
    (Group.enum { c with maker := none }).decodeRow converters policy row =
      .ok (.variant k.name v)

/-- What each case has when its own cells of the row are decoded alone. -/
def alone (c : EnumCatalog) (converters : Converters) (policy : DecodePolicy)
    (row : List (Option Value)) : Outcomes := fun i =>
  c.cases[i]?.map fun k => (k.decode converters policy
    (((Cursor.ofRow row).skip (CaseEntry.start c.cases i)).only k.width.toNat)).1

variable {c : EnumCatalog} {converters : Converters} {policy : DecodePolicy}
  {row row' : List (Option Value)} {i : Nat} {v : Value}

/-- The cells of a row end with those of the last case. -/
theorem Sized.start_length (hs : c.Sized) :
    (CaseEntry.start c.cases c.cases.length : Int) = c.width := by
  obtain ⟨typeName, cases, table, schema, maker⟩ := c
  exact CaseEntry.start_length hs

/-- Cells that are decoded alone are decoded as a slice. -/
theorem alone_eq_outcomes (hc : converters.NeverMissing) (hs : c.Sized)
    (hrow : (row.length : Int) = c.width) :
    c.alone converters policy row =
      CaseEntry.outcomes converters policy (Cursor.ofRow row).cells 0 c.cases := by
  funext i
  unfold alone CaseEntry.outcomes
  cases hk : c.cases[i]? with
  | none => rfl
  | some k =>
    have hsized := sized_iff.mp hs k (List.mem_of_getElem? hk)
    have hwidth := hsized.width_nonneg
    have hend : CaseEntry.start c.cases i + k.width.toNat ≤ row.length := by
      have hlast := CaseEntry.start_mono c.cases (List.getElem?_eq_some_iff.mp hk).1
      have htotal := hs.start_length
      rw [CaseEntry.start_succ hk] at hlast
      omega
    have hroom : k.width ≤ (((Cursor.ofRow row).skip (CaseEntry.start c.cases i)).only
        k.width.toNat).remaining := by
      simp only [Cursor.remaining, Cursor.only, Cursor.skip, Cursor.ofRow, List.length_take,
        List.length_drop]
      omega
    simp only [Option.map_some]
    rw [CaseEntry.decode_eq_valueOf hc k _ hsized hroom, Cursor.cells_only, Cursor.cells_skip,
      List.take_take, Nat.min_self, Nat.zero_add]
    rfl

theorem lt_of_alone {outcome : Except DecodeError (Option Value)}
    (h : c.alone converters policy row i = some outcome) : i < c.cases.length := by
  obtain ⟨k, hk, -⟩ := Option.map_eq_some_iff.mp h
  exact (List.getElem?_eq_some_iff.mp hk).1

theorem alone_agree (hagree : row'.take (CaseEntry.start c.cases (i + 1)) =
    row.take (CaseEntry.start c.cases (i + 1))) {j : Nat} (hj : j ≤ i) :
    c.alone converters policy row' j = c.alone converters policy row j := by
  unfold alone
  cases hk : c.cases[j]? with
  | none => rfl
  | some k =>
    have hend : CaseEntry.start c.cases j + k.width.toNat ≤ CaseEntry.start c.cases (i + 1) := by
      rw [← CaseEntry.start_succ hk]
      exact CaseEntry.start_mono c.cases (by omega)
    have hslice (cells : List (Option Value)) :
        (cells.drop (CaseEntry.start c.cases j)).take k.width.toNat =
          ((cells.take (CaseEntry.start c.cases (i + 1))).drop
            (CaseEntry.start c.cases j)).take k.width.toNat := by
      rw [List.drop_take, List.take_take, Nat.min_eq_left (by omega)]
    simp only [Option.map_some, Cursor.skip, Cursor.only, Cursor.ofRow]
    rw [hslice row', hslice row, hagree]

theorem valueOf_eq (c : EnumCatalog) (cells : List Cell) :
    c.valueOf converters policy cells =
      (CaseEntry.valuesOf converters policy cells 0 c.cases).bind
        fun matched => c.finish policy matched.head? := by
  cases c
  rw [valueOf]

/-- A row is decoded case by case. -/
theorem decodeRow_eq_finish (hc : converters.NeverMissing) (hs : c.Sized)
    (hrow : (row.length : Int) = c.width) :
    (Group.enum c).decodeRow converters policy row =
      (CaseEntry.valuesOf converters policy (Cursor.ofRow row).cells 0 c.cases).bind
        fun matched => c.finish policy matched.head? := by
  have hsized : (Group.enum c).Sized := by rwa [Group.Sized]
  rw [hsized.decodeRow_eq hc hrow, Group.valueOf, valueOf_eq]

@[simp] theorem finish_some (name : String) (payload : Value) :
    c.finish policy (some (name, payload)) = .ok (c.make name payload) := rfl

@[simp] theorem finish_none : c.finish policy none =
    .error (.missing (policy.reported (c.leaves.map (·.name))) (some c.typeName)) := rfl

/-- All that a row can come to: the first case that has a value, if all have an outcome; missing
columns, if none has a value; or the error of one of them. -/
theorem decodeRow_cases (hc : converters.NeverMissing) (hs : c.Sized)
    (hrow : (row.length : Int) = c.width) :
    (∃ i k v, c.cases[i]? = some k ∧ FirstMatch (c.alone converters policy row) i v ∧
        (∀ j < c.cases.length, ∃ outcome,
          c.alone converters policy row j = some (.ok outcome)) ∧
        (Group.enum c).decodeRow converters policy row = .ok (c.make k.name v)) ∨
      ((∀ j < c.cases.length, c.alone converters policy row j = some (.ok none)) ∧
        (Group.enum c).decodeRow converters policy row =
          .error (.missing (policy.reported (c.leaves.map (·.name))) (some c.typeName))) ∨
      ∃ j error, c.alone converters policy row j = some (.error error) ∧
        error.isMissing = false ∧
        (Group.enum c).decodeRow converters policy row = .error error := by
  have halone : ∀ j error, c.alone converters policy row j = some (.error error) →
      error.isMissing = false := by
    intro j error h
    obtain ⟨k, -, h⟩ := Option.map_eq_some_iff.mp h
    exact CaseEntry.decode_not_missing hc h
  rw [alone_eq_outcomes hc hs hrow] at halone ⊢
  rw [decodeRow_eq_finish hc hs hrow]
  cases hvalues : CaseEntry.valuesOf converters policy (Cursor.ofRow row).cells 0 c.cases with
  | error error =>
    obtain ⟨j, hj⟩ := CaseEntry.outcomes_of_valuesOf_error hvalues
    exact .inr (.inr ⟨j, error, hj, halone j error hj, rfl⟩)
  | ok matched =>
    have hhead := CaseEntry.head?_valuesOf hvalues
    split at hhead
    · rename_i name v hmatched
      obtain ⟨i, k, hk, rfl, hmatch⟩ := hhead
      refine .inl ⟨i, k, v, hk, hmatch, CaseEntry.outcomes_of_valuesOf hvalues, ?_⟩
      simp only [Except.bind, hmatched, finish_some]
    · rename_i hmatched
      refine .inr (.inl ⟨hhead, ?_⟩)
      simp only [Except.bind, hmatched, finish_none]

/-- A row has a value if all cases have an outcome and one of them a value; the first one counts. -/
theorem decodeRow_eq_ok (hc : converters.NeverMissing) (hs : c.Sized)
    (hrow : (row.length : Int) = c.width) {w : Value} :
    (Group.enum c).decodeRow converters policy row = .ok w ↔
      ∃ i k v, c.cases[i]? = some k ∧ FirstMatch (c.alone converters policy row) i v ∧
        (∀ j < c.cases.length, ∃ outcome,
          c.alone converters policy row j = some (.ok outcome)) ∧
        w = c.make k.name v := by
  constructor
  · intro h
    rcases decodeRow_cases hc hs hrow with
      ⟨i, k, v, hk, hmatch, hall, h'⟩ | ⟨-, h'⟩ | ⟨_, _, -, -, h'⟩
    · rw [h] at h'
      exact ⟨i, k, v, hk, hmatch, hall, Except.ok.inj h'⟩
    · rw [h] at h'
      cases h'
    · rw [h] at h'
      cases h'
  · rintro ⟨i, k, v, hk, hmatch, hall, rfl⟩
    rcases decodeRow_cases hc hs hrow with
      ⟨i', k', v', hk', hmatch', -, h⟩ | ⟨hnone, -⟩ | ⟨j, error, h, -, -⟩
    · obtain ⟨rfl, rfl⟩ := hmatch.unique hmatch'
      rw [hk] at hk'
      cases hk'
      exact h
    · cases hmatch.present.symm.trans (hnone i (lt_of_alone hmatch.present))
    · obtain ⟨outcome, houtcome⟩ := hall j (lt_of_alone h)
      cases houtcome.symm.trans h

/-- A row decodes to the first case that has a value on its own, if all cases have an outcome. -/
theorem decodes_iff (hc : converters.NeverMissing) (hs : c.Sized) (hd : c.Distinct)
    (hrow : (row.length : Int) = c.width) :
    c.Decodes converters policy row i v ↔ FirstMatch (c.alone converters policy row) i v ∧
      ∀ j < c.cases.length, ∃ outcome,
        c.alone converters policy row j = some (.ok outcome) := by
  have hsized : Sized { c with maker := none } := by rwa [sized_iff] at hs ⊢
  constructor
  · rintro ⟨k, hk, h⟩
    obtain ⟨i', k', v', hk', hmatch, hall, hvalue⟩ := (decodeRow_eq_ok hc hsized hrow).mp h
    obtain ⟨hname, rfl⟩ := Value.variant.inj hvalue
    obtain rfl := hd.eq_of_name hk hk' hname
    exact ⟨hmatch, hall⟩
  · rintro ⟨hmatch, hall⟩
    obtain ⟨k, hk, -⟩ := Option.map_eq_some_iff.mp hmatch.present
    exact ⟨k, hk, (decodeRow_eq_ok hc hsized hrow).mpr ⟨i, k, v, hk, hmatch, hall, rfl⟩⟩

/-- Every value is made of a case that the row decodes to. -/
theorem decodeRow_eq_make (hc : converters.NeverMissing) (hs : c.Sized) (hd : c.Distinct)
    (hrow : (row.length : Int) = c.width) {w : Value} :
    (Group.enum c).decodeRow converters policy row = .ok w ↔
      ∃ i k v, c.cases[i]? = some k ∧ c.Decodes converters policy row i v ∧
        w = c.make k.name v := by
  simp only [decodes_iff hc hs hd hrow, decodeRow_eq_ok hc hs hrow, and_assoc]

end EnumCatalog

end RowSchema
