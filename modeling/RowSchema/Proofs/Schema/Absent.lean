import RowSchema.Proofs.Decode.Entries
import RowSchema.Proofs.Schema.Names

/-! # Column groups that are absent

A group that lacks a required column is null where it may be. But its other columns are settled
first: a default that one of them needs and that cannot be evaluated ends the decode, though nothing
of the group is kept. -/

namespace RowSchema

/-! ## Groups by their members -/

theorem Entry.sizeOf_members {e : Entry} {members : Group} (h : e.members = some members) :
    sizeOf members < sizeOf e := by
  obtain ⟨column, members'⟩ := e
  obtain rfl : members' = some members := h
  rw [Entry.mk.sizeOf_spec, Option.some.sizeOf_spec]
  omega

theorem Group.sizeOf_members {g members : Group} {e : Entry} (he : e ∈ g.entries)
    (hm : e.members = some members) : sizeOf members < sizeOf g := by
  cases g with
  | record c =>
    obtain ⟨typeName, entries, table, schema, maker⟩ := c
    have hentry := List.sizeOf_lt_of_mem (show e ∈ entries from he)
    have hmembers := Entry.sizeOf_members hm
    rw [Group.record.sizeOf_spec, Catalog.mk.sizeOf_spec]
    omega
  | enum c =>
    obtain ⟨typeName, cases, table, schema, maker⟩ := c
    obtain ⟨⟨name, label, payload⟩, hk, hpayload⟩ := List.mem_filterMap.mp he
    obtain ⟨e', rfl, rfl⟩ := Option.map_eq_some_iff.mp hpayload
    have hcase := List.sizeOf_lt_of_mem (show _ ∈ cases from hk)
    have hmembers : sizeOf members < sizeOf e' := Entry.sizeOf_members hm
    rw [CaseEntry.mk.sizeOf_spec, Option.some.sizeOf_spec] at hcase
    rw [Group.enum.sizeOf_spec, EnumCatalog.mk.sizeOf_spec]
    omega

/-- What holds of every group if it holds of the members of its entries holds of all groups. -/
theorem Group.induction_members {P : Group → Prop}
    (step : ∀ g : Group, (∀ e ∈ g.entries, ∀ members, e.members = some members → P members) →
      P g) (g : Group) : P g :=
  step g fun _ he members hm =>
    have := Group.sizeOf_members he hm
    Group.induction_members step members
termination_by sizeOf g

/-! ## Nothing in the cells -/

/-- The group has no value in these cells: columns are missing, or it is null. -/
def Group.Absent (policy : DecodePolicy) (g : Group) (cells : List Cell) : Prop :=
  (∃ columns typeName,
    g.valueOf Schema.unconverted policy cells = .error (.missing columns typeName)) ∨
  g.valueOf Schema.unconverted policy cells = .ok .null

/-- The entry has no value in these cells. -/
def Entry.Absent (policy : DecodePolicy) : Entry → List Cell → Prop
  | ⟨_, none⟩, cells => cells = [.ok .null]
  | ⟨_, some members⟩, cells => members.Absent policy cells

/-- A required column of the record is null in these cells, or one of a record that is itself
required. -/
inductive Catalog.Lacks : Catalog → List Cell → Prop
  | column {c : Catalog} {cells : List Cell} {i : Nat} {e : Entry}
      (entry : c.entries[i]? = some e) (plain : e.members = none)
      (required : e.column.isRequired = true)
      (null : slice cells (Entry.start c.entries i) e.width = [.ok .null]) : Lacks c cells
  | group {c members : Catalog} {cells : List Cell} {i : Nat} {e : Entry}
      (entry : c.entries[i]? = some e) (grouped : e.members = some (.record members))
      (required : e.column.isRequired = true)
      (lacks : members.Lacks (slice cells (Entry.start c.entries i) e.width)) : Lacks c cells

/-- A default is needed in these cells, since its entry is absent from them, and has no value. -/
inductive Group.Needs (policy : DecodePolicy) : Group → List Cell → String → Expr → Prop
  | own {c : Catalog} {cells : List Cell} {i : Nat} {e : Entry} {default part : Expr}
      (entry : c.entries[i]? = some e)
      (absent : e.Absent policy (slice cells (Entry.start c.entries i) e.width))
      (declared : e.column.default = some default) (stuck : default.evaluate = .error part) :
      Needs policy (.record c) cells e.column.name part
  | members {c : Catalog} {cells : List Cell} {i : Nat} {e : Entry} {members : Group}
      {name : String} {part : Expr} (entry : c.entries[i]? = some e)
      (grouped : e.members = some members)
      (needs : members.Needs policy (slice cells (Entry.start c.entries i) e.width) name part) :
      Needs policy (.record c) cells name part
  | payload {c : EnumCatalog} {cells : List Cell} {i : Nat} {k : CaseEntry} {e : Entry}
      {members : Group} {name : String} {part : Expr} (case : c.cases[i]? = some k)
      (payload : k.payload = some e) (grouped : e.members = some members)
      (needs : members.Needs policy (slice cells (CaseEntry.start c.cases i) k.width) name part) :
      Needs policy (.enum c) cells name part

variable {policy : DecodePolicy} {cells : List Cell} {error : DecodeError} {e : Entry}
  {members : Group}

@[simp] theorem Column.valueOf_unconverted (column : Column) (v : Value) :
    column.valueOf Schema.unconverted [.ok v] = .ok v := by
  simp [Column.valueOf, Except.bind, convert, Schema.unconverted]

/-! ### Cells of their own -/

namespace Fills

theorem entry {c : Catalog} (hcells : Fills cells c.width) (hs : c.Sized) {i : Nat}
    (he : c.entries[i]? = some e) :
    e.Sized ∧ Fills (slice cells (Entry.start c.entries i) e.width) e.width := by
  have hsized := Catalog.sized_iff.mp hs
  have hentry := hsized e (List.mem_of_getElem? he)
  exact ⟨hentry, hcells.sliced hentry.width_nonneg
    (Entry.start_add_width_le (Entry.allSized_iff.mpr hsized) he)⟩

theorem payload {c : EnumCatalog} (hcells : Fills cells c.width) (hs : c.Sized) {i : Nat}
    {k : CaseEntry} (hk : c.cases[i]? = some k) (he : k.payload = some e) :
    e.Sized ∧ Fills (slice cells (CaseEntry.start c.cases i) k.width) e.width := by
  have hentry := (EnumCatalog.sized_iff.mp hs k (List.mem_of_getElem? hk)).payload he
  have hnonneg := hentry.width_nonneg
  have hwidth : k.width = e.width := by
    rw [CaseEntry.width, he, Option.map_some, Option.getD_some]
  have hend := CaseEntry.start_mono c.cases (List.getElem?_eq_some_iff.mp hk).1
  have htotal := hs.start_length
  rw [CaseEntry.start_succ hk] at hend
  rw [hwidth]
  exact ⟨hentry, hcells.sliced hnonneg (by omega)⟩

theorem group (hcells : Fills cells e.width) (hs : e.Sized) (hm : e.members = some members) :
    members.Sized ∧ Fills cells members.width := by
  obtain ⟨column, members'⟩ := e
  obtain rfl : members' = some members := hm
  rw [Entry.Sized] at hs
  rw [Entry.width, hs.1] at hcells
  exact ⟨hs.2, hcells⟩

theorem plain (hcells : Fills cells e.width) (hs : e.Sized) (hm : e.members = none) :
    ∃ v, cells = [.ok v] := by
  obtain ⟨column, members⟩ := e
  obtain rfl : members = none := hm
  rw [Entry.Sized] at hs
  rw [Entry.width, hs] at hcells
  exact hcells.eq_singleton

end Fills

/-! ### What fails -/

/-- An absent entry contributes its default, null, or what is missing. -/
theorem Entry.Absent.contributionOf (h : e.Absent policy cells) :
    ∃ columns,
      e.contributionOf Schema.unconverted policy cells = e.column.settle .null columns := by
  obtain ⟨column, members⟩ := e
  cases members with
  | none =>
    obtain rfl : cells = [.ok .null] := h
    exact ⟨[column.name], rfl⟩
  | some members =>
    rcases h with ⟨columns, typeName, h⟩ | h
    · exact ⟨_, by rw [Entry.contributionOf, h]⟩
    · exact ⟨[column.name], by rw [Entry.contributionOf, h]⟩

theorem Entry.Absent.of_missing (hm : e.members = some members)
    (h : members.valueOf Schema.unconverted policy cells = .error error)
    (hmissing : error.isMissing = true) : e.Absent policy cells := by
  obtain ⟨column, members'⟩ := e
  obtain rfl : members' = some members := hm
  cases error with
  | missing columns typeName => exact .inl ⟨columns, typeName, h⟩
  | _ => cases hmissing

/-- An entry fails with its members. -/
theorem Entry.contributionOf_error (hm : e.members = some members)
    (h : members.valueOf Schema.unconverted policy cells = .error error)
    (hmissing : error.isMissing = false) :
    e.contributionOf Schema.unconverted policy cells = .error error := by
  obtain ⟨column, members'⟩ := e
  obtain rfl : members' = some members := hm
  rw [Entry.contributionOf, h]
  cases error with
  | missing columns typeName => cases hmissing
  | _ => rfl

/-- An entry that fails has a default without a value and nothing in its cells, or its members
fail. -/
theorem Entry.needs_of_error (hs : e.Sized) (hcells : Fills cells e.width)
    (h : e.contributionOf Schema.unconverted policy cells = .error error) :
    (e.Absent policy cells ∧ ∃ default part, e.column.default = some default ∧
      default.evaluate = .error part ∧ error = .defaultNotEvaluable e.column.name part) ∨
    ∃ members, e.members = some members ∧
      members.valueOf Schema.unconverted policy cells = .error error ∧
      error.isMissing = false := by
  obtain ⟨column, members⟩ := e
  cases members with
  | none =>
    obtain ⟨v, rfl⟩ := hcells.plain hs rfl
    rw [Entry.contributionOf, Column.valueOf_unconverted] at h
    obtain ⟨hnull, hdefault⟩ := Column.settle_eq_error.mp h
    obtain rfl := Value.isNull_iff.mp hnull
    exact .inl ⟨rfl, hdefault⟩
  | some members =>
    rw [Entry.contributionOf] at h
    split at h
    · rename_i columns typeName hvalue
      obtain ⟨-, hdefault⟩ := Column.settle_eq_error.mp h
      exact .inl ⟨.inl ⟨columns, typeName, hvalue⟩, hdefault⟩
    · rename_i error' hne hvalue
      cases h
      exact .inr ⟨members, rfl, hvalue, DecodeError.isMissing_eq_false hne⟩
    · rename_i v hvalue
      obtain ⟨hnull, hdefault⟩ := Column.settle_eq_error.mp h
      obtain rfl := Value.isNull_iff.mp hnull
      exact .inl ⟨.inr hvalue, hdefault⟩

/-- A case fails with its members, and only with them. -/
theorem CaseEntry.valueOf_eq_error {k : CaseEntry} (hmissing : error.isMissing = false)
    (hs : ∀ e, k.payload = some e → e.Sized ∧ Fills cells e.width) :
    k.valueOf Schema.unconverted policy cells = .error error ↔
      ∃ e members, k.payload = some e ∧ e.members = some members ∧
        members.valueOf Schema.unconverted policy cells = .error error := by
  obtain ⟨name, label, payload⟩ := k
  match payload with
  | none =>
    rw [CaseEntry.valueOf]
    simp
  | some ⟨column, none⟩ =>
    obtain ⟨hsized, hcells⟩ := hs _ rfl
    obtain ⟨v, rfl⟩ := hcells.plain hsized rfl
    rw [CaseEntry.valueOf, Column.valueOf_unconverted]
    simp [Except.map]
  | some ⟨column, some members⟩ =>
    rw [CaseEntry.valueOf]
    constructor
    · intro h
      split at h
      · cases h
      · rename_i hvalue
        cases h
        exact ⟨_, members, rfl, rfl, hvalue⟩
      · cases h
    · rintro ⟨e, members', he, hm, hvalue⟩
      cases he
      cases hm
      rw [hvalue]
      cases error with
      | missing columns typeName => cases hmissing
      | _ => rfl

/-- What makes a record or an enum of its parts fails for missing columns only. -/
theorem assemble_isMissing {maker : Option Maker} {typeName : String}
    {contributions : List Contribution}
    (h : assemble maker policy typeName contributions = .error error) : error.isMissing = true := by
  unfold assemble at h
  split at h <;> cases h
  rfl

theorem EnumCatalog.finish_isMissing {c : EnumCatalog} {matched : Option (String × Value)}
    (h : c.finish policy matched = .error error) : error.isMissing = true := by
  unfold EnumCatalog.finish at h
  split at h <;> cases h
  rfl

/-- A group that fails for anything but missing columns needs a default that has no value. -/
theorem Group.needs_of_error (g : Group) : ∀ {cells : List Cell} {error : DecodeError}, g.Sized →
    Fills cells g.width → g.valueOf Schema.unconverted policy cells = .error error →
    error.isMissing = false →
    ∃ name part, error = .defaultNotEvaluable name part ∧ g.Needs policy cells name part := by
  induction g using Group.induction_members with
  | step g ih =>
    intro cells error hs hcells h hmissing
    cases g with
    | record c =>
      rw [Group.valueOf, Catalog.valueOf_eq] at h
      cases hall : Entry.contributionsOf Schema.unconverted policy cells 0 c.entries with
      | error error' =>
        rw [hall] at h
        cases h
        obtain ⟨i, hi, -⟩ := Entry.outcomes_of_contributionsOf_error hall
        obtain ⟨e, he, hi⟩ := Entry.outcomes_eq_some.mp hi
        obtain ⟨hentry, hown⟩ := hcells.entry hs he
        rcases Entry.needs_of_error hentry hown hi with
          ⟨habsent, default, part, hdefault, hpart, rfl⟩ | ⟨members, hm, hvalue, hne⟩
        · exact ⟨_, part, rfl, .own he habsent hdefault hpart⟩
        · obtain ⟨hsized, hfills⟩ := hown.group hentry hm
          obtain ⟨name, part, rfl, hneeds⟩ :=
            ih e (List.mem_of_getElem? he) members hm hsized hfills hvalue hne
          exact ⟨name, part, rfl, .members he hm hneeds⟩
      | ok contributions =>
        -- once all entries contribute, only missing columns are left to fail for
        rw [hall] at h
        rw [assemble_isMissing h] at hmissing
        cases hmissing
    | enum c =>
      rw [Group.valueOf, EnumCatalog.valueOf_eq] at h
      cases hall : CaseEntry.valuesOf Schema.unconverted policy cells 0 c.cases with
      | error error' =>
        rw [hall] at h
        cases h
        obtain ⟨i, hi⟩ := CaseEntry.outcomes_of_valuesOf_error hall
        obtain ⟨k, hk, hi⟩ := CaseEntry.outcomes_eq_some.mp hi
        obtain ⟨e, members, he, hm, hvalue⟩ :=
          (CaseEntry.valueOf_eq_error hmissing fun e he => hcells.payload hs hk he).mp hi
        obtain ⟨hentry, hown⟩ := hcells.payload hs hk he
        obtain ⟨hsized, hfills⟩ := hown.group hentry hm
        -- the entry of a case is nullable in its enum, with the same members
        obtain ⟨name, part, rfl, hneeds⟩ := ih e.nullable
          (List.mem_filterMap.mpr ⟨k, List.mem_of_getElem? hk, by rw [he, Option.map_some]⟩)
          members hm hsized hfills hvalue hmissing
        exact ⟨name, part, rfl, .payload hk he hm hneeds⟩
      | ok matched =>
        rw [hall] at h
        rw [EnumCatalog.finish_isMissing h] at hmissing
        cases hmissing

/-- A record fails if one of its entries does. -/
theorem Catalog.raises {c : Catalog} (hcells : Present cells) {i : Nat}
    (h : Entry.outcomes Schema.unconverted policy cells 0 c.entries i = some (.error error)) :
    ∃ error', c.valueOf Schema.unconverted policy cells = .error error' ∧
      error'.isMissing = false := by
  cases hall : Entry.contributionsOf Schema.unconverted policy cells 0 c.entries with
  | ok contributions =>
    rw [Entry.contributionsOf_eq_ok.mp hall i] at h
    obtain ⟨contribution, -, hcontribution⟩ := Option.map_eq_some_iff.mp h
    cases hcontribution
  | error error' =>
    refine ⟨error', ?_, ?_⟩
    · rw [Catalog.valueOf_eq, hall]
      rfl
    · obtain ⟨j, hj, -⟩ := Entry.outcomes_of_contributionsOf_error hall
      obtain ⟨e, -, hj⟩ := Entry.outcomes_eq_some.mp hj
      exact Entry.contributionOf_not_missing Schema.unconverted_neverMissing
        (hcells.slice _ _) hj

/-- An enum fails if one of its cases does. -/
theorem EnumCatalog.raises {c : EnumCatalog} (hcells : Present cells)
    {i : Nat}
    (h : CaseEntry.outcomes Schema.unconverted policy cells 0 c.cases i = some (.error error)) :
    ∃ error', c.valueOf Schema.unconverted policy cells = .error error' ∧
      error'.isMissing = false := by
  cases hall : CaseEntry.valuesOf Schema.unconverted policy cells 0 c.cases with
  | ok matched =>
    obtain ⟨k, hk, -⟩ := CaseEntry.outcomes_eq_some.mp h
    obtain ⟨outcome, houtcome⟩ :=
      CaseEntry.outcomes_of_valuesOf hall i (List.getElem?_eq_some_iff.mp hk).1
    rw [h] at houtcome
    cases houtcome
  | error error' =>
    refine ⟨error', ?_, ?_⟩
    · rw [EnumCatalog.valueOf_eq, hall]
      rfl
    · obtain ⟨j, hj⟩ := CaseEntry.outcomes_of_valuesOf_error hall
      obtain ⟨k, -, hj⟩ := CaseEntry.outcomes_eq_some.mp hj
      exact CaseEntry.valueOf_not_missing Schema.unconverted_neverMissing
        (hcells.slice _ _) hj

/-- Some default without a value is needed just if the group fails so. -/
theorem Group.Needs.raises {g : Group} {name : String} {part : Expr}
    (h : g.Needs policy cells name part) (hs : g.Sized) (hcells : Fills cells g.width) :
    ∃ error, g.valueOf Schema.unconverted policy cells = .error error ∧
      error.isMissing = false := by
  induction h with
  | @own c cells i e default part he habsent hdefault hpart =>
    have houtcome : Entry.outcomes Schema.unconverted policy cells 0 c.entries i =
        some (.error (.defaultNotEvaluable e.column.name part)) := by
      obtain ⟨columns, hsettle⟩ := habsent.contributionOf
      refine Entry.outcomes_eq_some.mpr ⟨e, he, hsettle.trans ?_⟩
      exact Column.settle_eq_error.mpr ⟨rfl, default, part, hdefault, hpart, rfl⟩
    exact Catalog.raises hcells.present houtcome
  | @members c cells i e members name part he hm _ ih =>
    obtain ⟨hentry, hown⟩ := hcells.entry hs he
    obtain ⟨hsized, hfills⟩ := hown.group hentry hm
    obtain ⟨error, hvalue, hmissing⟩ := ih hsized hfills
    exact Catalog.raises hcells.present (Entry.outcomes_eq_some.mpr
      ⟨e, he, Entry.contributionOf_error hm hvalue hmissing⟩)
  | @payload c cells i k e members name part hk he hm _ ih =>
    obtain ⟨hentry, hown⟩ := hcells.payload hs hk he
    obtain ⟨hsized, hfills⟩ := hown.group hentry hm
    obtain ⟨error, hvalue, hmissing⟩ := ih hsized hfills
    have hcase := (CaseEntry.valueOf_eq_error hmissing fun e he => hcells.payload hs hk he).mpr
      ⟨e, members, he, hm, hvalue⟩
    exact EnumCatalog.raises hcells.present (CaseEntry.outcomes_eq_some.mpr ⟨k, hk, hcase⟩)

/-! ### What is absent -/

theorem Column.settle_required {column : Column} (h : column.isRequired = true)
    (columns : List String) : column.settle .null columns = .ok (.missing columns) := by
  have hdefault : column.default = none := by
    rw [Column.isRequired, Bool.and_eq_true] at h
    exact Option.isNone_iff_eq_none.mp h.1
  simp [Column.settle, Value.isNull, hdefault, h]

theorem Column.settle_optional {column : Column} (hnullable : column.isNullable = true)
    (hdefault : column.default = none) (columns : List String) :
    column.settle .null columns = .ok (.field column.field .null) := by
  simp [Column.settle, Value.isNull, Column.isRequired, hdefault, hnullable]

theorem Entry.Absent.missing (h : e.Absent policy cells) (hrequired : e.column.isRequired = true) :
    ∃ columns,
      e.contributionOf Schema.unconverted policy cells = .ok (.missing columns) := by
  obtain ⟨columns, hsettle⟩ := h.contributionOf
  exact ⟨columns, hsettle.trans (Column.settle_required hrequired columns)⟩

/-- A record that lacks a column has no value. -/
theorem Catalog.Lacks.not_ok {c : Catalog} (h : c.Lacks cells) :
    ∀ v, c.valueOf Schema.unconverted policy cells ≠ .ok v := by
  induction h with
  | @column c cells i e he hm hrequired hnull =>
    intro v hv
    have habsent : e.Absent policy (slice cells (Entry.start c.entries i) e.width) := by
      obtain ⟨column, members⟩ := e
      obtain rfl : members = none := hm
      exact hnull
    obtain ⟨columns, hmissing⟩ := habsent.missing hrequired
    obtain ⟨_, _, hfield⟩ := Catalog.valueOf_madeOf.exists_iff.mp ⟨v, hv⟩ i _
      (Entry.outcomes_eq_some.mpr ⟨e, he, hmissing⟩)
    cases hfield
  | @group c members cells i e he hm hrequired _ ih =>
    intro v hv
    have hown {outcome : Except DecodeError Contribution}
        (h : e.contributionOf Schema.unconverted policy
          (slice cells (Entry.start c.entries i) e.width) = outcome) :
        ∃ name value, outcome = .ok (.field name value) :=
      Catalog.valueOf_madeOf.exists_iff.mp ⟨v, hv⟩ i _ (Entry.outcomes_eq_some.mpr ⟨e, he, h⟩)
    cases hvalue : members.valueOf Schema.unconverted policy
        (slice cells (Entry.start c.entries i) e.width) with
    | ok v' => exact ih v' hvalue
    | error error =>
      rw [← Group.valueOf] at hvalue
      cases hmissing : error.isMissing with
      | false =>
        obtain ⟨_, _, hfield⟩ := hown (Entry.contributionOf_error hm hvalue hmissing)
        cases hfield
      | true =>
        obtain ⟨columns, hcolumns⟩ := (Entry.Absent.of_missing hm hvalue hmissing).missing hrequired
        obtain ⟨_, _, hfield⟩ := hown hcolumns
        cases hfield

/-- A record that lacks a column is absent, if it needs no default without a value. -/
theorem Catalog.Lacks.absent {c : Catalog} (h : c.Lacks cells) (hs : c.Sized)
    (hcells : Fills cells c.width)
    (hneeds : ∀ name part, ¬ (Group.record c).Needs policy cells name part)
    (hm : e.members = some (.record c)) : e.Absent policy cells := by
  cases hvalue : c.valueOf Schema.unconverted policy cells with
  | ok v => exact absurd hvalue (h.not_ok v)
  | error error =>
    rw [← Group.valueOf] at hvalue
    cases hmissing : error.isMissing with
    | true => exact .of_missing hm hvalue hmissing
    | false =>
      obtain ⟨name, part, -, hneed⟩ := Group.needs_of_error (.record c) hs hcells hvalue hmissing
      exact absurd hneed (hneeds name part)

namespace Schema

variable {s : Schema} {c g : Catalog}

/-- A row of values is decoded from the values themselves. -/
theorem Plan.decodeRow_values (hg : s.Plan (.record c)) (hs : s.Reachable) (policy : DecodePolicy)
    {row : List Value} (hrow : (row.length : Int) = c.width) :
    (Group.record c).decodeRow unconverted policy (row.map some) =
      c.valueOf unconverted policy (row.map .ok) := by
  have hlength : ((row.map some).length : Int) = (Group.record c).width := by
    rwa [List.length_map]
  rw [(hg.sized hs).decodeRow_eq unconverted_neverMissing hlength, Cursor.ofRow,
    Cursor.cells_map_some, Group.valueOf]

/-- A row in which an optional group without a default lacks a required column. If the group needs no
default without a value, the row has a value just if every other entry contributes a field, and the
field of the group is null there unless a later entry has its name. If the group needs one, the row
has no value, whatever the other entries contribute. -/
theorem Plan.absent_group (hs : s.Reachable) (hg : s.Plan (.record c)) {i : Nat} {e : Entry}
    (he : c.entries[i]? = some e) (hm : e.members = some (.record g))
    (hnullable : e.column.isNullable = true) (hdefault : e.column.default = none)
    {row : List Value} (hrow : (row.length : Int) = c.width)
    (hlacks : g.Lacks (slice (row.map .ok) (Entry.start c.entries i) e.width))
    (policy : DecodePolicy) :
    let outcome := Entry.outcomes unconverted policy (row.map .ok) 0 c.entries
    let decoded := (Group.record c).decodeRow unconverted policy (row.map some)
    let Needs := (Group.record g).Needs policy
      (slice (row.map .ok) (Entry.start c.entries i) e.width)
    ((∀ name part, ¬ Needs name part) →
      outcome i = some (.ok (.field e.column.field .null)) ∧
      ((∃ v, decoded = .ok v) ↔
        ∀ j ≠ i, ∀ o, outcome j = some o → ∃ name value, o = .ok (.field name value)) ∧
      ∀ v, decoded = .ok v → ∃ fields : Dictionary String Value, v = c.make fields ∧
        (e.column.field ∉ (c.entries.drop (i + 1)).map (·.column.field) →
          fields.get? e.column.field = some .null)) ∧
    ((∃ name part, Needs name part) →
      (∃ name part, Needs name part ∧
        outcome i = some (.error (.defaultNotEvaluable name part))) ∧
      ∃ error, decoded = .error error ∧ error.isMissing = false) := by
  intro outcome decoded Needs
  have hsized : c.Sized := hg.sized hs
  have hcells : Fills (row.map Except.ok : List Cell) c.width := .of_values hrow
  have hdecoded : decoded = c.valueOf unconverted policy (row.map .ok) :=
    hg.decodeRow_values hs policy hrow
  obtain ⟨hentry, hown⟩ := hcells.entry hsized he
  obtain ⟨hmembers, hfills⟩ := hown.group hentry hm
  rw [hdecoded]
  refine ⟨fun hneeds => ?_, ?_⟩
  · obtain ⟨columns, hsettle⟩ := (hlacks.absent hmembers hfills hneeds hm).contributionOf
    have hi : outcome i = some (.ok (.field e.column.field .null)) :=
      Entry.outcomes_eq_some.mpr
        ⟨e, he, hsettle.trans (Column.settle_optional hnullable hdefault columns)⟩
    exact ⟨hi, Catalog.valueOf_madeOf.exists_iff_others hi,
      fun v => Catalog.valueOf_madeOf.field hi⟩
  · rintro ⟨name, part, hneed⟩
    obtain ⟨error, hvalue, hmissing⟩ := hneed.raises hmembers hfills
    have hi : outcome i = some (.error error) :=
      Entry.outcomes_eq_some.mpr ⟨e, he, Entry.contributionOf_error hm hvalue hmissing⟩
    obtain ⟨name', part', rfl, hneed'⟩ :=
      Group.needs_of_error (.record g) hmembers hfills hvalue hmissing
    exact ⟨⟨name', part', hneed', hi⟩, Catalog.raises hcells.present hi⟩

/-- The columns of a shape. -/
def shapeCatalog : Catalog where
  typeName := "Shape"
  entries := [
    { column := {
        name := "centre", field := "centre", type := some { name := "Point", isOptional := true }
        width := 2 }
      members := some (.record pointCatalog.asGroup) },
    { column := { name := "label", field := "label", type := some .string } }]
  table := some "shapes"

theorem yields_shape : shapes.Yields (.name "Shape")
    { record := shapeRecord, catalog := .record shapeCatalog, policy := .failFast } :=
  ⟨_, _, rfl, rfl⟩

theorem point_not_needs (cells : List Cell) (name : String) (part : Expr) :
    ¬ (Group.record pointCatalog.asGroup).Needs policy cells name part := by
  intro h
  cases h with
  | @own c cells i e default part he habsent hdefault =>
    match i, he with
    | 0, he | 1, he =>
      cases he
      cases hdefault
  | @members c cells i e members name part he hm =>
    match i, he with
    | 0, he | 1, he =>
      cases he
      cases hm

/-- A shape whose centre lacks a coordinate has no centre. -/
theorem absent_centre : ∃ fields : Dictionary String Value,
    Value.ofFields [("centre", .null), ("label", .text "a")] = shapeCatalog.make fields ∧
      fields.get? "centre" = some .null := by
  have hrow : (([.null, .int 1, .text "a"] : List Value).length : Int) = shapeCatalog.width := rfl
  obtain ⟨hkept, -⟩ := Plan.absent_group (i := 0) shapes_reachable (.catalog yields_shape) rfl rfl
    rfl rfl hrow (.column (i := 0) rfl rfl rfl rfl) .failFast
  obtain ⟨-, -, hfields⟩ := hkept (point_not_needs _)
  obtain ⟨fields, hv, hget⟩ := hfields _ rfl
  exact ⟨fields, hv, hget (by decide)⟩

/-- A part with a default that has no value. -/
def partRecord : Record where
  name := "Part"
  attributes := [{ name := "Selection" }]
  fields := [
    { name := "x", type := some .integer },
    { name := "at", type := some { name := "Date" }, default := some (.call "now" []) }]

/-- Nothing but a part, which may be absent. -/
def wholeRecord : Record where
  name := "Whole"
  attributes := [{ name := "Table" }]
  fields := [
    { name := "part", type := some { name := "Part", isOptional := true }
      attributes := [{ name := "Columns" }] }]

def wholes : Schema := (Schema.registerAll {} [partRecord, wholeRecord]).1

/-- The columns of a part. -/
def partCatalog : Catalog where
  typeName := "Part"
  entries := [
    { column := { name := "x", field := "x", type := some .integer } },
    { column := {
        name := "at", field := "at", type := some { name := "Date" }
        default := some (.call "now" []) } }]

def wholeCatalog : Catalog where
  typeName := "Whole"
  entries := [
    { column := {
        name := "part", field := "part", type := some { name := "Part", isOptional := true }
        width := 2 }
      members := some (.record partCatalog) }]
  table := some "wholes"

theorem yields_whole : wholes.Yields (.name "Whole")
    { record := wholeRecord, catalog := .record wholeCatalog, policy := .failFast } :=
  ⟨_, _, rfl, rfl⟩

/-- A group that lacks a required column can keep a row from being decoded all by itself. -/
theorem not_absent_group : ¬ ∀ (s : Schema) (c g : Catalog) (i : Nat) (e : Entry)
    (row : List Value) (policy : DecodePolicy), s.Reachable → s.Plan (.record c) →
    c.entries[i]? = some e → e.members = some (.record g) → e.column.isNullable = true →
    e.column.default = none → (row.length : Int) = c.width →
    g.Lacks (slice (row.map .ok) (Entry.start c.entries i) e.width) →
    (∀ j ≠ i, ∀ o, Entry.outcomes unconverted policy (row.map .ok) 0 c.entries j = some o →
      ∃ name value, o = .ok (.field name value)) →
    ∃ v, (Group.record c).decodeRow unconverted policy (row.map some) = .ok v := by
  intro h
  have hothers : ∀ j ≠ 0, ∀ o, Entry.outcomes unconverted .failFast [.ok .null, .ok .null] 0
      wholeCatalog.entries j = some o → ∃ name value, o = .ok (.field name value) := by
    intro j hj o ho
    match j, ho with
    | 0, _ => exact absurd rfl hj
    | j + 1, ho => cases ho
  obtain ⟨v, hv⟩ := h wholes wholeCatalog partCatalog 0 _ [.null, .null] .failFast
    ((Reachable.empty {}).registerAll [partRecord, wholeRecord]) (.catalog yields_whole) rfl rfl
    rfl rfl rfl (.column (i := 0) rfl rfl rfl rfl) hothers
  cases hv

end Schema

end RowSchema
