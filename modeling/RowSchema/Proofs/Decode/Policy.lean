import RowSchema.Proofs.Basic
import RowSchema.Proofs.Decode.Position

/-! # What failing fast leaves out

A decode that fails fast and one that collects all read the same cells and come to the same outcome,
but of the missing columns only the first is reported. What is missing in a group is cut to one
column in the group already; since the group's own list is cut in front, the record around it still
finds the same first column. -/

namespace RowSchema

/-- The error as it is without the missing columns after the first. -/
def DecodeError.first : DecodeError → DecodeError
  | missing columns typeName => .missing (columns.take 1) typeName
  | error => error

theorem DecodeError.first_of_not_missing {error : DecodeError} (h : error.isMissing = false) :
    error.first = error := by
  cases error with
  | missing columns typeName => cases h
  | _ => rfl

/-- The contribution without the missing columns after the first. -/
def Contribution.first : Contribution → Contribution
  | missing columns => .missing (columns.take 1)
  | contribution => contribution

/-! ## Lists of missing columns -/

/-- Only the first column of each list matters for the first one of all. -/
theorem take_one_flatMap {α β : Type} (f : α → List β) (l : List α) :
    (l.flatMap fun a => (f a).take 1).take 1 = (l.flatMap f).take 1 := by
  induction l with
  | nil => rfl
  | cons a l ih =>
    simp only [List.flatMap_cons]
    cases hf : f a with
    | nil => simpa using ih
    | cons b bs => simp

theorem Contribution.columns_first (contribution : Contribution) :
    contribution.first.columns = contribution.columns.take 1 := by
  cases contribution <;> simp [first, columns]

theorem Contribution.addTo_first (fields : Dictionary String Value) (contribution : Contribution) :
    contribution.first.addTo fields = contribution.addTo fields := by
  cases contribution <;> rfl

theorem Contribution.foldl_first (fields : Dictionary String Value)
    (contributions : List Contribution) :
    (contributions.map Contribution.first).foldl Contribution.addTo fields =
      contributions.foldl Contribution.addTo fields := by
  rw [List.foldl_map]
  simp only [Contribution.addTo_first]

/-! ## Steps of a decode -/

variable {converters : Converters}

theorem Column.settle_first (column : Column) (value : Value) (absent : List String) :
    column.settle value (absent.take 1) =
      (column.settle value absent).map Contribution.first := by
  unfold Column.settle
  split
  · split
    · split <;> rfl
    · split <;> rfl
  · rfl

theorem assemble_first (maker : Option Maker) (typeName : String)
    (contributions : List Contribution) :
    assemble maker .failFast typeName (contributions.map Contribution.first) =
      (assemble maker .collectAll typeName contributions).mapError .first := by
  have hcolumns : ((contributions.map Contribution.first).flatMap (·.columns)).take 1 =
      (contributions.flatMap (·.columns)).take 1 := by
    rw [List.flatMap_map]
    simp only [Contribution.columns_first]
    exact take_one_flatMap Contribution.columns contributions
  unfold assemble
  rw [Contribution.foldl_first]
  cases hfirst : (contributions.map Contribution.first).flatMap (·.columns) with
  | nil =>
    cases hall : contributions.flatMap (·.columns) with
    | nil => rfl
    | cons column rest =>
      rw [hfirst, hall] at hcolumns
      cases hcolumns
  | cons column rest =>
    cases hall : contributions.flatMap (·.columns) with
    | nil =>
      rw [hfirst, hall] at hcolumns
      cases hcolumns
    | cons column' rest' =>
      rw [hfirst, hall] at hcolumns
      simpa [DecodePolicy.reported, DecodeError.first] using hcolumns

theorem EnumCatalog.finish_first (catalog : EnumCatalog) (matched : Option (String × Value)) :
    catalog.finish .failFast matched = (catalog.finish .collectAll matched).mapError .first := by
  unfold EnumCatalog.finish
  cases matched <;> rfl

mutual

theorem Group.decode_failFast (hc : converters.NeverMissing) : ∀ (g : Group) (c : Cursor),
    g.decode converters .failFast c =
      ((g.decode converters .collectAll c).1.mapError .first, (g.decode converters .collectAll c).2)
  | .record catalog, c => by
    simp only [Group.decode]
    exact Catalog.decode_failFast hc catalog c
  | .enum catalog, c => by
    simp only [Group.decode]
    exact EnumCatalog.decode_failFast hc catalog c

theorem Catalog.decode_failFast (hc : converters.NeverMissing) : ∀ (g : Catalog) (c : Cursor),
    g.decode converters .failFast c =
      ((g.decode converters .collectAll c).1.mapError .first, (g.decode converters .collectAll c).2)
  | ⟨typeName, entries, table, schema, maker⟩, c => by
    rw [Catalog.decode, Catalog.decode, Entry.decodeAll_failFast hc entries c]
    cases hd : Entry.decodeAll converters .collectAll entries c with
    | mk outcome c' =>
      cases outcome with
      | error error =>
        have hne := Entry.decodeAll_not_missing hc (congrArg Prod.fst hd)
        simp [Except.map, DecodeError.first_of_not_missing hne]
      | ok contributions => simp [Except.map, assemble_first]

/-- The contributions differ in the columns that are missing from groups. -/
theorem Entry.decodeAll_failFast (hc : converters.NeverMissing) :
    ∀ (entries : List Entry) (c : Cursor),
    Entry.decodeAll converters .failFast entries c =
      ((Entry.decodeAll converters .collectAll entries c).1.map (List.map Contribution.first),
        (Entry.decodeAll converters .collectAll entries c).2)
  | [], c => by
    rw [Entry.decodeAll, Entry.decodeAll]
    rfl
  | e :: rest, c => by
    rw [Entry.decodeAll, Entry.decodeAll, Entry.decode_failFast hc e c]
    cases hd : e.decode converters .collectAll c with
    | mk outcome c' =>
      cases outcome with
      | error error => rfl
      | ok contribution =>
        simp only [Except.map]
        rw [Entry.decodeAll_failFast hc rest c']
        cases hr : Entry.decodeAll converters .collectAll rest c' with
        | mk outcome c'' => cases outcome <;> rfl

theorem Entry.decode_failFast (hc : converters.NeverMissing) : ∀ (e : Entry) (c : Cursor),
    e.decode converters .failFast c =
      ((e.decode converters .collectAll c).1.map Contribution.first,
        (e.decode converters .collectAll c).2)
  | ⟨column, none⟩, c => by
    rw [Entry.decode, Entry.decode]
    cases hd : column.read converters c with
    | mk outcome c' =>
      cases outcome with
      | error error => rfl
      | ok value =>
        -- the one column of a plain entry is the first one
        have hsettle := column.settle_first value [column.name]
        simpa using hsettle
  | ⟨column, some members⟩, c => by
    rw [Entry.decode, Entry.decode, Group.decode_failFast hc members c]
    cases hd : members.decode converters .collectAll c with
    | mk outcome c' =>
      cases outcome with
      | ok value =>
        have hsettle := column.settle_first value [column.name]
        simpa using hsettle
      | error error =>
        cases error with
        | missing columns typeName =>
          have habsent : (if (columns.take 1).isEmpty then [column.name] else columns.take 1) =
              (if columns.isEmpty then [column.name] else columns).take 1 := by
            cases columns <;> rfl
          simp only [mapError_error, DecodeError.first]
          rw [habsent, column.settle_first]
        | _ => rfl

theorem EnumCatalog.decode_failFast (hc : converters.NeverMissing) :
    ∀ (g : EnumCatalog) (c : Cursor),
    g.decode converters .failFast c =
      ((g.decode converters .collectAll c).1.mapError .first, (g.decode converters .collectAll c).2)
  | ⟨typeName, cases, table, schema, maker⟩, c => by
    rw [EnumCatalog.decode, EnumCatalog.decode, CaseEntry.decodeAll_failFast hc cases c]
    cases hd : CaseEntry.decodeAll converters .collectAll cases c with
    | mk outcome c' =>
      cases outcome with
      | error error =>
        have hne := CaseEntry.decodeAll_not_missing hc (congrArg Prod.fst hd)
        simp [DecodeError.first_of_not_missing hne]
      | ok matched => simp [EnumCatalog.finish_first]

/-- What is missing in a case makes it absent, whatever is reported of it. -/
theorem CaseEntry.decodeAll_failFast (hc : converters.NeverMissing) :
    ∀ (cases : List CaseEntry) (c : Cursor),
    CaseEntry.decodeAll converters .failFast cases c =
      CaseEntry.decodeAll converters .collectAll cases c
  | [], c => by rw [CaseEntry.decodeAll, CaseEntry.decodeAll]
  | k :: rest, c => by
    rw [CaseEntry.decodeAll, CaseEntry.decodeAll, CaseEntry.decode_failFast hc k c]
    simp only [fun c => CaseEntry.decodeAll_failFast hc rest c]

theorem CaseEntry.decode_failFast (hc : converters.NeverMissing) : ∀ (k : CaseEntry) (c : Cursor),
    k.decode converters .failFast c = k.decode converters .collectAll c
  | ⟨_, _, none⟩, _ => by rw [CaseEntry.decode, CaseEntry.decode]
  | ⟨_, _, some ⟨column, none⟩⟩, _ => by rw [CaseEntry.decode, CaseEntry.decode]
  | ⟨_, _, some ⟨column, some members⟩⟩, c => by
    rw [CaseEntry.decode, CaseEntry.decode, Group.decode_failFast hc members c]
    cases hd : members.decode converters .collectAll c with
    | mk outcome c' =>
      cases outcome with
      | ok value => rfl
      | error error => cases error <;> rfl

end

/-! ## Reports -/

theorem assemble_missing {maker : Option Maker} {name : String}
    {contributions : List Contribution} {columns : List String} {typeName : Option String}
    (h : assemble maker .collectAll name contributions = .error (.missing columns typeName)) :
    columns ≠ [] := by
  unfold assemble at h
  split at h
  · cases h
  · rename_i hmissing
    rw [← (DecodeError.missing.inj (Except.error.inj h)).1]
    exact hmissing

theorem EnumCatalog.finish_missing {catalog : EnumCatalog} {policy : DecodePolicy}
    {matched : Option (String × Value)} {columns : List String} {typeName : Option String}
    (h : catalog.finish policy matched = .error (.missing columns typeName)) :
    matched = none ∧ columns = policy.reported (catalog.leaves.map (·.name)) ∧
      typeName = some catalog.typeName := by
  unfold EnumCatalog.finish at h
  split at h
  · cases h
  · cases h
    exact ⟨rfl, rfl, rfl⟩

/-- Missing columns are named, unless the catalog has no columns at all. -/
theorem Group.leaves_eq_nil_of_missing (hc : converters.NeverMissing) {g : Group} {c : Cursor}
    {typeName : Option String}
    (h : (g.decode converters .collectAll c).1 = .error (.missing [] typeName)) :
    g.leaves = [] := by
  match g with
  | .record ⟨name, entries, table, schema, maker⟩ =>
    rw [Group.decode, Catalog.decode] at h
    split at h
    · rename_i hd
      cases h
      cases Entry.decodeAll_not_missing hc (congrArg Prod.fst hd)
    · exact absurd rfl (assemble_missing h)
  | .enum ⟨name, cases, table, schema, maker⟩ =>
    rw [Group.decode, EnumCatalog.decode] at h
    split at h
    · rename_i hd
      cases h
      cases CaseEntry.decodeAll_not_missing hc (congrArg Prod.fst hd)
    · exact List.map_eq_nil_iff.mp (EnumCatalog.finish_missing h).2.1.symm

end RowSchema
