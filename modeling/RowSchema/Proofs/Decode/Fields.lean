import Mathlib.Data.List.Forall2
import Mathlib.Data.List.OfFn
import RowSchema.Proofs.Basic
import RowSchema.Proofs.Decode.Slices
import RowSchema.Proofs.Dictionary

/-! # Fields of a decoded record

A record is made of the contributions of its entries, put one after another under the names of their
fields. So of several entries with one field name the last one counts. -/

namespace RowSchema

variable {converters : Converters} {policy : DecodePolicy}

theorem Value.isNull_iff {v : Value} : v.isNull = true ↔ v = .null := by
  cases v <;> simp [Value.isNull]

/-- A contribution of an entry with that field: a value, or at least one missing column. -/
inductive Contribution.Of (name : String) : Contribution → Prop
  | field (value : Value) : Of name (.field name value)
  | missing {columns : List String} (h : columns ≠ []) : Of name (.missing columns)

theorem Column.settle_of {column : Column} {value : Value} {absent : List String}
    {contribution : Contribution} (habsent : absent ≠ [])
    (h : column.settle value absent = .ok contribution) : contribution.Of column.field := by
  unfold Column.settle at h
  split at h
  · split at h
    · split at h <;> cases h
      exact .field _
    · split at h <;> cases h
      · exact .missing habsent
      · exact .field _
  · cases h
    exact .field _

/-- Settling fails just if there is nothing and the default that stands in has no value. -/
theorem Column.settle_eq_error {column : Column} {value : Value} {absent : List String}
    {error : DecodeError} : column.settle value absent = .error error ↔
      value.isNull = true ∧ ∃ default part, column.default = some default ∧
        default.evaluate = .error part ∧ error = .defaultNotEvaluable column.name part := by
  unfold Column.settle
  constructor
  · intro h
    split at h
    · rename_i hnull
      split at h
      · rename_i default hdefault
        split at h <;> cases h
        exact ⟨hnull, default, _, hdefault, by assumption, rfl⟩
      · split at h <;> cases h
    · cases h
  · rintro ⟨hnull, default, part, hdefault, hpart, rfl⟩
    rw [if_pos hnull, hdefault]
    dsimp only
    rw [hpart]

/-- What a group is said to lack. -/
theorem absent_ne_nil (columns : List String) (name : String) :
    (if columns.isEmpty then [name] else columns) ≠ [] := by
  cases columns <;> simp

theorem Entry.decode_of {e : Entry} {c : Cursor} {contribution : Contribution}
    (h : (e.decode converters policy c).1 = .ok contribution) :
    contribution.Of e.column.field := by
  obtain ⟨column, members⟩ := e
  cases members with
  | none =>
    rw [Entry.decode] at h
    split at h
    · cases h
    · exact Column.settle_of (List.cons_ne_nil _ _) h
  | some members =>
    rw [Entry.decode] at h
    split at h
    · dsimp only at h
      exact Column.settle_of (absent_ne_nil _ _) h
    · cases h
    · exact Column.settle_of (List.cons_ne_nil _ _) h

theorem Entry.contributionOf_of {e : Entry} {cells : List Cell} {contribution : Contribution}
    (h : e.contributionOf converters policy cells = .ok contribution) :
    contribution.Of e.column.field := by
  obtain ⟨column, members⟩ := e
  cases members with
  | none =>
    rw [Entry.contributionOf] at h
    obtain ⟨value, -, h⟩ := bind_eq_ok.mp h
    exact Column.settle_of (List.cons_ne_nil _ _) h
  | some members =>
    rw [Entry.contributionOf] at h
    split at h
    · exact Column.settle_of (absent_ne_nil _ _) h
    · cases h
    · exact Column.settle_of (List.cons_ne_nil _ _) h

theorem Entry.decodeAll_of {entries : List Entry} : ∀ {c : Cursor}
    {contributions : List Contribution},
    (Entry.decodeAll converters policy entries c).1 = .ok contributions →
    List.Forall₂ (fun e contribution => contribution.Of e.column.field) entries contributions := by
  induction entries with
  | nil =>
    intro c contributions h
    rw [Entry.decodeAll] at h
    cases h
    exact .nil
  | cons e rest ih =>
    intro c contributions h
    rw [Entry.decodeAll] at h
    split at h
    · cases h
    · rename_i contribution c' he
      split at h
      · cases h
      · rename_i more c'' hrest
        cases h
        exact .cons (Entry.decode_of (congrArg Prod.fst he)) (ih (congrArg Prod.fst hrest))

/-! ## Records -/

/-- The record that is made of fields. -/
def Catalog.make (c : Catalog) (fields : Dictionary String Value) : Value :=
  match c.maker with
  | some maker => maker.record fields
  | none => .ofFields fields

theorem Contribution.exists_pairs {entries : List Entry} {contributions : List Contribution}
    (hof : List.Forall₂ (fun e contribution => contribution.Of e.column.field) entries
      contributions) (h : contributions.flatMap Contribution.columns = []) :
    ∃ pairs : List (String × Value), pairs.map (·.1) = entries.map (·.column.field) ∧
      contributions = pairs.map fun p => .field p.1 p.2 := by
  induction hof with
  | nil => exact ⟨[], rfl, rfl⟩
  | @cons e contribution entries contributions hone _ ih =>
    rw [List.flatMap_cons, List.append_eq_nil_iff] at h
    obtain ⟨pairs, hnames, rfl⟩ := ih h.2
    cases hone with
    | field value => exact ⟨(e.column.field, value) :: pairs, by simp [hnames], rfl⟩
    | missing hmissing => exact absurd h.1 hmissing

/-- A record is made just if every entry contributes a field. -/
theorem Catalog.assemble_eq_ok {c : Catalog} {contributions : List Contribution} {v : Value}
    (hof : List.Forall₂ (fun e contribution => contribution.Of e.column.field) c.entries
      contributions) :
    assemble c.maker policy c.typeName contributions = .ok v ↔
      ∃ pairs : List (String × Value), pairs.map (·.1) = c.entries.map (·.column.field) ∧
        contributions = pairs.map (fun p => .field p.1 p.2) ∧ v = c.make (.ofList pairs) := by
  have hmake (pairs : List (String × Value)) :
      assemble c.maker policy c.typeName (pairs.map fun p => .field p.1 p.2) =
        .ok (c.make (.ofList pairs)) := by
    have hcolumns : (pairs.map fun p => Contribution.field p.1 p.2).flatMap
        Contribution.columns = [] := by
      rw [List.flatMap_eq_nil_iff]
      intro contribution hmem
      obtain ⟨p, -, rfl⟩ := List.mem_map.mp hmem
      rfl
    rw [assemble, hcolumns, List.foldl_map]
    rfl
  constructor
  · intro h
    cases hmissing : contributions.flatMap Contribution.columns with
    | nil =>
      obtain ⟨pairs, hnames, rfl⟩ := Contribution.exists_pairs hof hmissing
      rw [hmake] at h
      exact ⟨pairs, hnames, rfl, (Except.ok.inj h).symm⟩
    | cons column columns =>
      rw [assemble, hmissing] at h
      cases h
  · rintro ⟨pairs, -, rfl, rfl⟩
    exact hmake pairs

/-- `decoded` is the record that is made of what the entries contribute, as `outcomes` has it by the
numbers of the entries. It does not matter here from which cells they read. -/
structure Catalog.MadeOf (c : Catalog) (policy : DecodePolicy)
    (outcomes : Nat → Option (Except DecodeError Contribution))
    (decoded : Except DecodeError Value) : Prop where
  defined : ∀ i, (outcomes i).isSome = c.entries[i]?.isSome
  contributes : ∀ i e contribution, c.entries[i]? = some e →
    outcomes i = some (.ok contribution) → contribution.Of e.column.field
  eq_ok : ∀ v, decoded = .ok v ↔ ∃ contributions : List Contribution,
    (∀ i, outcomes i = contributions[i]?.map .ok) ∧
    assemble c.maker policy c.typeName contributions = .ok v

namespace Catalog.MadeOf

variable {c : Catalog} {outcomes : Nat → Option (Except DecodeError Contribution)}
  {decoded : Except DecodeError Value} {i : Nat} {name : String} {value v : Value}

/-- A record is made of the fields that its entries contribute. -/
theorem eq_ok_iff (h : c.MadeOf policy outcomes decoded) : decoded = .ok v ↔
    ∃ pairs : List (String × Value), pairs.map (·.1) = c.entries.map (·.column.field) ∧
      (∀ i, outcomes i = pairs[i]?.map fun p => .ok (.field p.1 p.2)) ∧
      v = c.make (.ofList pairs) := by
  have hof {contributions : List Contribution}
      (hall : ∀ i, outcomes i = contributions[i]?.map .ok) :
      List.Forall₂ (fun e contribution => contribution.Of e.column.field) c.entries
        contributions := by
    have hsome (i : Nat) : contributions[i]?.isSome = c.entries[i]?.isSome := by
      rw [← h.defined i, hall i, Option.isSome_map]
    have hlength : c.entries.length = contributions.length := by
      refine Nat.le_antisymm ?_ ?_
      · by_contra hlt
        have := hsome contributions.length
        simp_all
      · by_contra hlt
        have := hsome c.entries.length
        simp_all
    refine List.forall₂_iff_get.mpr ⟨hlength, fun i hi hi' => ?_⟩
    refine h.contributes i _ _ (List.getElem?_eq_getElem hi) ?_
    rw [hall i, List.getElem?_eq_getElem hi']
    rfl
  rw [h.eq_ok]
  constructor
  · rintro ⟨contributions, hall, hv⟩
    obtain ⟨pairs, hnames, rfl, rfl⟩ := (assemble_eq_ok (hof hall)).mp hv
    refine ⟨pairs, hnames, fun i => ?_, rfl⟩
    rw [hall i, List.getElem?_map, Option.map_map]
    rfl
  · rintro ⟨pairs, hnames, hpairs, rfl⟩
    have hall : ∀ i, outcomes i =
        (pairs.map fun p => Contribution.field p.1 p.2)[i]?.map .ok := by
      intro i
      rw [hpairs i, List.getElem?_map, Option.map_map]
      rfl
    exact ⟨_, hall, (assemble_eq_ok (hof hall)).mpr ⟨pairs, hnames, rfl, rfl⟩⟩

/-- A record is made just if every entry contributes a field. -/
theorem exists_iff (h : c.MadeOf policy outcomes decoded) : (∃ v, decoded = .ok v) ↔
    ∀ i outcome, outcomes i = some outcome → ∃ name value, outcome = .ok (.field name value) := by
  constructor
  · rintro ⟨v, hv⟩ i outcome houtcome
    obtain ⟨pairs, -, hpairs, -⟩ := h.eq_ok_iff.mp hv
    rw [hpairs i] at houtcome
    obtain ⟨p, -, rfl⟩ := Option.map_eq_some_iff.mp houtcome
    exact ⟨_, _, rfl⟩
  · intro hfields
    have hone (i : Fin c.entries.length) : ∃ value,
        outcomes i = some (.ok (.field c.entries[i].column.field value)) := by
      have hi : c.entries[i.1]? = some c.entries[i] := List.getElem?_eq_getElem i.2
      obtain ⟨outcome, houtcome⟩ := Option.isSome_iff_exists.mp
        ((h.defined i).trans (by rw [hi]; rfl))
      obtain ⟨name, value, rfl⟩ := hfields i outcome houtcome
      cases h.contributes i _ _ hi houtcome
      exact ⟨value, houtcome⟩
    choose values hvalues using hone
    refine ⟨_, h.eq_ok_iff.mpr ⟨List.ofFn fun i => (c.entries[i].column.field, values i), ?_,
      fun i => ?_, rfl⟩⟩
    · rw [List.map_ofFn]
      exact List.ofFn_getElem_eq_map c.entries (·.column.field)
    · by_cases hi : i < c.entries.length
      · rw [hvalues ⟨i, hi⟩, List.getElem?_ofFn, dif_pos hi]
        rfl
      · have hnone : outcomes i = none := by
          rw [← Option.isNone_iff_eq_none, ← Option.not_isSome, h.defined i]
          simpa using hi
        rw [hnone, List.getElem?_ofFn, dif_neg hi]
        rfl

variable (hi : outcomes i = some (.ok (.field name value)))

include hi

/-- Where one entry contributes a field, the others decide whether there is a record. -/
theorem exists_iff_others (h : c.MadeOf policy outcomes decoded) : (∃ v, decoded = .ok v) ↔
    ∀ j ≠ i, ∀ outcome, outcomes j = some outcome →
      ∃ name value, outcome = .ok (.field name value) := by
  rw [h.exists_iff]
  constructor
  · exact fun h j _ => h j
  · intro h j outcome hj
    by_cases hji : j = i
    · subst hji
      cases hi.symm.trans hj
      exact ⟨_, _, rfl⟩
    · exact h j hji outcome hj

/-- The field that an entry contributes is in the record, unless a later entry has its name. -/
theorem field (h : c.MadeOf policy outcomes decoded) (hv : decoded = .ok v) :
    ∃ fields : Dictionary String Value, v = c.make fields ∧
      (name ∉ (c.entries.drop (i + 1)).map (·.column.field) → fields.get? name = some value) := by
  obtain ⟨pairs, hnames, hpairs, rfl⟩ := h.eq_ok_iff.mp hv
  have hpair : pairs[i]? = some (name, value) := by
    obtain ⟨⟨name', value'⟩, hp, heq⟩ := Option.map_eq_some_iff.mp ((hpairs i).symm.trans hi)
    cases heq
    exact hp
  refine ⟨.ofList pairs, rfl, fun hlast => ?_⟩
  rw [List.map_drop, ← hnames, ← List.map_drop] at hlast
  exact Dictionary.get?_ofList_of_getElem? hpair hlast

end Catalog.MadeOf

/-- The fields of a decoded record are those of its entries, in order. -/
theorem Catalog.decode_fields {c : Catalog} {cursor : Cursor} {v : Value}
    (h : (c.decode converters policy cursor).1 = .ok v) :
    ∃ pairs : List (String × Value), pairs.map (·.1) = c.entries.map (·.column.field) ∧
      v = c.make (.ofList pairs) := by
  obtain ⟨typeName, entries, table, schema, maker⟩ := c
  rw [Catalog.decode] at h
  split at h
  · cases h
  · rename_i contributions c' hd
    have hof := Entry.decodeAll_of (congrArg Prod.fst hd)
    obtain ⟨pairs, hnames, -, hv⟩ :=
      (Catalog.assemble_eq_ok (c := ⟨typeName, entries, table, schema, maker⟩) hof).mp h
    exact ⟨pairs, hnames, hv⟩

theorem Catalog.decodeRow_fields {c : Catalog} {row : List (Option Value)} {v : Value}
    (h : (Group.record c).decodeRow converters policy row = .ok v) :
    ∃ pairs : List (String × Value), pairs.map (·.1) = c.entries.map (·.column.field) ∧
      v = c.make (.ofList pairs) := by
  unfold Group.decodeRow at h
  split at h
  · rw [Group.decode] at h
    exact Catalog.decode_fields h
  · cases h

end RowSchema
