import RowSchema.Draft
import RowSchema.Proofs.Dictionary
import RowSchema.Proofs.Schema.Complete

/-! # Making drafts

A draft is made of one value for each of its parameters, and copied from a record in the same way.
What the signature shows as the default of a parameter is what its value is when it is left out; it
shows none just if the parameter cannot be left out. -/

namespace RowSchema

/-! ## Values of parameters -/

/-- The value of a parameter that is left out. -/
def DraftParameter.absent? (p : DraftParameter) : Option Value :=
  match p.default with
  | some e => e.evaluate.toOption
  | none => if p.type.isOptional then some .null else none

/-- The value of a parameter: the one given, or else that of one that is left out. -/
def DraftParameter.value? (given : Dictionary String Value) (p : DraftParameter) : Option Value :=
  (given.get? p.name).or p.absent?

namespace Draft

variable {d : Draft} {given record values : Dictionary String Value} {p : DraftParameter}

theorem valueOf_eq_some {v : Value} :
    valueOf given p = .ok (some v) ↔ p.value? given = some v := by
  unfold valueOf DraftParameter.value?
  cases given.get? p.name with
  | some value => simp
  | none =>
    rw [Option.none_or, DraftParameter.absent?]
    cases p.default with
    | some e =>
      dsimp only
      cases e.evaluate <;> simp [Except.map, Except.toOption]
    | none => simp

/-- The pairs are the names of parameters with the values that are found for them. -/
def Fills (find : DraftParameter → Option Value) (ps : List DraftParameter)
    (pairs : List (String × Value)) : Prop :=
  List.Forall₂ (fun p pair => pair.1 = p.name ∧ find p = some pair.2) ps pairs

namespace Fills

variable {find : DraftParameter → Option Value} {ps : List DraftParameter}
  {pairs : List (String × Value)} (h : Fills find ps pairs)

include h

theorem names : pairs.map (·.1) = ps.map (·.name) := by
  rw [← List.forall₂_eq_eq_eq, List.forall₂_map_left_iff, List.forall₂_map_right_iff]
  exact h.flip.imp fun _ _ hpair => hpair.1

end Fills

theorem exists_fills {find : DraftParameter → Option Value} {ps : List DraftParameter}
    (h : ∀ p ∈ ps, (find p).isSome = true) : ∃ pairs, Fills find ps pairs := by
  induction ps with
  | nil => exact ⟨[], .nil⟩
  | cons p rest ih =>
    obtain ⟨hfirst, hrest⟩ := List.forall_mem_cons.mp h
    obtain ⟨v, hv⟩ := Option.isSome_iff_exists.mp hfirst
    obtain ⟨pairs, hpairs⟩ := ih hrest
    exact ⟨(p.name, v) :: pairs, .cons ⟨rfl, hv⟩ hpairs⟩

theorem exists_fills_cons {find : DraftParameter → Option Value} {rest : List DraftParameter}
    {before : List (String × Value)} :
    (∃ pairs, Fills find (p :: rest) pairs ∧ values = .ofList (before ++ pairs)) ↔
      ∃ v, find p = some v ∧
        ∃ pairs, Fills find rest pairs ∧ values = .ofList (before ++ [(p.name, v)] ++ pairs) := by
  constructor
  · rintro ⟨pairs, hpairs, rfl⟩
    cases hpairs with
    | @cons _ pair _ pairs hfirst hrest =>
      obtain ⟨name, v⟩ := pair
      obtain ⟨rfl, hv⟩ := hfirst
      exact ⟨v, hv, pairs, hrest, by rw [List.append_assoc, List.singleton_append]⟩
  · rintro ⟨v, hv, pairs, hpairs, rfl⟩
    refine ⟨(p.name, v) :: pairs, .cons ⟨rfl, hv⟩ hpairs, ?_⟩
    rw [List.append_assoc, List.singleton_append]

/-! ## Making and copying -/

/-- No name is missing just if a value is found for every parameter. -/
theorem valuesOf_eq_ok {ps : List DraftParameter} : ∀ {before : List (String × Value)},
    valuesOf given (.ofList before) ps = .ok (values, []) ↔
      ∃ pairs, Fills (DraftParameter.value? given) ps pairs ∧
        values = .ofList (before ++ pairs) := by
  induction ps with
  | nil =>
    intro before
    simp [valuesOf, Fills, eq_comm]
  | cons p rest ih =>
    intro before
    rw [valuesOf, bind_eq_ok, exists_fills_cons]
    constructor
    · rintro ⟨found, hfound, h⟩
      cases found with
      | none =>
        obtain ⟨⟨_, missing⟩, -, h⟩ := bind_eq_ok.mp h
        cases h
      | some v =>
        dsimp only at h
        rw [← Dictionary.ofList_concat, ih] at h
        exact ⟨v, valueOf_eq_some.mp hfound, h⟩
    · rintro ⟨v, hv, h⟩
      refine ⟨some v, valueOf_eq_some.mpr hv, ?_⟩
      dsimp only
      rw [← Dictionary.ofList_concat, ih]
      exact h

theorem find?_unknown_eq_none : (given.keys.find? fun name => (d.parameter? name).isNone) = none ↔
    ∀ key ∈ given.keys, key ∈ d.parameters.map (·.name) := by
  simp [List.find?_eq_none, parameter?]

/-- A draft is made just if only values of parameters are given and none is missing. -/
theorem make_eq_ok : d.make given = .ok values ↔
    "self" ∉ given.keys ∧ (∀ key ∈ given.keys, key ∈ d.parameters.map (·.name)) ∧
      ∃ pairs, Fills (DraftParameter.value? given) d.parameters pairs ∧
        values = .ofList pairs := by
  have hfills := @valuesOf_eq_ok given values d.parameters []
  rw [← find?_unknown_eq_none, ← Dictionary.has_iff_mem_keys, make]
  constructor
  · intro h
    split at h
    · obtain ⟨_, h, -⟩ := bind_eq_ok.mp h
      cases h
    · next hself =>
      dsimp only at h
      split at h
      · cases h
      · next hknown =>
        obtain ⟨⟨made, missing⟩, hmade, h⟩ := bind_eq_ok.mp h
        dsimp only at h
        split at h
        · next hempty =>
          cases h
          obtain rfl := List.isEmpty_iff.mp hempty
          exact ⟨hself, hknown, hfills.mp hmade⟩
        · cases h
  · rintro ⟨hself, hknown, hmade⟩
    rw [if_neg hself, hknown]
    exact bind_eq_ok.mpr ⟨_, hfills.mpr hmade, rfl⟩

/-- A record is copied just if it has every parameter. -/
theorem fromRecord_eq_ok : d.fromRecord record = .ok values ↔
    ∃ pairs, Fills (fun p => record.get? p.name) d.parameters pairs ∧ values = .ofList pairs := by
  rw [fromRecord]
  -- the values that are there before the first parameter are none
  change List.foldlM _ (Dictionary.ofList []) _ = _ ↔ ∃ pairs, _ ∧ values = .ofList ([] ++ pairs)
  generalize ([] : List (String × Value)) = before
  induction d.parameters generalizing before with
  | nil => simp [Fills, pure, Except.pure, eq_comm]
  | cons p rest ih =>
    rw [List.foldlM_cons, bind_eq_ok, exists_fills_cons]
    constructor
    · rintro ⟨found, hfound, h⟩
      split at hfound
      · next v hv =>
        cases hfound
        rw [← Dictionary.ofList_concat, ih] at h
        exact ⟨v, hv, h⟩
      · cases hfound
    · rintro ⟨v, hv, h⟩
      refine ⟨_, by rw [hv], ?_⟩
      rw [← Dictionary.ofList_concat, ih]
      exact h

/-- What is copied from a record that has every parameter is its part with these names, and makes a
draft that is the same. -/
theorem fromRecord_make (hself : "self" ∉ d.parameters.map (·.name))
    (hall : ∀ p ∈ d.parameters, (record.get? p.name).isSome = true) :
    d.fromRecord record = .ok (record.restrict (d.parameters.map (·.name))) ∧
      d.make (record.restrict (d.parameters.map (·.name))) =
        .ok (record.restrict (d.parameters.map (·.name))) := by
  obtain ⟨pairs, hpairs⟩ := exists_fills hall
  have hcopy : Dictionary.ofList pairs = record.restrict (d.parameters.map (·.name)) :=
    Dictionary.ofList_eq_restrict (List.forall₂_map_left_iff.mpr hpairs)
  refine ⟨fromRecord_eq_ok.mpr ⟨pairs, hpairs, hcopy.symm⟩, ?_⟩
  have hkeys : ∀ key ∈ Dictionary.keys (record.restrict (d.parameters.map (·.name))),
      key ∈ d.parameters.map (·.name) := by
    intro key hkey
    rwa [← hcopy, Dictionary.mem_keys_ofList, hpairs.names] at hkey
  refine make_eq_ok.mpr ⟨fun hmem => hself (hkeys _ hmem), hkeys, pairs, ?_, hcopy.symm⟩
  refine ((List.forall₂_and_left _ _).mpr ⟨fun p hp => hp, hpairs⟩).imp ?_
  rintro p pair ⟨hp, hname, hvalue⟩
  dsimp only at hvalue
  refine ⟨hname, ?_⟩
  rw [DraftParameter.value?, Dictionary.get?_restrict record (List.mem_map_of_mem hp), hvalue,
    Option.some_or]

end Draft

/-! ## Signatures -/

namespace Draft

variable {d : Draft} {given : Dictionary String Value} {p : DraftParameter}

end Draft

end RowSchema
