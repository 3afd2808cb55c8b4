import Mathlib.Data.List.Nodup
import Mathlib.Logic.Relation
import RowSchema.Proofs.Dictionary
import RowSchema.Proofs.Schema.Members
import RowSchema.RecordClass.Reflection

/-! # Schemas that can come about

A schema starts out empty, and records are registered and derived in any order. What is registered
stays under its own key, and what is derived is kept. -/

namespace RowSchema

/-! ## Registries -/

/-- Every record is under its own key, and every name stands for a registered one. -/
structure Registry.Keyed (registry : Registry) : Prop where
  nodup : registry.records.keys.Nodup
  key_eq : ∀ k r, registry.records.get? k = some r → r.key = k
  named : ∀ n k, registry.names.get? n = some k → ∃ r, registry.records.get? k = some r

namespace Registry

variable {registry registry' : Registry} {r : Record}

theorem Keyed.empty : Keyed {} := by
  refine ⟨List.nodup_nil, ?_, ?_⟩
  · intro k r h
    cases h
  · intro n k h
    cases h

theorem register?_eq_some (hr : registry.register? r = some registry') :
    (∀ existing, registry.records.get? r.key = some existing → existing.same r = true) ∧
      registry' =
        { records := registry.records.put r.key r, names := registry.names.put r.name r.key } := by
  unfold Registry.register? at hr
  dsimp only at hr
  split at hr
  · rename_i existing hget
    split at hr <;> cases hr
    rename_i hsame
    refine ⟨?_, rfl⟩
    intro other hother
    rw [hget] at hother
    cases hother
    exact hsame
  · rename_i hget
    cases hr
    refine ⟨?_, rfl⟩
    intro other hother
    rw [hget] at hother
    cases hother

theorem Keyed.register? (h : registry.Keyed) (hr : registry.register? r = some registry') :
    registry'.Keyed := by
  obtain ⟨-, rfl⟩ := register?_eq_some hr
  refine ⟨Dictionary.nodup_keys_put h.nodup _ _, ?_, ?_⟩
  · intro k r' hget
    rcases Dictionary.get?_put_eq hget with ⟨rfl, rfl⟩ | hget
    · rfl
    · exact h.key_eq k r' hget
  · intro n k hget
    by_cases hk : k = r.key
    · rw [hk]
      exact ⟨r, Dictionary.get?_put_self _ _ _⟩
    · dsimp only
      rw [Dictionary.get?_put_of_ne _ _ hk]
      rcases Dictionary.get?_put_eq hget with ⟨-, rfl⟩ | hget
      · exact absurd rfl hk
      · exact h.named n k hget

/-- What a reference stands for is registered under its own key. -/
theorem Keyed.get?_of_record? (h : registry.Keyed) {reference : Reference}
    (hr : registry.record? reference = some r) : registry.records.get? r.key = some r := by
  obtain ⟨k, -, hget⟩ := Option.bind_eq_some_iff.mp hr
  rwa [h.key_eq k r hget]

theorem Keyed.get?_of_refers (h : registry.Keyed) {m : Record} (hm : registry.Refers r m) :
    registry.records.get? m.key = some m := by
  cases hm with
  | field _ _ _ _ _ _ found => exact h.get?_of_record? found
  | payload _ _ _ _ _ _ found => exact h.get?_of_record? found

theorem Keyed.get?_of_reaches (h : registry.Keyed) (hr : registry.records.get? r.key = some r)
    {m : Record} (hm : Relation.ReflTransGen registry.Refers r m) :
    registry.records.get? m.key = some m := by
  cases hm with
  | refl => exact hr
  | tail _ hm => exact h.get?_of_refers hm

theorem Keyed.get?_of_mem_list (h : registry.Keyed) (hr : r ∈ registry.list) :
    registry.records.get? r.key = some r := by
  obtain ⟨⟨k, r⟩, hmem, rfl⟩ := List.mem_map.mp hr
  have hget := Dictionary.get?_of_mem h.nodup hmem
  rwa [h.key_eq k r hget]

/-- A key is looked up by its name or class. -/
theorem record?_of_declared {n : String} (h : registry.records.get? (.declared n) = some r) :
    registry.record? (.name n) = some r := by
  have hhas : registry.records.has (.declared n) = true := by
    rw [Dictionary.has, h]
    rfl
  rw [record?, key?, if_pos hhas, Option.bind_some, h]

theorem record?_of_reflected {id : ClassId} (h : registry.records.get? (.reflected id) = some r) :
    registry.record? (.reflected id) = some r := by
  have hhas : registry.records.has (.reflected id) = true := by
    rw [Dictionary.has, h]
    rfl
  rw [record?, key?, if_pos hhas, Option.bind_some, h]

/-- Every registered record has a reference: its own key. -/
theorem Keyed.exists_reference (h : registry.Keyed) (hr : r ∈ registry.list) :
    ∃ reference, registry.record? reference = some r := by
  have hget := h.get?_of_mem_list hr
  cases hk : r.key with
  | declared n => exact ⟨.name n, record?_of_declared (hk ▸ hget)⟩
  | reflected id => exact ⟨.reflected id, record?_of_reflected (hk ▸ hget)⟩

/-- A record that is not that of a class is looked up by its name. -/
theorem Keyed.record?_name (h : registry.Keyed) (hr : r ∈ registry.list)
    (hdeclared : r.reflected = none) : registry.record? (.name r.name) = some r := by
  have hkey : r.key = .declared r.name := by rw [Record.key, hdeclared]
  exact record?_of_declared (hkey ▸ h.get?_of_mem_list hr)

theorem Keyed.keys_eq (h : registry.Keyed) : registry.records.keys = registry.list.map (·.key) := by
  rw [Dictionary.keys, list, List.map_map]
  refine List.map_congr_left fun entry hmem => ?_
  exact (h.key_eq _ _ (Dictionary.get?_of_mem h.nodup hmem)).symm

/-- Records that are not those of classes have different names. -/
theorem Keyed.nodup_names (h : registry.Keyed)
    (hdeclared : ∀ r ∈ registry.list, r.reflected = none) :
    (registry.list.map (·.name)).Nodup := by
  have hkeys : registry.list.map (·.key) = (registry.list.map (·.name)).map .declared := by
    rw [List.map_map]
    refine List.map_congr_left fun r hr => ?_
    rw [Record.key, hdeclared r hr]
    rfl
  have hnodup := h.nodup
  rw [h.keys_eq, hkeys] at hnodup
  exact hnodup.of_map _

/-- A reference stands for a record whenever it stands for a key. -/
theorem Keyed.contains_eq (h : registry.Keyed) (reference : Reference) :
    registry.contains reference = (registry.record? reference).isSome := by
  have hkey : ∀ k, registry.key? reference = some k → (registry.records.get? k).isSome := by
    intro k hk
    cases reference with
    | reflected id =>
      rw [key?] at hk
      split at hk <;> cases hk
      assumption
    | name n =>
      rw [key?] at hk
      split at hk
      · cases hk
        assumption
      · obtain ⟨r, hr⟩ := h.named n k hk
        rw [hr]
        rfl
  rw [contains, record?]
  cases hk : registry.key? reference with
  | none => rfl
  | some k =>
    rw [Option.bind_some, hkey k hk]
    rfl

/-- Different keys are no more than there are records. -/
theorem length_le_of_keys {closed : List Key} (hnodup : closed.Nodup)
    (hclosed : ∀ k ∈ closed, ∃ c, registry.records.get? k = some c) :
    closed.length ≤ registry.records.length := by
  have hsub : closed ⊆ registry.records.keys := by
    intro k hk
    obtain ⟨c, hc⟩ := hclosed k hk
    exact List.mem_map_of_mem (Dictionary.mem_of_get? hc)
  have := (List.subperm_of_subset hnodup hsub).length_le
  rwa [Dictionary.keys, List.length_map] at this

end Registry

/-! ## Schemas -/

namespace Schema

/-- Schemas in which records are registered and nothing has been derived. -/
inductive Filled : Schema → Prop
  | empty (settings : Options) : Filled { settings }
  | register {s t : Schema} {r : Record} (h : Filled s) (hr : s.register r = .ok t) : Filled t

/-- Schemas that come about by registering and deriving, in any order. -/
inductive Reachable : Schema → Prop
  | empty (settings : Options) : Reachable { settings }
  | register {s t : Schema} {r : Record} (h : Reachable s) (hr : s.register r = .ok t) :
      Reachable t
  | derive {s t : Schema} {reference : Reference}
      {derivation : Except RangeError (Derivation Derived)} (h : Reachable s)
      (hd : s.derive? reference = some (derivation, t)) : Reachable t
  | deriveAll {s t : Schema}
      {derivations : Except RangeError (Dictionary String (Derivation Derived))}
      (h : Reachable s) (hd : s.deriveAll = (derivations, t)) : Reachable t

/-- The schemas that derivations lead to, with no registration in between. -/
inductive Explored (s : Schema) : Schema → Prop
  | start : Explored s s
  | derive {t u : Schema} {reference : Reference}
      {derivation : Except RangeError (Derivation Derived)} (h : Explored s t)
      (hd : t.derive? reference = some (derivation, u)) : Explored s u
  | deriveAll {t u : Schema}
      {derivations : Except RangeError (Dictionary String (Derivation Derived))}
      (h : Explored s t) (hd : t.deriveAll = (derivations, u)) : Explored s u

/-- Deriving the reference returns a result. -/
def Yields (s : Schema) (reference : Reference) (x : Derived) : Prop :=
  ∃ derivation t, s.derive? reference = some (.ok derivation, t) ∧ derivation.result = some x

variable {s t : Schema} {r : Record}

theorem register_eq_ok (hr : s.register r = .ok t) :
    s.registry.register? r = some t.registry ∧ t.settings = s.settings ∧
      t.progress.cache = s.progress.cache := by
  unfold register at hr
  split at hr
  · rename_i registry hregistry
    cases hr
    exact ⟨hregistry, rfl, rfl⟩
  · cases hr

/-- Deriving registers nothing. -/
theorem deriveRecord_registry (s : Schema) (r : Record) :
    (s.deriveRecord r).2.registry = s.registry := rfl

/-- Records that cannot all be registered leave the first ones registered. -/
theorem registerAll_keeps {P : Schema → Prop}
    (step : ∀ s t r, P s → s.register r = .ok t → P t) (hs : P s) (records : List Record) :
    P (s.registerAll records).1 := by
  induction records generalizing s with
  | nil => exact hs
  | cons r rest ih =>
    rw [Schema.registerAll]
    cases hr : s.register r with
    | ok t => exact ih (step s t r hs hr)
    | error e => exact hs

theorem parse_fst (s : Schema) (source : String) :
    ∃ records, (s.parse source).1 = (s.registerAll records).1 := by
  unfold Schema.parse
  split
  · exact ⟨[], rfl⟩
  · rename_i records _
    refine ⟨records, ?_⟩
    split
    · rename_i hregister
      rw [hregister]
    · rename_i hregister
      rw [hregister]

theorem registerClass_eq_ok {attr : Attribute} {c : AnyClass}
    (hc : s.registerClass attr c = .ok (t, r)) : s.register r = .ok t ∧
      ∃ recordClass, c = .record recordClass ∧ recordClass.record s.registry attr = .ok r := by
  cases c with
  | plain id => cases hc
  | record c =>
    obtain ⟨r', hrecord, hc⟩ := bind_eq_ok.mp hc
    obtain ⟨s', hs, hc⟩ := bind_eq_ok.mp hc
    cases hc
    refine ⟨?_, c, rfl, hrecord⟩
    cases hr : s.register r with
    | ok t' =>
      rw [hr] at hs
      cases hs
      rfl
    | error e =>
      rw [hr] at hs
      cases hs

theorem Filled.registerAll (h : s.Filled) (records : List Record) :
    (s.registerAll records).1.Filled :=
  registerAll_keeps (fun _ _ _ => .register) h records

theorem Reachable.registerAll (h : s.Reachable) (records : List Record) :
    (s.registerAll records).1.Reachable :=
  registerAll_keeps (fun _ _ _ => .register) h records

theorem Reachable.parse (h : s.Reachable) (source : String) : (s.parse source).1.Reachable := by
  obtain ⟨records, hparse⟩ := s.parse_fst source
  rw [hparse]
  exact h.registerAll records

theorem Reachable.registerClass (h : s.Reachable) {attr : Attribute} {c : AnyClass}
    (hc : s.registerClass attr c = .ok (t, r)) : t.Reachable :=
  h.register (registerClass_eq_ok hc).1

theorem Filled.keyed (h : s.Filled) : s.registry.Keyed := by
  induction h with
  | empty settings => exact .empty
  | register _ hr ih => exact ih.register? (register_eq_ok hr).1

theorem Filled.cache_eq (h : s.Filled) : s.progress.cache = [] := by
  induction h with
  | empty settings => rfl
  | register _ hr ih => rw [(register_eq_ok hr).2.2, ih]

/-! ### One record after another -/

section Steps

variable {P : Schema → Prop}
  (step : ∀ t r, P t → t.registry.records.get? r.key = some r → P (t.deriveRecord r).2)

include step

/-- What the derivation of one record keeps is kept by those of several. -/
theorem deriveEach_keeps : ∀ (records : List Record) (s : Schema),
    (∀ r ∈ records, s.registry.records.get? r.key = some r) → P s → P (s.deriveEach records).2
  | [], s, _, hs => hs
  | r :: rest, s, hrecords, hs => by
    have hone := step s r hs (hrecords r List.mem_cons_self)
    have hrest := deriveEach_keeps rest (s.deriveRecord r).2
      (fun r' hr' => hrecords r' (List.mem_cons_of_mem _ hr')) hone
    rw [deriveEach]
    rcases hr : s.deriveRecord r with ⟨_ | derivation, t⟩
    · rwa [hr] at hone
    · rwa [hr] at hrest

theorem derive?_keeps (hkeyed : s.registry.Keyed) (hs : P s) {reference : Reference}
    {derivation : Except RangeError (Derivation Derived)}
    (hd : s.derive? reference = some (derivation, t)) : P t := by
  obtain ⟨r, hr, hd⟩ := Option.map_eq_some_iff.mp hd
  have hone := step s r hs (hkeyed.get?_of_record? hr)
  rwa [hd] at hone

theorem deriveAll_keeps (hkeyed : s.registry.Keyed) (hs : P s)
    {derivations : Except RangeError (Dictionary String (Derivation Derived))}
    (hd : s.deriveAll = (derivations, t)) : P t := by
  have hall := deriveEach_keeps step s.registry.list s (fun _ => hkeyed.get?_of_mem_list) hs
  have ht : (s.deriveEach s.registry.list).2 = t := congrArg Prod.snd hd
  rwa [ht] at hall

/-- What the derivation of one record keeps holds wherever derivations lead. -/
theorem Explored.keeps (h : s.Explored t) (hkeyed : ∀ u, P u → u.registry.Keyed) (hs : P s) :
    P t := by
  induction h with
  | start => exact hs
  | derive _ hd ih => exact derive?_keeps step (hkeyed _ ih) ih hd
  | deriveAll _ hd ih => exact deriveAll_keeps step (hkeyed _ ih) ih hd

end Steps

/-- Registering and deriving keep what they each keep. -/
theorem Reachable.keeps {P : Schema → Prop} (empty : ∀ settings, P { settings })
    (register : ∀ s t r, P s → s.register r = .ok t → P t)
    (step : ∀ t r, P t → t.registry.records.get? r.key = some r → P (t.deriveRecord r).2)
    (h : s.Reachable) : P s ∧ s.registry.Keyed := by
  have hstep : ∀ t r, P t ∧ t.registry.Keyed → t.registry.records.get? r.key = some r →
      P (t.deriveRecord r).2 ∧ (t.deriveRecord r).2.registry.Keyed :=
    fun t r ht hr => ⟨step t r ht.1 hr, ht.2⟩
  induction h with
  | empty settings => exact ⟨empty settings, .empty⟩
  | register _ hr ih => exact ⟨register _ _ _ ih.1 hr, ih.2.register? (register_eq_ok hr).1⟩
  | derive _ hd ih => exact derive?_keeps hstep ih.2 ih hd
  | deriveAll _ hd ih => exact deriveAll_keeps hstep ih.2 ih hd

theorem Reachable.keyed (h : s.Reachable) : s.registry.Keyed :=
  (h.keeps (P := fun _ => True) (fun _ => trivial) (fun _ _ _ _ _ => trivial)
    fun _ _ _ _ => trivial).2

end Schema

end RowSchema
