import Mathlib.Data.List.Forall2
import RowSchema.Proofs.Schema.Classes
import RowSchema.Proofs.Schema.Closed

/-! # Deriving everything

The derivations of all records are listed by name. A schema may hold several records of one name: a
declaration and classes, or classes only. Then the list has one outcome for all of them, that of the
record registered last, in the place of the first. -/

namespace RowSchema

namespace Registry

variable {registry : Registry} {r : Record}

/-- No derivation is stopped where the spans of all records have lengths. -/
theorem Keyed.not_stops (h : registry.Keyed) (hmeasured : ∀ m ∈ registry.list, m.Measured)
    (hr : r ∈ registry.list) : ¬ registry.Stops r := by
  rintro ⟨m, hreach, hunmeasured⟩
  have hm := Dictionary.mem_of_get? (h.get?_of_reaches (h.get?_of_mem_list hr) hreach)
  exact hunmeasured (hmeasured m (List.mem_map.mpr ⟨_, hm, rfl⟩))

end Registry

namespace Schema

variable {s t : Schema} {r : Record} {d : Derivation Derived}

/-- The record is registered, and every reference to it gives the derivation. -/
structure Gives (t : Schema) (r : Record) (d : Derivation Derived) : Prop where
  registered : ∃ reference, t.registry.record? reference = some r
  given : ∀ reference, t.registry.record? reference = some r →
    ∃ u, t.derive? reference = some (.ok d, u)

theorem Gives.of_known (hkeyed : t.registry.Keyed) (hr : r ∈ t.registry.list)
    (hd : t.progress.cache.get? r.key = some d) : t.Gives r d := by
  refine ⟨hkeyed.exists_reference hr, fun reference hreference => ?_⟩
  exact ⟨_, by rw [derive?, hreference, Option.map_some, deriveRecord_of_known hd]⟩

/-- Derivations one after another: all of them are known in the end, unless one is stopped. -/
theorem deriveEach_known : ∀ {records : List Record} {t : Schema}, t.registry.Keyed →
    Known (fun _ d => d.Closed) t.progress.cache →
    (∀ r ∈ records, t.registry.records.get? r.key = some r) →
    (t.deriveEach records).2.registry = t.registry ∧
      Grows t.progress.cache (t.deriveEach records).2.progress.cache ∧
      (∀ ds, (t.deriveEach records).1 = .ok ds → List.Forall₂ (fun r d =>
        (t.deriveEach records).2.progress.cache.get? r.key = some d) records ds) ∧
      ∀ e, (t.deriveEach records).1 = .error e → ∃ r ∈ records, t.registry.Stops r
  | [], t, _, _, _ => by
    refine ⟨rfl, fun _ _ h => h, ?_, ?_⟩
    · intro ds hds
      cases hds
      exact .nil
    · intro e he
      cases he
  | r :: rest, t, hkeyed, hclosed, hrecords => by
    obtain ⟨hextends, hkept⟩ :=
      (Extends.refl t).deriveRecord hkeyed (hrecords r List.mem_cons_self)
    obtain ⟨hclosed, -, hstops⟩ := deriveRecord_closed hclosed r
    rw [deriveEach]
    rcases hrun : t.deriveRecord r with ⟨outcome, u⟩
    rw [hrun] at hextends hkept hclosed hstops
    have hregistry := hextends.registry_eq
    cases outcome with
    | error e =>
      refine ⟨hregistry, hextends.grows, ?_, fun _ _ => ?_⟩
      · intro ds hds
        cases hds
      · exact ⟨r, List.mem_cons_self, hstops e rfl⟩
    | ok d =>
      obtain ⟨hsame, hgrows, hall, herror⟩ := deriveEach_known (hregistry ▸ hkeyed) hclosed
        fun r' hr' => hregistry ▸ hrecords r' (List.mem_cons_of_mem _ hr')
      dsimp only
      refine ⟨hsame.trans hregistry, IsTrans.trans _ _ _ hextends.grows hgrows, ?_, ?_⟩
      · intro ds hds
        obtain ⟨more, hmore, rfl⟩ := map_eq_ok.mp hds
        exact .cons (hgrows _ d (hkept d rfl)) (hall more hmore)
      · intro e he
        cases hmore : (u.deriveEach rest).1 with
        | ok more =>
          rw [hmore] at he
          cases he
        | error e' =>
          obtain ⟨r', hr', hstops⟩ := herror e' hmore
          exact ⟨r', List.mem_cons_of_mem _ hr', hregistry ▸ hstops⟩

/-- All records are derived, in the order in which they were registered, unless one is stopped. The
list of the outcomes has every name once, where it was registered first, and with the outcome of the
record that was registered last. So it has one outcome for each record just if their names are
different, and then it has them in order. -/
theorem Reachable.deriveAll_outcomes (hs : s.Reachable) :
    ∃ outcome t, s.deriveAll = (outcome, t) ∧ t.registry = s.registry ∧
      ((∀ r ∈ s.registry.list, r.Measured) → ∃ all, outcome = .ok all) ∧
      ∀ all, outcome = .ok all →
        ∃ derivations, List.Forall₂ t.Gives s.registry.list derivations ∧
          all.keys = (s.registry.list.map (·.name)).eraseDups ∧
          (∀ (i : Nat) r d, s.registry.list[i]? = some r → derivations[i]? = some d →
            r.name ∉ (s.registry.list.drop (i + 1)).map (·.name) → all.get? r.name = some d) ∧
          (all.length = s.registry.list.length ↔ (s.registry.list.map (·.name)).Nodup) ∧
          ((s.registry.list.map (·.name)).Nodup →
            all = (s.registry.list.map (·.name)).zip derivations) := by
  have hkeyed := hs.keyed
  have hlist : ∀ r ∈ s.registry.list, s.registry.records.get? r.key = some r :=
    fun r hr => hkeyed.get?_of_mem_list hr
  obtain ⟨hregistry, -, hall, herror⟩ := deriveEach_known hkeyed hs.known_closed hlist
  refine ⟨_, _, rfl, hregistry, fun hmeasured => ?_, fun all hok => ?_⟩
  · cases hoff : (s.deriveEach s.registry.list).1 with
    | ok ds => exact ⟨_, rfl⟩
    | error e =>
      obtain ⟨r, hr, hstops⟩ := herror e hoff
      exact absurd hstops (hkeyed.not_stops hmeasured hr)
  · obtain ⟨ds, hds, rfl⟩ := map_eq_ok.mp hok
    have hknown := hall ds hds
    have hlength := hknown.length_eq
    have hnames : (((s.registry.list.map (·.name)).zip ds).map (·.1)) =
        s.registry.list.map (·.name) := by
      rw [List.map_fst_zip]
      rw [List.length_map, hlength]
    refine ⟨ds, ?_, ?_, fun i r d hr hd hlater => ?_, ?_, fun hnodup => ?_⟩
    · refine ((List.forall₂_and_left _ _).mpr ⟨fun r hr => hr, hknown⟩).imp fun r d h => ?_
      exact .of_known (by rwa [hregistry]) (by rw [hregistry]; exact h.1) h.2
    · rw [Dictionary.keys_ofList, hnames]
    · refine Dictionary.get?_ofList_of_getElem? (i := i) ?_ ?_
      · rw [List.getElem?_zip_eq_some]
        exact ⟨by rw [List.getElem?_map, hr]; rfl, hd⟩
      · rwa [List.map_drop, hnames, ← List.map_drop]
    · have hsame := Dictionary.length_ofList_eq_iff ((s.registry.list.map (·.name)).zip ds)
      rw [hnames, List.length_zip, List.length_map, hlength, Nat.min_self] at hsame
      rw [hlength]
      exact hsame
    · refine Dictionary.ofList_of_nodup ?_
      rwa [hnames]

/-- The shapes are derived in order, each under its own name. -/
theorem deriveAll_shapes : ∃ derivations t,
    shapes.deriveAll = (.ok (["Point", "Shape"].zip derivations), t) ∧
      List.Forall₂ t.Gives [pointRecord, shapeRecord] derivations := by
  obtain ⟨outcome, t, hd, -, hok, hall⟩ := shapes_reachable.deriveAll_outcomes
  obtain ⟨all, rfl⟩ := hok fun r hr => by
    have hmem : r ∈ [pointRecord, shapeRecord] := hr
    simp only [List.mem_cons, List.not_mem_nil, or_false] at hmem
    rcases hmem with rfl | rfl
    · constructor <;> simp [pointRecord]
    · constructor <;> simp [shapeRecord]
  obtain ⟨derivations, hgives, -, -, -, hzip⟩ := hall all rfl
  obtain rfl := hzip (by decide)
  exact ⟨derivations, t, hd, hgives⟩

/-- Two classes of one name are registered. -/
def addresses : Schema :=
  Schema.run {} [.decorate .selection (.record streetClass),
    .decorate .selection (.record postalClass)]

/-- Not every registered record has an outcome of its own. -/
theorem not_deriveAll_each : ¬ ∀ (s : Schema) (all : Dictionary String (Derivation Derived))
    (t : Schema), s.Reachable → s.deriveAll = (.ok all, t) →
    List.Forall₂ (fun r entry => entry.1 = r.name ∧ t.Gives r entry.2) s.registry.list all := by
  intro h
  have hd : addresses.deriveAll = (.ok _, _) := rfl
  have hlength := (h addresses _ _ ((Reachable.empty {}).run _) hd).length_eq
  cases hlength

end Schema

end RowSchema
