import RowSchema.Proofs.Schema.Calls
import RowSchema.Proofs.Schema.Rows

/-! # Groups and the results that they are spliced from

A result is cached by one call. By the end of that call the record of each of its column groups,
looked up in the registry of that time, is cached with the result that the group was spliced from,
and neither is replaced later: not by a registration in between, nor by a derivation that fails. -/

namespace RowSchema

namespace Schema

variable {s : Schema} {k : Key} {d : Derivation Derived} {x : Derived}

/-- What becomes known by a call belongs to a registered record, and composes from results that are
known after the call. -/
theorem Intact.composes_of_cached (hs : s.Intact) {call : Call}
    (hfree : s.progress.cache.get? k = none)
    (hd : (s.after call).progress.cache.get? k = some d) (hx : d.result = some x) :
    s.registry.records.get? k = some x.record ∧
      Composes s.registry s.settings (Kept (s.after call).progress.cache) x.record x := by
  rcases after_cases hs.keyed call with ⟨records, hrecords⟩ | hextends
  · rw [hrecords, registerAll_cache, hfree] at hd
    cases hd
  · rcases hextends.composed k d hd with hold | ⟨r, hr, hcomposes⟩
    · rw [hfree] at hold
      cases hold
    · have hcomposes := hcomposes x hx
      rw [hcomposes.record_eq]
      exact ⟨hr, hcomposes⟩

/-- What becomes known in a run of calls becomes known by one of them. -/
theorem Intact.exists_call {calls : List Call} (hs : s.Intact)
    (hfree : s.progress.cache.get? k = none)
    (hd : (s.run calls).progress.cache.get? k = some d) :
    ∃ earlier call later, calls = earlier ++ call :: later ∧
      (s.run earlier).progress.cache.get? k = none ∧
      ((s.run earlier).after call).progress.cache.get? k = some d := by
  induction calls generalizing s with
  | nil =>
    rw [run_nil, hfree] at hd
    cases hd
  | cons call calls ih =>
    have hafter := hs.after call
    cases hk : (s.after call).progress.cache.get? k with
    | none =>
      obtain ⟨earlier, call', later, rfl, hbefore, hcached⟩ := ih hafter hk hd
      exact ⟨call :: earlier, call', later, rfl, hbefore, hcached⟩
    | some known =>
      -- what this call has made known is what is known in the end
      have hkept := hafter.grows_run calls k known hk
      rw [run_cons, hkept] at hd
      cases hd
      exact ⟨[], call, calls, rfl, hfree, hk⟩

/-- What becomes known in a run of calls, with the results that its groups are spliced from. -/
theorem Intact.spliced {calls : List Call} (hs : s.Intact)
    (hfree : s.progress.cache.get? k = none)
    (hd : (s.run calls).progress.cache.get? k = some d) (hx : d.result = some x) :
    ∃ earlier call later, calls = earlier ++ call :: later ∧
      (s.run earlier).registry.records.get? k = some x.record ∧
      (s.run earlier).progress.cache.get? k = none ∧
      (s.run (earlier ++ [call])).progress.cache.get? k = some d ∧
      ∀ e ∈ x.catalog.entries, ∀ g, e.members = some g → ∃ member known y,
        (s.run earlier).registry.groupRecord? x.record e = some member ∧
        known.result = some y ∧ g = y.catalog.asGroup ∧
        ∀ more, (s.run (calls ++ more)).progress.cache.get? member.key = some known := by
  obtain ⟨earlier, call, later, rfl, hbefore, hcached⟩ := hs.exists_call hfree hd
  have hearlier := hs.run earlier
  obtain ⟨hr, hcomposes⟩ := hearlier.composes_of_cached hbefore hcached hx
  refine ⟨earlier, call, later, rfl, hr, hbefore, ?_, ?_⟩
  · rw [run_append]
    exact hcached
  · intro e he g hg
    obtain ⟨member, y, hmember, ⟨known, hknown, hy⟩, hmembers⟩ :=
      hcomposes.entries_members he hg
    refine ⟨member, known, y, hmember, hy, hmembers, fun more => ?_⟩
    have hkept := (hearlier.after call).grows_run (later ++ more) _ known hknown
    rwa [List.append_assoc, run_append]

/-- Whatever is known after any calls became known by one of them; the record of each of its column
groups, as it was registered then, has a result whose catalog is that of the group, and is known
with it now and after all further calls. -/
theorem run_spliced (settings : Options) (calls : List Call)
    (hd : (Schema.run { settings } calls).progress.cache.get? k = some d)
    (hx : d.result = some x) :
    ∃ earlier call later, calls = earlier ++ call :: later ∧
      (Schema.run { settings } earlier).registry.records.get? k = some x.record ∧
      (Schema.run { settings } earlier).progress.cache.get? k = none ∧
      (Schema.run { settings } (earlier ++ [call])).progress.cache.get? k = some d ∧
      ∀ e ∈ x.catalog.entries, ∀ g, e.members = some g → ∃ member known y,
        (Schema.run { settings } earlier).registry.groupRecord? x.record e = some member ∧
        known.result = some y ∧ g = y.catalog.asGroup ∧
        ∀ more, (Schema.run { settings } (calls ++ more)).progress.cache.get? member.key =
          some known :=
  (Intact.empty settings).spliced rfl hd hx

/-- The shape is derived, and the point before it. -/
def shapeCalls : List Call :=
  [.register pointRecord, .register shapeRecord, .derive (.name "Shape")]

/-- The point that a shape has been spliced from is still known when everything has been derived. -/
theorem run_spliced_shape : ∃ d x e, ∃ member : Record, ∃ known y,
    (Schema.run {} shapeCalls).progress.cache.get? shapeRecord.key = some d ∧
    d.result = some x ∧ e ∈ x.catalog.entries ∧ e.members = some y.catalog.asGroup ∧
    known.result = some y ∧
    (Schema.run {} (shapeCalls ++ [.deriveAll])).progress.cache.get? member.key = some known := by
  have hd : (Schema.run {} shapeCalls).progress.cache.get? shapeRecord.key = some _ := rfl
  obtain ⟨_, _, _, -, -, -, -, hmembers⟩ := run_spliced {} shapeCalls hd rfl
  obtain ⟨member, known, y, -, hy, hg, hkept⟩ := hmembers _ List.mem_cons_self _ rfl
  exact ⟨_, _, _, member, known, y, hd, rfl, List.mem_cons_self, congrArg some hg, hy, hkept _⟩

end Schema

end RowSchema
