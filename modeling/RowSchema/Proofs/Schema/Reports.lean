import RowSchema.Command.Run
import RowSchema.Proofs.Schema.Located

/-! # The reports of a text

The records that an empty schema takes from a text have different names. So they may be derived one
after another or by name, and listed by name or in order: it is the same. No derivation is stopped,
each one fails just if it reports an error, and all that is reported points into the text. -/

namespace RowSchema

namespace Schema

variable {source : String} {s : Schema}

/-- All records are looked up by their names. -/
theorem deriveNamed_names
    (h : ∀ r ∈ s.registry.list, s.registry.record? (.name r.name) = some r) :
    s.deriveNamed (s.registry.list.map (·.name)) = s.deriveEach s.registry.list := by
  have hfound : s.registry.list.filterMap (fun r => s.registry.record? (.name r.name)) =
      s.registry.list := by
    rw [List.filterMap_congr h, List.filterMap_some]
  rw [deriveNamed, List.filterMap_map]
  exact congrArg s.deriveEach hfound

/-- The schema holds declarations of the text, from which nothing has been derived yet. -/
structure Declares (source : String) (s : Schema) : Prop where
  reachable : s.Reachable
  filled : s.Filled
  declared : ∀ r ∈ s.registry.list, r.reflected = none
  located : ∀ r ∈ s.registry.list, r.Located (·.Inside ⟨0, source.toList.length⟩)
  measured : (source.toList.length : Int) ≤ RangeError.longest →
    ∀ r ∈ s.registry.list, r.Measured

theorem declares_of_parse (settings : Options) (source : String) :
    (Schema.parse { settings } source).1.Declares source := by
  have hreachable := (Reachable.empty settings).parse source
  have hread {r : Record} (hr : r ∈ (Schema.parse { settings } source).1.registry.list) :
      ∃ records, Record.readAll source = .ok records ∧ r ∈ records :=
    (parse_origin (hreachable.keyed.get?_of_mem_list hr)).resolve_left nofun
  refine ⟨hreachable, ?_, fun r hr => ?_, fun r hr => ?_, fun hlength r hr => ?_⟩
  · obtain ⟨records, hparse⟩ := Schema.parse_fst { settings } source
    rw [hparse]
    exact (Filled.empty settings).registerAll records
  · obtain ⟨records, hrecords, hmem⟩ := hread hr
    exact Record.reflected_of_readAll hrecords hmem
  · obtain ⟨records, hrecords, hmem⟩ := hread hr
    exact Record.located_of_readAll hrecords r hmem
  · obtain ⟨records, hrecords, hmem⟩ := hread hr
    exact Record.measured_of_readAll hrecords hlength hmem

/-- The derivations of all records are known afterwards. -/
theorem Declares.known (h : s.Declares source) {ds : List (Derivation Derived)}
    (hds : (s.deriveEach s.registry.list).1 = .ok ds) :
    ∃ t, s.Explored t ∧ t.Reachable ∧ List.Forall₂ (fun r d =>
      t.registry.records.get? r.key = some r ∧ t.progress.cache.get? r.key = some d)
        s.registry.list ds := by
  have hregistered : ∀ r ∈ s.registry.list, s.registry.records.get? r.key = some r :=
    fun r => h.reachable.keyed.get?_of_mem_list
  obtain ⟨hregistry, -, hall, -⟩ :=
    deriveEach_known h.reachable.keyed h.reachable.known_closed hregistered
  refine ⟨_, .deriveAll .start rfl, .deriveAll h.reachable rfl,
    (List.forall₂_and_left _ _).mpr ⟨fun r hr => ?_, hall ds hds⟩⟩
  rw [hregistry]
  exact hregistered r hr

/-- All records of a text are derived, and what is reported about them points into the text. -/
theorem Declares.exists_derivations (h : s.Declares source)
    (hlength : (source.toList.length : Int) ≤ RangeError.longest) :
    ∃ ds, (s.deriveEach s.registry.list).1 = .ok ds ∧ ds.length = s.registry.list.length ∧
      (∀ d ∈ ds, d.Closed) ∧ ∀ d ∈ ds, d.Located (·.Inside ⟨0, source.toList.length⟩) := by
  have hkeyed := h.reachable.keyed
  obtain ⟨-, -, -, herror⟩ :=
    deriveEach_known hkeyed h.reachable.known_closed fun r => hkeyed.get?_of_mem_list
  obtain ⟨ds, hds⟩ : ∃ ds, (s.deriveEach s.registry.list).1 = .ok ds := by
    cases hoff : (s.deriveEach s.registry.list).1 with
    | ok ds => exact ⟨ds, rfl⟩
    | error e =>
      obtain ⟨r, hr, hstops⟩ := herror e hoff
      exact absurd hstops (hkeyed.not_stops (h.measured hlength) hr)
  obtain ⟨t, hexplored, hreachable, hknown⟩ := h.known hds
  have hlocated := hexplored.known_located h.filled h.located
  refine ⟨ds, hds, hknown.length_eq.symm, fun d hd => ?_, fun d hd => ?_⟩
  · obtain ⟨r, -, -, hget⟩ := exists_left_of_mem hknown hd
    exact hreachable.known_closed _ d hget
  · obtain ⟨r, -, -, hget⟩ := exists_left_of_mem hknown hd
    exact hlocated _ d hget

/-- Each derivation of all records has fix-its about one of them. -/
theorem Declares.suggested (h : s.Declares source)
    {all : Dictionary String (Derivation Derived)} (hall : s.deriveAll.1 = .ok all) :
    ∀ entry ∈ all, ∃ r ∈ s.registry.list, Suggested r.Suggests entry.2.diagnostics := by
  obtain ⟨ds, hds, rfl⟩ := map_eq_ok.mp hall
  obtain ⟨t, hexplored, -, hknown⟩ := h.known hds
  obtain ⟨-, habout⟩ := hexplored.known_about h.filled
  rintro ⟨name, d⟩ hentry
  have hmem := (List.of_mem_zip (Dictionary.mem_of_mem_ofList hentry)).2
  obtain ⟨r, hr, hregistered, hget⟩ := exists_left_of_mem hknown hmem
  exact ⟨r, hr, habout r.key d hget r hregistered⟩

/-- The derivations are those of all records, whichever way these are gone through. They fail
closed, and their diagnostics point into the text. -/
structure Reports (source : String) (s : Schema) (ds : List (Derivation Derived)) : Prop where
  contains : ∀ name ∈ s.registry.list.map (·.name), s.registry.contains (.name name) = true
  named : (s.deriveNamed (s.registry.list.map (·.name))).1 = .ok ds
  all : s.deriveAll.1 = .ok ((s.registry.list.map (·.name)).zip ds)
  length_eq : ds.length = s.registry.list.length
  closed : ∀ d ∈ ds, d.Closed
  located : ∀ d ∈ ds, d.Located (·.Inside ⟨0, source.toList.length⟩)

theorem Declares.exists_reports (h : s.Declares source)
    (hlength : (source.toList.length : Int) ≤ RangeError.longest) : ∃ ds, s.Reports source ds := by
  have hkeyed := h.reachable.keyed
  have hfound : ∀ r ∈ s.registry.list, s.registry.record? (.name r.name) = some r :=
    fun r hr => hkeyed.record?_name hr (h.declared r hr)
  obtain ⟨ds, hds, hsame, hclosed, hlocated⟩ := h.exists_derivations hlength
  refine ⟨ds, fun name hname => ?_, ?_, ?_, hsame, hclosed, hlocated⟩
  · obtain ⟨r, hr, rfl⟩ := List.mem_map.mp hname
    rw [hkeyed.contains_eq, hfound r hr]
    rfl
  · rw [deriveNamed_names hfound, hds]
  · have hkeys : ((s.registry.list.map (·.name)).zip ds).map (·.1) =
        s.registry.list.map (·.name) := by
      rw [List.map_fst_zip]
      rw [List.length_map, hsame]
    have hnodup := hkeyed.nodup_names h.declared
    rw [← hkeys] at hnodup
    show (s.deriveEach s.registry.list).1.map _ = _
    rw [hds]
    exact congrArg Except.ok (Dictionary.ofList_of_nodup hnodup)

/-- Every derivation has a result just if no error is reported. -/
theorem Reports.all_ok_iff {ds : List (Derivation Derived)} (h : s.Reports source ds) :
    ds.all (·.ok) = true ↔ ∀ d ∈ ds.flatMap (·.diagnostics), d.severity ≠ .error := by
  have hclean {d : Derivation Derived} (hd : d ∈ ds) :
      d.ok = true ↔ ∀ report ∈ d.diagnostics, report.severity ≠ .error := by
    rw [Derivation.ok, h.closed d hd, Bool.not_eq_true', Diagnostic.hasErrors, List.any_eq_false]
    simp [Diagnostic.isFatal]
  rw [List.all_eq_true, List.forall_mem_flatMap]
  exact forall₂_congr fun d hd => hclean hd

end Schema

end RowSchema
