import RowSchema.Proofs.Editor.Faults
import RowSchema.Proofs.Editor.Offsets
import RowSchema.Proofs.Schema.Reports

/-! # The edits of an editor

A fix-it is about something that a record declares, so its span lies in the text of the record. An
editor makes an edit of it at a range of places, and these places tell the span. -/

namespace RowSchema

variable {source : String}

/-! ## The spans of fix-its -/

section

variable {fix : FixIt} {I : Span → Prop}

theorem Attribute.Located.fix_span {a : Attribute} (h : a.Located I) (hfix : a.Suggests fix) :
    SpanIn I fix.span := by
  cases hfix with
  | argument => exact h.span

theorem Field.Located.fix_span {f : Field} (h : f.Located I) (hfix : f.Suggests fix) :
    SpanIn I fix.span := by
  cases hfix with
  | argument ha hfix => exact (h.attributes _ ha).fix_span hfix
  | whole ha => exact (h.attributes _ ha).span
  | keyword hspan => exact hspan ▸ h.binding

/-- The fix-its of a record that is in a text are about spans there. -/
theorem Record.Suggests.inText {r : Record} {s : Span} (hfix : r.Suggests fix)
    (h : r.Located (·.Inside ⟨0, source.toList.length⟩)) (hs : fix.span = some s) :
    s.InText source := by
  have hinside (hin : SpanIn (·.Inside ⟨0, source.toList.length⟩) fix.span) : s.InText source := by
    obtain ⟨t, ht, hin⟩ := hin
    cases hs.symm.trans ht
    exact hin.inText
  cases hfix with
  | argument ha hfix => exact hinside ((h.attributes _ ha).fix_span hfix)
  | field hf hfix => exact hinside ((h.fields _ hf).fix_span hfix)
  | case hc hfix =>
    cases hfix with
    | argument ha hfix => exact hinside (((h.cases _ hc).attributes _ ha).fix_span hfix)
  | @type f span hf hspan =>
    -- the type is asked for behind the name, where nothing stands yet
    obtain ⟨t, ht, hin⟩ := (h.fields f hf).name
    cases hspan.symm.trans ht
    cases hs
    exact ⟨Int.le_trans hin.inText.start hin.inText.ordered, Int.le_refl _, hin.stop⟩

end

namespace Editor

variable {uri : String} {ms chosen : List Mark} {qs : List QuickFix}

/-! ## Fixes and quick fixes -/

/-- A mark has the fix-its of its diagnostic that have spans. -/
theorem Mark.fixes_of_eq_ok {d : Diagnostic} {m : Mark}
    (h : Mark.ofDiagnostic source uri d = .ok m) : m.fixes =
      d.fixIts.filterMap fun fix => fix.span.map (⟨fix.message, fix.replacement, ·⟩) := by
  unfold Mark.ofDiagnostic at h
  dsimp only at h
  split at h <;>
    obtain ⟨range, -, h⟩ := bind_eq_ok.mp h <;>
    obtain ⟨related, -, h⟩ := bind_eq_ok.mp h <;>
    (cases h; rfl)

/-- All fixes of a document are at spans of its text. -/
theorem fixes_inText (h : marks source uri = .ok ms) :
    ∀ m ∈ ms, ∀ fix ∈ m.fixes, fix.span.InText source := by
  intro m hm fix hfix
  rcases hparse : Schema.parse {} source with ⟨t, e | records⟩
  · obtain ⟨only, rfl, -, hnone⟩ := marks_of_error hparse h
    obtain rfl := List.mem_singleton.mp hm
    rw [hnone] at hfix
    cases hfix
  · have hdeclares := Schema.declares_of_parse {} source
    rw [hparse] at hdeclares
    unfold marks at h
    rw [hparse] at h
    obtain ⟨derivations, hall, h⟩ := bind_eq_ok.mp h
    obtain ⟨d, hd, hmark⟩ := exists_left_of_mem (mapM_eq_ok.mp h) hm
    obtain ⟨entry, hentry, hd⟩ := List.mem_flatMap.mp hd
    obtain ⟨r, hr, hsuggested⟩ := hdeclares.suggested hall entry hentry
    rw [Mark.fixes_of_eq_ok hmark] at hfix
    obtain ⟨fixIt, hmem, hfix⟩ := List.mem_filterMap.mp hfix
    obtain ⟨span, hspan, rfl⟩ := Option.map_eq_some_iff.mp hfix
    exact (hsuggested d hd fixIt hmem).inText (hdeclares.located r hr) hspan

/-- The quick fix offers the fix of the mark: it puts the same text in the place of the same span,
which it names by two places in the text. -/
structure QuickFix.Offers (source : String) (q : QuickFix) (m : Mark) (fix : Fix) : Prop where
  mark : q.mark = m
  title : q.title = fix.title
  text : q.text = fix.text
  places : q.range.start.IsIn source ∧ q.range.stop.IsIn source
  span : q.range.toSpan source = fix.span

theorem inText_of_mem (hfixes : ∀ m ∈ chosen, ∀ fix ∈ m.fixes, fix.span.InText source)
    {item : Mark × Fix} (hitem : item ∈ chosen.flatMap fun m => m.fixes.map (m, ·)) :
    item.2.span.InText source := by
  obtain ⟨m, hm, hitem⟩ := List.mem_flatMap.mp hitem
  obtain ⟨fix, hfix, rfl⟩ := List.mem_map.mp hitem
  exact hfixes m hm fix hfix

/-- The quick fixes of some marks offer the fixes of these marks in order. -/
theorem offers_of_quickFixes (hfixes : ∀ m ∈ chosen, ∀ fix ∈ m.fixes, fix.span.InText source)
    (h : quickFixes source chosen = .ok qs) :
    List.Forall₂ (fun item q => q.Offers source item.1 item.2)
      (chosen.flatMap fun m => m.fixes.map (m, ·)) qs := by
  refine ((List.forall₂_and_left _ _).mpr
    ⟨fun item => inText_of_mem hfixes, mapM_eq_ok.mp h⟩).imp ?_
  rintro ⟨m, fix⟩ q ⟨hin, hq⟩
  obtain ⟨range, hrange, hq⟩ := bind_eq_ok.mp hq
  cases hq
  obtain ⟨hplaces, hspan⟩ := PlaceRange.isIn_toSpan_of_ofSpan hin hrange
  exact ⟨rfl, rfl, rfl, hplaces, hspan⟩

theorem exists_quickFixes (hfixes : ∀ m ∈ chosen, ∀ fix ∈ m.fixes, fix.span.InText source)
    (hlength : (source.toList.length : Int) ≤ RangeError.limit) :
    ∃ qs, quickFixes source chosen = .ok qs := by
  refine exists_mapM_eq_ok fun item hitem => ?_
  have hrange := PlaceRange.ofSpan_eq_ok (fun n => Place.checked_of_length hlength)
    (inText_of_mem hfixes hitem)
  exact ⟨_, bind_eq_ok.mpr ⟨_, hrange, rfl⟩⟩

/-- A command and an editor name the same place of a text, the command counting from one, and the
place tells the offset: it is the only one in the text that has it. So both count places in the
order of offsets, and the range of each quick fix that an editor offers for marks of a document
tells the span of the fix. An editor fails only where a text is longer than it can count. -/
theorem places_tell_offsets (source uri : String) :
    (∀ n : Nat, LineColumn.ofOffset source n =
        ⟨(Place.ofOffset source n).line + 1, (Place.ofOffset source n).character + 1⟩ ∧
      (Place.ofOffset source n).toOffset source = n) ∧
    (∀ m n : Nat, ((Place.ofOffset source m).Before (Place.ofOffset source n) ↔ m < n) ∧
      ((LineColumn.ofOffset source m).Before (LineColumn.ofOffset source n) ↔ m < n)) ∧
    (∀ n : Nat, n ≤ source.toList.length →
      (∀ p : Place, p.IsIn source ∧ p.toOffset source = n ↔ p = Place.ofOffset source n) ∧
      (∀ p, (Place.ofOffset source n).checked = .ok p → p = Place.ofOffset source n) ∧
      ((source.toList.length : Int) ≤ RangeError.limit →
        ∃ p, (Place.ofOffset source n).checked = .ok p)) ∧
    ∀ ms chosen, marks source uri = .ok ms → chosen ⊆ ms →
      (∀ qs, quickFixes source chosen = .ok qs →
        List.Forall₂ (fun item q => q.Offers source item.1 item.2)
          (chosen.flatMap fun m => m.fixes.map (m, ·)) qs) ∧
      ((source.toList.length : Int) ≤ RangeError.limit →
        ∃ qs, quickFixes source chosen = .ok qs) := by
  refine ⟨fun n => ⟨Place.lineColumn_ofOffset source n, Place.toOffset_ofOffset source n⟩,
    fun m n => ⟨Place.ofOffset_before_iff, LineColumn.ofOffset_before_iff⟩,
    fun n hn => ⟨fun p => Place.isIn_toOffset_iff hn, ?_, ?_⟩, fun ms chosen hms hchosen => ?_⟩
  · exact fun p hp => (Place.checked_eq_ok_iff.mp hp).1
  · exact fun hlength => ⟨_, Place.checked_of_length hlength hn⟩
  · have hfixes : ∀ m ∈ chosen, ∀ fix ∈ m.fixes, fix.span.InText source :=
      fun m hm => fixes_inText hms m (hchosen hm)
    exact ⟨fun qs hqs => offers_of_quickFixes hfixes hqs,
      fun hlength => exists_quickFixes hfixes hlength⟩

/-- The attribute stands on the second line, after the brace. Its second argument goes. -/
theorem places_tell_offsets_column :
    let source := "@Table struct A\n\x7b@Column(\"b\", c: 1) var x: Int\x7d"
    let fix : Fix := ⟨"Remove 'c: 1'", "@Column(\"b\")", ⟨17, 35⟩⟩
    (∃ p, (Place.ofOffset source (17 : Nat)).checked = .ok p ∧ p.IsIn source ∧
        p.toOffset source = 17) ∧
      ∃ ms qs, marks source "" = .ok ms ∧ quickFixes source ms = .ok qs ∧
        ∃ m ∈ ms, ∃ q ∈ qs, fix ∈ m.fixes ∧ q.Offers source m fix := by
  have hread : Record.readAll "@Table struct A\n\x7b@Column(\"b\", c: 1) var x: Int\x7d" = .ok
      [{ name := "A"
         span := some ⟨0, 47⟩
         attributes := [{ name := "Table", span := some ⟨0, 6⟩ }]
         fields :=
           [{ name := "x", type := some { name := "Int" }
              attributes :=
                [{ name := "Column", span := some ⟨17, 35⟩
                   arguments :=
                     [⟨none, .string "b", some ⟨25, 28⟩⟩,
                       ⟨some "c", .integer 1, some ⟨30, 34⟩⟩] }]
              span := some ⟨17, 46⟩, bindingSpan := some ⟨36, 39⟩
              nameSpan := some ⟨40, 41⟩ }] }] := by
    rw [Record.readAll]
    conv in Token.scan _ => cbv
    rfl
  obtain ⟨ms, hms, m, hm, hfix⟩ : ∃ ms,
      marks "@Table struct A\n\x7b@Column(\"b\", c: 1) var x: Int\x7d" "" = .ok ms ∧
        ∃ m ∈ ms, ⟨"Remove 'c: 1'", "@Column(\"b\")", ⟨17, 35⟩⟩ ∈ m.fixes := by
    rw [marks, Schema.parse, hread]
    refine ⟨_, rfl, _, List.mem_cons_self, ?_⟩
    exact List.mem_cons_self
  intro source fix
  have hlength : (source.toList.length : Int) ≤ RangeError.limit := by decide
  obtain ⟨-, -, hchecked, hquick⟩ := places_tell_offsets source ""
  obtain ⟨htells, honly, hexists⟩ := hchecked 17 (by decide)
  obtain ⟨p, hp⟩ := hexists hlength
  obtain ⟨hoffers, hsome⟩ := hquick ms ms hms (List.Subset.refl ms)
  obtain ⟨qs, hqs⟩ := hsome hlength
  refine ⟨⟨p, hp, ?_⟩, ms, qs, hms, hqs, m, hm, ?_⟩
  · exact (htells p).mpr (honly p hp)
  · obtain ⟨q, hq, hoffer⟩ := exists_right_of_mem (hoffers qs hqs)
      (List.mem_flatMap.mpr ⟨m, hm, List.mem_map.mpr ⟨fix, hfix, rfl⟩⟩)
    exact ⟨q, hq, hfix, hoffer⟩

end Editor

end RowSchema
