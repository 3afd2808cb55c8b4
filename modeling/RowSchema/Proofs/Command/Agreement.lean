import RowSchema.Proofs.Editor.Faults
import RowSchema.Proofs.Editor.Offsets
import RowSchema.Proofs.Schema.Reports

/-! # The command and the editor

A command and an editor show the same diagnostics of a text, in the same order and at the same
places: the command counts lines and characters from one, the editor from zero. The command succeeds
just if the editor marks no error. But the editor has limits of its own: there are texts for which
it has no marks at all, since it cannot count to a place that it is to mark. -/

namespace RowSchema

open Editor

/-! ## Places and marks -/

/-- An editor can count to every place of the text. -/
def Place.AllCountable (source : String) : Prop :=
  ∀ n : Nat, n ≤ source.toList.length → (Place.ofOffset source n).Countable

theorem Place.allCountable_of_length {source : String}
    (h : (source.toList.length : Int) < RangeError.limit) : Place.AllCountable source := by
  intro n hn
  obtain ⟨hline, hcharacter⟩ := Place.ofOffset_le source n
  constructor <;> omega

theorem Place.AllCountable.checked {source : String} (h : Place.AllCountable source) (n : Nat)
    (hn : n ≤ source.toList.length) :
    (Place.ofOffset source n).checked = .ok (Place.ofOffset source n) :=
  Place.checked_ofOffset (h n hn).1 (Int.le_of_lt (h n hn).2)

namespace Editor

variable {source uri : String} {d : Diagnostic} {m : Mark} {ms : List Mark}

/-- The mark shows the diagnostic, where the span of the diagnostic starts. That is the place that a
report names in front, counted from one. -/
structure Mark.Shows (source : String) (m : Mark) (d : Diagnostic) : Prop where
  severity : m.severity = d.severity
  message : m.message = d.message
  start : ∃ span, d.span = some span ∧ m.range.start = Place.ofOffset source span.start
  headline : ∀ path, ∃ rest, d.report source path =
    path ++ ":" ++ toString (m.range.start.line + 1) ++ ":" ++
      toString (m.range.start.character + 1) ++ ": " ++ m.severity.text ++ ": " ++ m.message ++ rest

theorem exists_intercalate (sep s : String) (more : List String) :
    ∃ rest, sep.intercalate (s :: more) = s ++ rest := by
  cases more with
  | nil => exact ⟨"", by simp⟩
  | cons t more => exact ⟨_, by rw [String.intercalate_cons_cons, String.append_assoc]⟩

theorem exists_headline (source : String) {span : Span} (h : d.span = some span) (path : String) :
    ∃ rest, d.report source path =
      path ++ ":" ++ (LineColumn.ofOffset source span.start).text ++ ": " ++ d.severity.text ++
        ": " ++ d.message ++ rest := by
  unfold Diagnostic.report
  extract_lets subject headline notes fixes
  obtain ⟨rest, hrest⟩ := exists_intercalate "\n" headline (notes ++ fixes)
  refine ⟨subject ++ rest, ?_⟩
  rw [List.cons_append, hrest]
  simp only [headline, Diagnostic.location, h, String.append_assoc]

theorem Mark.shows_of_eq_ok (h : Mark.ofDiagnostic source uri d = .ok m) {span : Span}
    (hspan : d.span = some span) : m.Shows source d := by
  unfold Mark.ofDiagnostic at h
  simp only [hspan] at h
  obtain ⟨range, hrange, h⟩ := bind_eq_ok.mp h
  obtain ⟨related, -, h⟩ := bind_eq_ok.mp h
  cases h
  obtain ⟨start, hstart, hrange⟩ := bind_eq_ok.mp hrange
  obtain ⟨stop, -, hrange⟩ := bind_eq_ok.mp hrange
  cases hrange
  obtain ⟨rfl, -, -⟩ := Place.checked_eq_ok_iff.mp hstart
  refine ⟨rfl, rfl, ⟨span, hspan, rfl⟩, fun path => ?_⟩
  obtain ⟨rest, hrest⟩ := exists_headline source hspan path
  refine ⟨rest, ?_⟩
  rw [hrest, Place.lineColumn_ofOffset, LineColumn.text]
  simp only [String.append_assoc]

/-- A diagnostic that points into the text has a mark. -/
theorem Mark.exists_ofDiagnostic (hplaces : Place.AllCountable source)
    (h : d.Located (·.Inside ⟨0, source.toList.length⟩)) :
    ∃ m, Mark.ofDiagnostic source uri d = .ok m := by
  obtain ⟨span, hspan, hin⟩ := h.span
  have hnotes : ∃ related, Related.ofNotes source uri d.notes = .ok related := by
    refine exists_mapM_eq_ok fun item hitem => ?_
    obtain ⟨note, hnote, hitem⟩ := List.mem_filterMap.mp hitem
    obtain ⟨s, hs, rfl⟩ := Option.map_eq_some_iff.mp hitem
    obtain ⟨s', hs', hin⟩ := h.notes note hnote
    cases hs.symm.trans hs'
    exact ⟨_, bind_eq_ok.mpr ⟨_, PlaceRange.ofSpan_eq_ok hplaces.checked hin.inText, rfl⟩⟩
  obtain ⟨related, hrelated⟩ := hnotes
  unfold Mark.ofDiagnostic
  simp only [hspan, PlaceRange.ofSpan_eq_ok hplaces.checked hin.inText, hrelated]
  exact ⟨_, rfl⟩

/-- The marks are those of all diagnostics in order. -/
theorem marks_of_reports {t : Schema} {records : List Record} {ds : List (Derivation Derived)}
    (h : Schema.parse {} source = (t, .ok records)) (hreports : t.Reports source ds) :
    marks source uri = (ds.flatMap (·.diagnostics)).mapM (Mark.ofDiagnostic source uri) := by
  have hlength : ds.length ≤ (t.registry.list.map (·.name)).length := by
    rw [List.length_map, hreports.length_eq]
  have hall : ((t.registry.list.map (·.name)).zip ds).flatMap (·.2.diagnostics) =
      ds.flatMap (·.diagnostics) := by
    rw [List.flatMap_def, List.flatMap_def]
    conv_rhs => rw [← List.map_snd_zip hlength, List.map_map]
    rfl
  unfold marks
  rw [h]
  dsimp only
  rw [hreports.all, ← hall]
  rfl

/-! ## Texts without marks -/

/-- Faults are in the text. -/
theorem offset_lt_length {e : SourceError} {n : Nat} (h : Record.readAll source = .error e)
    (hn : e.offset? = some (n : Int)) : n < source.toList.length := by
  have hfault := Record.firstFault_of_error h
  cases e with
  | endOfInput => cases hn
  | illegal c offset =>
    obtain rfl := Option.some.inj hn
    obtain ⟨pieces, rest, hcut, -, hoffset, -⟩ := hfault
    have hlength := congrArg List.length hcut.text_eq
    rw [List.length_append, List.length_cons] at hlength
    omega
  | unexpected shown offset =>
    obtain rfl := Option.some.inj hn
    obtain ⟨pieces, rest, before, t, hcut, htokens, -, hoffset, -, -⟩ := hfault
    have hstands := (Token.stands_of_cut hcut (List.nil_append _).symm 1).1 t (by simp [htokens])
    have hproper := hstands.proper
    have hstop := hstands.stop
    omega

/-- An editor cannot count to some place of the text, or not to the position that is mentioned by a
string at a fault. -/
def Uncountable (source : String) : Prop :=
  ¬ Place.AllCountable source ∨ ∃ e p n, Record.readAll source = .error e ∧ e.offset? = some p ∧
    Mentions source p n ∧ ¬ (Place.ofOffset source n).Countable

/-- The mark of a text that is refused is at a place of the text or at a position that is mentioned
there. -/
theorem Mark.exists_ofSourceError {e : SourceError} (h : Record.readAll source = .error e)
    (hcountable : ¬ Uncountable source) : ∃ m, Mark.ofSourceError source e = .ok m := by
  obtain ⟨hplaces, hmentions⟩ := not_or.mp hcountable
  have hplaces := not_not.mp hplaces
  cases hp : e.offset? with
  | none =>
    have hend : e = .endOfInput := by
      cases e <;> first | rfl | cases hp
    have hlast := hplaces _ (Nat.le_refl _)
    rw [Place.ofOffset_natCast, List.take_length] at hlast
    have hnone : mentionedPosition? e.message.toList = none := by
      subst hend
      decide
    unfold Mark.ofSourceError
    simp only [hnone]
    have hstop : Place.checked ⟨source.toList.count '\n', 0 + 1⟩ =
        .ok ⟨source.toList.count '\n', 0 + 1⟩ := by
      have hone : (0 : Int) ≤ 0 + 1 ∧ (0 + 1 : Int) ≤ RangeError.limit := by decide
      rw [Place.checked_eq_ok_iff, Place.isCountable_iff, Place.isCountable_iff]
      exact ⟨rfl, ⟨Int.natCast_nonneg _, hlast.1⟩, hone⟩
    exact ⟨_, bind_eq_ok.mpr ⟨_, rfl, bind_eq_ok.mpr ⟨_, hstop, rfl⟩⟩⟩
  | some p =>
    obtain ⟨offset, rfl⟩ := exists_offset h hp
    have hmessage := SourceError.mentionedPosition?_message hp
    cases hquoted : mentionedPosition? e.quoted with
    | none =>
      rw [hquoted, Option.none_or] at hmessage
      have hcount := hplaces offset (Nat.le_of_lt (offset_lt_length h hp))
      exact ⟨_, (ofSourceError_eq_ok_iff hmessage).mpr ⟨hcount, rfl⟩⟩
    | some n =>
      rw [hquoted, Option.some_or] at hmessage
      have hcount : (Place.ofOffset source n).Countable := by
        by_contra hnot
        exact hmentions ⟨e, _, n, h, hp, (mentions_iff h hp).mpr hquoted, hnot⟩
      exact ⟨_, (ofSourceError_eq_ok_iff hmessage).mpr ⟨hcount, rfl⟩⟩

end Editor

/-! ## Runs of a command -/

theorem Outcome.exitCode_eq_zero_iff {outcome : Outcome} :
    outcome.exitCode = 0 ↔ outcome.succeeds = true := by
  unfold Outcome.exitCode
  cases outcome.succeeds <;> simp

namespace Command

variable {c : Command} {source : String} {t : Schema}

/-- The text that a command takes: line ends of files are unified. -/
def textOf (c : Command) (s : String) : String :=
  if c.readsInput then s else String.ofList (Text.unifyLineEnds s.toList)

theorem checkTypes_names {registry : Registry} : ∀ {names : List String},
    (∀ name ∈ names, registry.contains (.name name) = true) →
    checkTypes registry (names.map some) = .ok (.ok names)
  | [], _ => rfl
  | name :: rest, h => by
    obtain ⟨hfirst, hrest⟩ := List.forall_mem_cons.mp h
    rw [List.map_cons, checkTypes, if_pos hfirst, checkTypes_names hrest]
    rfl

/-- A text that cannot be taken makes the command fail. -/
theorem runOn_of_error {e : SchemaError} (hsettings : c.settings = {})
    (h : Schema.parse {} source = (t, .error e)) :
    ∃ outcome, c.runOn source = .ok outcome ∧ outcome.succeeds = false := by
  unfold runOn
  rw [hsettings, h]
  exact ⟨_, rfl, rfl⟩

/-- The command prints all diagnostics in order, and succeeds if every derivation does. -/
theorem runOn_of_reports {records : List Record} {ds : List (Derivation Derived)}
    (htypes : c.types = []) (hsettings : c.settings = {})
    (h : Schema.parse {} source = (t, .ok records)) (hreports : t.Reports source ds) :
    ∃ outcome, c.runOn source = .ok outcome ∧ outcome.succeeds = ds.all (·.ok) ∧
      (c.json = false → c.verbose = false →
        outcome.errors = (ds.flatMap (·.diagnostics)).map (·.report source c.path)) := by
  have htypes : (if c.types.isEmpty then t.registry.list.map (some ·.name) else c.types) =
      (t.registry.list.map (·.name)).map some := by
    rw [htypes, List.map_map]
    rfl
  unfold runOn
  rw [hsettings, h]
  dsimp only
  rw [htypes, checkTypes_names hreports.contains]
  have hderived : (t.deriveNamed (t.registry.list.map (·.name))).1.mapError CommandError.range =
      .ok ds := by
    rw [hreports.named, mapError_ok]
  refine ⟨_, bind_eq_ok.mpr ⟨_, rfl, bind_eq_ok.mpr ⟨ds, hderived, rfl⟩⟩, ?_, ?_⟩
  · unfold report
    dsimp only
    split <;> rfl
  · intro hjson hverbose
    simp [report, hjson, hverbose, List.map_flatMap]

/-- A command has come to that outcome for a text, and the outcome agrees with the marks of an
editor. Whether it succeeds does not depend on the form of its output. -/
structure Agrees (c : Command) (source uri : String) (outcome : Outcome) : Prop where
  json : ∀ json, ∃ other, ({ c with json } : Command).runOn source = .ok other ∧
    other.exitCode = outcome.exitCode
  exitCode : ∀ ms, marks source uri = .ok ms →
    (outcome.exitCode = 0 ↔ ∀ m ∈ ms, m.severity ≠ .error)
  reports : ∀ t records, Schema.parse {} source = (t, .ok records) → ∃ reports : List Diagnostic,
    (c.json = false → c.verbose = false →
      outcome.errors = reports.map (·.report source c.path)) ∧
    (∀ d ∈ reports, d.Located (·.Inside ⟨0, source.toList.length⟩)) ∧
    ∀ ms, marks source uri = .ok ms → List.Forall₂ (Mark.Shows source) ms reports

theorem agrees_of_error {uri : String} {e : SchemaError} (hsettings : c.settings = {})
    (h : Schema.parse {} source = (t, .error e)) :
    ∃ outcome, c.runOn source = .ok outcome ∧ c.Agrees source uri outcome := by
  obtain ⟨outcome, hrun, hfails⟩ := runOn_of_error hsettings h
  refine ⟨outcome, hrun, fun json => ?_, fun ms hms => ?_, fun t' records h' => ?_⟩
  · obtain ⟨other, hother, hfails'⟩ := runOn_of_error (c := { c with json }) hsettings h
    exact ⟨other, hother, by rw [Outcome.exitCode, Outcome.exitCode, hfails, hfails']⟩
  · obtain ⟨m, rfl, hm, -⟩ := marks_of_error h hms
    simp [Outcome.exitCode_eq_zero_iff, hfails, hm]
  · rw [h] at h'
    cases h'

theorem agrees_of_reports {uri : String} {records : List Record} {ds : List (Derivation Derived)}
    (htypes : c.types = []) (hsettings : c.settings = {})
    (h : Schema.parse {} source = (t, .ok records)) (hreports : t.Reports source ds) :
    ∃ outcome, c.runOn source = .ok outcome ∧ c.Agrees source uri outcome := by
  obtain ⟨outcome, hrun, hsucceeds, herrors⟩ := runOn_of_reports htypes hsettings h hreports
  have hlocated : ∀ d ∈ ds.flatMap (·.diagnostics),
      d.Located (·.Inside ⟨0, source.toList.length⟩) := located_flatMap hreports.located
  have hshows : ∀ ms, marks source uri = .ok ms →
      List.Forall₂ (Mark.Shows source) ms (ds.flatMap (·.diagnostics)) := by
    intro ms hms
    rw [marks_of_reports h hreports, mapM_eq_ok] at hms
    refine (((List.forall₂_and_left _ _).mpr ⟨hlocated, hms⟩).imp ?_).flip
    rintro d m ⟨hd, hm⟩
    obtain ⟨span, hspan, -⟩ := hd.span
    exact Mark.shows_of_eq_ok hm hspan
  refine ⟨outcome, hrun, fun json => ?_, fun ms hms => ?_, fun t' records' h' => ?_⟩
  · obtain ⟨other, hother, hsucceeds', -⟩ :=
      runOn_of_reports (c := { c with json }) htypes hsettings h hreports
    exact ⟨other, hother, by rw [Outcome.exitCode, Outcome.exitCode, hsucceeds, hsucceeds']⟩
  · rw [Outcome.exitCode_eq_zero_iff, hsucceeds, hreports.all_ok_iff]
    constructor
    · intro hclean m hm
      obtain ⟨d, hd, hmark⟩ := exists_right_of_mem (hshows ms hms) hm
      rw [hmark.severity]
      exact hclean d hd
    · intro hclean d hd
      obtain ⟨m, hm, hmark⟩ := exists_left_of_mem (hshows ms hms) hd
      rw [← hmark.severity]
      exact hclean m hm
  · exact ⟨_, herrors, hlocated, hshows⟩

/-- An editor has marks of every text whose places it can count to. -/
theorem exists_marks {uri : String} (hlength : (source.toList.length : Int) ≤ RangeError.longest)
    (hcountable : ¬ Uncountable source) : ∃ ms, marks source uri = .ok ms := by
  rcases h : Schema.parse {} source with ⟨t, e | records⟩
  · rcases Schema.parse_eq_error (congrArg Prod.snd h) with
      ⟨fault, hread, rfl, -⟩ | ⟨_, r, _, -, rfl, -⟩
    · obtain ⟨m, hm⟩ := Mark.exists_ofSourceError hread hcountable
      exact ⟨[m], by rw [marks_eq hread, hm]; rfl⟩
    · unfold marks
      rw [h]
      exact ⟨_, rfl⟩
  · have hdeclares := Schema.declares_of_parse {} source
    rw [h] at hdeclares
    obtain ⟨ds, hreports⟩ := hdeclares.exists_reports hlength
    rw [marks_of_reports h hreports]
    refine exists_mapM_eq_ok fun d hd => ?_
    exact Mark.exists_ofDiagnostic (not_not.mp (not_or.mp hcountable).1)
      (located_flatMap hreports.located d hd)

/-- A command for all types of a text, with the default settings, agrees with the marks of an
editor: in its exit code and, where the text can be taken, in its diagnostics, each of which points
into the text. Only where an editor cannot count that far there are no marks to compare with. -/
theorem run_agrees (htypes : c.types = []) (hsettings : c.settings = {}) (s uri : String)
    (hlength : ((c.textOf s).toList.length : Int) ≤ RangeError.longest) :
    (∃ outcome, c.run (.text s) = .ok outcome ∧ c.Agrees (c.textOf s) uri outcome) ∧
      ((∃ ms, marks (c.textOf s) uri = .ok ms) ∨ Uncountable (c.textOf s)) := by
  constructor
  · show ∃ outcome, c.runOn (c.textOf s) = .ok outcome ∧ c.Agrees (c.textOf s) uri outcome
    rcases h : Schema.parse {} (c.textOf s) with ⟨t, e | records⟩
    · exact agrees_of_error hsettings h
    · have hdeclares := Schema.declares_of_parse {} (c.textOf s)
      rw [h] at hdeclares
      obtain ⟨ds, hreports⟩ := hdeclares.exists_reports hlength
      exact agrees_of_reports htypes hsettings h hreports
  · by_cases hcountable : Uncountable (c.textOf s)
    · exact .inr hcountable
    · exact .inl (exists_marks hlength hcountable)

/-- A record that is neither a table nor a selection. -/
theorem run_agrees_unannotated : ∃ outcome ms reports,
    ({ file := "-" } : Command).run (.text "struct A\x7b\x7d") = .ok outcome ∧
      marks "struct A\x7b\x7d" "" = .ok ms ∧
      outcome.errors = reports.map (·.report "struct A\x7b\x7d" "<stdin>") ∧
      List.Forall₂ (Mark.Shows "struct A\x7b\x7d") ms reports ∧
      (outcome.exitCode = 0 ↔ ∀ m ∈ ms, m.severity ≠ .error) := by
  have hread : Record.readAll "struct A\x7b\x7d" = .ok [{ name := "A", span := some ⟨0, 10⟩ }] := by
    rw [Record.readAll]
    conv in Token.scan _ => cbv
    rfl
  have hparse : (Schema.parse {} "struct A\x7b\x7d").2 =
      .ok [{ name := "A", span := some ⟨0, 10⟩ }] := by
    rw [Schema.parse, hread]
    rfl
  obtain ⟨⟨outcome, hrun, hagrees⟩, hmarks⟩ :=
    run_agrees (c := { file := "-" }) rfl rfl "struct A\x7b\x7d" "" (by decide)
  have hcountable : ¬ Uncountable "struct A\x7b\x7d" := by
    rintro (hplaces | ⟨e, p, n, he, -⟩)
    · exact hplaces (Place.allCountable_of_length (by decide))
    · rw [hread] at he
      cases he
  obtain ⟨ms, hms⟩ := hmarks.resolve_right hcountable
  obtain ⟨reports, herrors, -, hshows⟩ := hagrees.reports _ _ (Prod.ext rfl hparse)
  exact ⟨outcome, ms, reports, hrun, hms, herrors rfl rfl, hshows ms hms, hagrees.exitCode ms hms⟩

/-- The brace is followed by a string that mentions a position which no editor counts to: the
command fails, and there are no marks. -/
theorem not_run_agrees : ¬ ∀ (c : Command) (s uri : String), c.types = [] → c.settings = {} →
    ∃ outcome ms, c.run (.text s) = .ok outcome ∧ marks (c.textOf s) uri = .ok ms ∧
      (outcome.exitCode = 0 ↔ ∀ m ∈ ms, m.severity ≠ .error) := by
  intro h
  have hread : Record.readAll "struct A \x7b \"at position 3000000000\" \x7d" =
      .error (.unexpected "at position 3000000000" 11) := by
    rw [Record.readAll]
    conv in Token.scan _ => cbv
    rfl
  have hmentioned : mentionedPosition?
      (SourceError.unexpected "at position 3000000000" 11).message.toList = some 3000000000 := by
    decide
  obtain ⟨outcome, ms, -, hms, -⟩ :=
    h { file := "-" } "struct A \x7b \"at position 3000000000\" \x7d" "" rfl rfl
  change marks "struct A \x7b \"at position 3000000000\" \x7d" "" = .ok ms at hms
  rw [marks_eq hread, map_eq_ok] at hms
  obtain ⟨m, hm, -⟩ := hms
  obtain ⟨⟨-, hcharacter⟩, -⟩ := (ofSourceError_eq_ok_iff hmentioned).mp hm
  rw [Place.ofOffset_natCast, List.take_of_length_le (by decide)] at hcharacter
  exact absurd hcharacter (by decide)

end Command

end RowSchema
