import RowSchema.Editor.Search
import RowSchema.Place
import RowSchema.Schema

/-! Marks: the diagnostics of a document as an editor shows them, and the actions that mend them. -/

namespace RowSchema.Editor

/-- An edit that an editor may make: `text` in place of what is at `span`. -/
structure Fix where
  title : String
  text : String
  span : Span
deriving DecidableEq, Repr

/-- A place that has to do with a mark. -/
structure Related where
  uri : String
  range : PlaceRange
  message : String
deriving DecidableEq, Repr

structure Mark where
  range : PlaceRange
  severity : Severity := .error
  /-- a document that cannot be read has a problem of no category -/
  problem : Option Problem := none
  message : String
  fixes : List Fix := []
  related : List Related := []
deriving DecidableEq, Repr

/-- The places of the notes that have spans. -/
def Related.ofNotes (source uri : String) (notes : List Note) : Except RangeError (List Related) :=
  (notes.filterMap fun note => note.span.map (note.message, ·)).mapM fun (message, span) => do
    return ⟨uri, ← PlaceRange.ofSpan source span, message⟩

namespace Mark

/-- The mark of a diagnostic. Without a span it is at the start of the last line; fixes and notes
without spans are left out. -/
def ofDiagnostic (source uri : String) (d : Diagnostic) : Except RangeError Mark := do
  let range ← match d.span with
    | some span => PlaceRange.ofSpan source span
    | none => .ok (.empty (.lastLine source))
  return {
    range
    severity := d.severity
    problem := some d.problem
    message := d.message
    fixes := d.fixIts.filterMap fun fix => fix.span.map (⟨fix.message, fix.replacement, ·⟩)
    related := ← Related.ofNotes source uri d.notes }

/-- The mark of a text that declares nothing: the character that its message points at, or else
the first one of the last line. -/
def ofSourceError (source : String) (e : SourceError) : Except RangeError Mark := do
  let start ← match mentionedPosition? e.message.toList with
    | some offset => (Place.ofOffset source offset).checked
    | none => .ok (.lastLine source)
  let stop ← Place.checked ⟨start.line, start.character + 1⟩
  return { range := ⟨start, stop⟩, message := e.message }

end Mark

/-- The marks of a document. -/
def marks (source uri : String) : Except RangeError (List Mark) :=
  match Schema.parse {} source with
  | (_, .error (.source e)) => do return [← Mark.ofSourceError source e]
  | (_, .error e) => .ok [{ range := .empty (.lastLine source), message := e.message }]
  | (s, .ok _) => do
    let derivations ← s.deriveAll.1
    (derivations.flatMap (·.2.diagnostics)).mapM (Mark.ofDiagnostic source uri)

/-- A quick fix of a mark: `text` in place of what is in the range. -/
structure QuickFix where
  title : String
  mark : Mark
  range : PlaceRange
  text : String
deriving DecidableEq, Repr

/-- The quick fixes of some marks. -/
def quickFixes (source : String) (marks : List Mark) : Except RangeError (List QuickFix) :=
  (marks.flatMap fun mark => mark.fixes.map (mark, ·)).mapM fun (mark, fix) => do
    return ⟨fix.title, mark, ← PlaceRange.ofSpan source fix.span, fix.text⟩

end RowSchema.Editor
