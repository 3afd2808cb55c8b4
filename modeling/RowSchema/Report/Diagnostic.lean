import RowSchema.Diagnostic
import RowSchema.Place
import RowSchema.Text.Quoted

/-! Diagnostics as lines for a terminal. -/

namespace RowSchema

/-- Where a note or an edit belongs, in brackets. -/
def Span.remark (source : String) : Option Span → String
  | some span => " (at " ++ (LineColumn.ofOffset source span.start).text ++ ")"
  | none => ""

namespace Diagnostic

/-- The file that a diagnostic is about, and its place in the file. -/
def location (source path : String) (d : Diagnostic) : String :=
  match d.span with
  | some span => path ++ ":" ++ (LineColumn.ofOffset source span.start).text
  | none => path

/-- A diagnostic with its notes and edits, each on a line of its own. -/
def report (source path : String) (d : Diagnostic) : String :=
  let subject := if d.subject.isEmpty then "" else " [" ++ d.subject ++ "]"
  let headline := d.location source path ++ ": " ++ d.severity.text ++ ": " ++ d.message ++ subject
  let notes := d.notes.map fun note => "  note: " ++ note.message ++ Span.remark source note.span
  let fixes := d.fixIts.map fun fix =>
    "  fix-it: " ++ fix.message ++ " -> " ++ Text.literal fix.replacement
      ++ Span.remark source fix.span
  "\n".intercalate (headline :: notes ++ fixes)

end Diagnostic

end RowSchema
