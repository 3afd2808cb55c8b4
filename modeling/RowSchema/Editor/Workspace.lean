import RowSchema.Editor.Completion
import RowSchema.Editor.Hover
import RowSchema.Editor.Mark
import RowSchema.Text.Lines

/-! Workspaces: the open documents of an editor. -/

namespace RowSchema.Editor

/-- The texts of the open documents, by URI. -/
abbrev Workspace := Dictionary String String

namespace Workspace

/-- The workspace with a new text of a document, and the marks to publish. -/
def edit (w : Workspace) (uri text : String) : Workspace × Except RangeError (List Mark) :=
  (w.put uri text, marks text uri)

/-- The text of a document; one that is not open has none. -/
def source (w : Workspace) (uri : String) : String := (Dictionary.get? w uri).getD ""

/-- The line of a place, if the document has that many. -/
def line? (w : Workspace) (uri : String) (p : Place) : Option (List Char) :=
  (Text.lines (w.source uri).toList)[p.line.toNat]?

def quickFixesOf (w : Workspace) (uri : String) : Except RangeError (List QuickFix) := do
  quickFixes (w.source uri) (← marks (w.source uri) uri)

def completionsAt (w : Workspace) (uri : String) (p : Place) : List Completion :=
  completions (w.source uri) (String.ofList (((w.line? uri p).getD []).take p.character.toNat))

/-- What is shown at a place that is on a word. -/
def hoverAt (w : Workspace) (uri : String) (p : Place) : Option String :=
  match (w.line? uri p).map (wordAt · p.character) with
  | none | some "" => none
  | some word => hover (w.source uri) word

end Workspace

end RowSchema.Editor
