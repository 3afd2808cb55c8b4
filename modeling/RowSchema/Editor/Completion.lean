import RowSchema.Editor.Search
import RowSchema.Editor.Vocabulary
import RowSchema.Text.Lines

/-! Completion: what may come next on a line of declarations. -/

namespace RowSchema.Editor

inductive CompletionKind where
  | keyword
  | enumMember
  | property
  | typeParameter
  | classType
deriving DecidableEq, Repr

/-- The name of the kind in the editor protocol. -/
def CompletionKind.text : CompletionKind → String
  | keyword => "Keyword"
  | enumMember => "EnumMember"
  | property => "Property"
  | typeParameter => "TypeParameter"
  | classType => "Class"

structure Completion where
  label : String
  kind : CompletionKind
  detail : String
  /-- what is inserted, if it is not the label -/
  insertText : Option String := none
deriving DecidableEq, Repr

/-- Where on a line the cursor is. -/
inductive Context where
  | attribute
  | generatedMember
  | columnArgument
  | type
deriving DecidableEq, Repr

/-- The line before the word that is being typed, reversed. A newline at the end does not count. -/
def beforeWord (line : List Char) : List Char :=
  (Text.dropFinalNewline line).reverse.dropWhile Text.isWordChar

/-- Whether some part of the text starts as given. -/
def holds (start : List Char) : List Char → Bool
  | [] => start.isEmpty
  | c :: rest => start.isPrefixOf (c :: rest) || holds start rest

/-- Whether the cursor is between the parentheses of a column attribute. -/
def inColumnAttribute (line : List Char) : Bool :=
  holds "@Column(".toList (line.reverse.takeWhile (· != ')')).reverse

/-- Whether the cursor is at the value of the argument `generated`. -/
def atGeneratedMember (line : List Char) : Bool :=
  match beforeWord line with
  | '.' :: before => "generated:".toList.reverse.isPrefixOf (before.dropWhile Text.isBlank)
  | _ => false

/-- The context at the end of a line, if there is something to complete. -/
def Context.ofLine? (line : List Char) : Option Context :=
  let last := (Text.trimEnd line).getLast?
  if (beforeWord line).head? == some '@' then some .attribute
  else if atGeneratedMember line then some .generatedMember
  else if inColumnAttribute line && (last == some '(' || last == some ',') then
    some .columnArgument
  else if last == some ':' || last == some '(' then some .type
  else none

def Completion.ofEntry (kind : CompletionKind) (e : Entry) : Completion :=
  { label := e.word, kind, detail := e.detail }

/-- The completions at the end of a line of a document. -/
def completions (source line : String) : List Completion :=
  match Context.ofLine? line.toList with
  | some .attribute => attributes.map (.ofEntry .keyword)
  | some .generatedMember => generatedMembers.map (.ofEntry .enumMember)
  | some .columnArgument =>
    columnArguments.map fun e =>
      { Completion.ofEntry .property e with insertText := some (e.word ++ ": ") }
  | some .type =>
    builtinTypes.map (.ofEntry .typeParameter) ++ (recordNames source).map fun name =>
      { label := name, kind := .classType, detail := "User-defined record" }
  | none => []

end RowSchema.Editor
