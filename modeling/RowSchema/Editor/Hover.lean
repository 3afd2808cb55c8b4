import RowSchema.Editor.Search
import RowSchema.Editor.Vocabulary
import RowSchema.Report.Summary

/-! What an editor shows about the word under the pointer, in Markdown. -/

namespace RowSchema.Editor

/-- A word in bold with its explanation. -/
def explanation (word detail : String) : String := "**" ++ word ++ "** — " ++ detail

/-- What is derived from a record, or why nothing is. -/
def derivationText (name : String) (d : Derivation Derived) : String :=
  match d.result with
  | some result => "```\n" ++ result.summary ++ "\n```"
  | none =>
    explanation name "derivation failed\n\n" ++
      "\n".intercalate (d.errors.map fun e => "- " ++ e.message)

/-- What a document says about the record of that name, if it declares one. -/
def recordHover (source name : String) : Option String :=
  match Schema.parse {} source with
  | (_, .error _) => some (explanation name "User-defined record")
  | (s, .ok _) =>
    match s.derive? (.name name) with
    | some (.ok d, _) => some (derivationText name d)
    | _ => none

/-- What is shown for a word of a document. -/
def hover (source word : String) : Option String :=
  match explained? attributes word, explained? (builtinTypes ++ keywords) word with
  | some detail, _ => some (explanation ("@" ++ word) detail)
  | none, some detail => some (explanation word detail)
  | none, none => if (recordNames source).contains word then recordHover source word else none

end RowSchema.Editor
