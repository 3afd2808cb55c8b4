import RowSchema.Decimal.Numeral
import RowSchema.Text.Alphanumeric
import RowSchema.Token

/-! Searches in texts that may be no declarations yet. -/

namespace RowSchema.Editor

/-- What follows `start` in a text that starts with it. -/
def after? (start s : List Char) : Option (List Char) :=
  if start.isPrefixOf s then some (s.drop start.length) else none

/-- The number of a position, if the text starts with the mention of one. -/
def positionHere? (s : List Char) : Option Nat :=
  match (after? "at position ".toList s).or (after? "(position ".toList s) with
  | none => none
  | some rest =>
    match rest.takeWhile Text.isDigit with
    | [] => none
    | digits => some (Decimal.ofDigits digits)

/-- The number of the first position that a text mentions. -/
def mentionedPosition? : List Char → Option Nat
  | [] => none
  | c :: rest => (positionHere? (c :: rest)).or (mentionedPosition? rest)

/-- The word around a character of a line, empty if there is none. -/
def wordAt (line : List Char) (character : Int) : String :=
  if character < 0 then ""
  else
    let before := line.take character.toNat
    let after := line.drop character.toNat
    match after with
    | [] => ""
    | c :: _ =>
      if Text.isWordChar c then
        String.ofList ((before.reverse.takeWhile Text.isWordChar).reverse
          ++ after.takeWhile Text.isWordChar)
      else ""

/-- The words that start the declaration of a record. -/
def recordKeywords : List Keyword := [.structWord, .enumWord, .classWord]

/-- The name after one of the keywords, and where it ends. -/
def nameAfter? (s : List Char) (keyword : Keyword) : Option (String × Nat) :=
  match after? keyword.text.toList s with
  | none => none
  | some rest =>
    let blanks := rest.takeWhile Text.isBlank
    let name := (rest.dropWhile Text.isBlank).takeWhile Text.isWordChar
    if blanks.isEmpty || name.isEmpty then none
    else some (String.ofList name, keyword.text.length + blanks.length + name.length)

/-- The names that follow keywords of records. `inWord` tells whether the character before is part
of a word; the next `skip` characters belong to a name that is found already. -/
def namesFrom (inWord : Bool) : (skip : Nat) → List Char → List String
  | _, [] => []
  | skip + 1, c :: rest => namesFrom (Text.isWordChar c) skip rest
  | 0, c :: rest =>
    let found := if inWord then none else recordKeywords.findSome? (nameAfter? (c :: rest))
    match found with
    | some (name, stop) => name :: namesFrom (Text.isWordChar c) (stop - 1) rest
    | none => namesFrom (Text.isWordChar c) 0 rest

/-- The names of the records that a text seems to declare, comments included. -/
def recordNames (source : String) : List String := namesFrom false 0 source.toList

end RowSchema.Editor
