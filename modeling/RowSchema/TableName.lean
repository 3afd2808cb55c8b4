import RowSchema.Options
import RowSchema.Text.LetterCase

/-! Default table names, made from the names of types. -/

namespace RowSchema.TableName

open Text (isCapital isSmall toSmall)

/-- The name with its leading run of capitals made small. A capital that starts the next word is
not part of the run: `URLRecord` becomes `urlRecord`. -/
def lowerCamelCased (name : List Char) : List Char :=
  let run := (name.takeWhile isCapital).length
  let small (n : Nat) := toSmall (name.take n) ++ name.drop n
  match name.drop run with
  | [] => toSmall name
  | next :: _ => if run > 1 && isSmall next then small (run - 1) else small run

/-- Endings after which the plural takes a syllable of its own. -/
def sibilants : List (List Char) := [['s'], ['x'], ['z'], ['c', 'h'], ['s', 'h']]

def isVowel (c : Char) : Bool :=
  match toSmall [c] with
  | [v] => "aeiou".contains v
  | _ => false

/-- A simple English plural. -/
def pluralized (word : List Char) : List Char :=
  if word.isEmpty then word
  else if sibilants.any (·.isSuffixOf word) then word ++ ['e', 's']
  else
    match word.reverse with
    | 'y' :: c :: before =>
      if isVowel c then word ++ ['s'] else (c :: before).reverse ++ ['i', 'e', 's']
    | _ => word ++ ['s']

def ofTypeName (options : Options) (name : String) : String :=
  let base := lowerCamelCased name.toList
  String.ofList (if options.pluralize then pluralized base else base)

end RowSchema.TableName
