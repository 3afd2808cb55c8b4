import RowSchema.Text.DecimalDigit
import RowSchema.Text.Lines

/-! The words of a command line: switches, spelled out or shortened, and plain words. -/

namespace RowSchema.Command

inductive Switch where
  | help
  | type
  | json
  | collectAll
  | noIdConvention
  | noPluralize
  | verbose
deriving DecidableEq, Repr

namespace Switch

def spellings : List (String × Switch) := [
  ("-h", help), ("--help", help), ("-t", type), ("--type", type), ("-j", json), ("--json", json),
  ("--collect-all", collectAll), ("--no-id-convention", noIdConvention),
  ("--no-pluralize", noPluralize), ("-v", verbose), ("--verbose", verbose)]

/-- The switch with exactly that spelling. -/
def spelled? (s : String) : Option Switch := (spellings.find? (·.1 == s)).map (·.2)

/-- The switch of one letter. -/
def letter? (c : Char) : Option Switch := spelled? (String.ofList ['-', c])

/-- The switches that a long spelling may be short for. -/
def shortenedBy (start : List Char) : List Switch :=
  (spellings.filter fun (spelling, _) => start.isPrefixOf spelling.toList).map (·.2)

def takesArgument : Switch → Bool
  | type => true
  | _ => false

end Switch

/-- What a word sets, or that it sets nothing known. -/
inductive Action where
  | switch (s : Switch) (argument : Option String)
  | unknown
deriving DecidableEq, Repr

inductive Word where
  | plain (s : String)
  /-- after it all words are plain -/
  | separator
  | actions (actions : List Action)
  /-- switches that cannot stand together -/
  | misused
deriving DecidableEq, Repr

/-- A switch with an argument, if it takes one. -/
def Word.withArgument (s : Switch) (argument : List Char) : Word :=
  if s.takesArgument then .actions [.switch s (some (String.ofList argument))] else .misused

/-- The word with an action before its own ones. -/
def Word.after (a : Action) : Word → Word
  | .actions more => .actions (a :: more)
  | w => w

/-- The word of a short switch and the characters joined to it: its argument, or more switches. -/
def Word.joined (s : Switch) : List Char → Word
  | [] => .actions [.switch s none]
  | c :: rest =>
    if s.takesArgument then .withArgument s (c :: rest)
    else
      match Switch.letter? c with
      | some next => (Word.joined next rest).after (.switch s none)
      | none => .misused

/-- The word of a short switch and the rest of the word. An equals sign may come first. -/
def Word.ofShort (s : Switch) : List Char → Word
  | ['='] => .withArgument s []
  | '=' :: rest => .joined s rest
  | rest => .joined s rest

/-- Whether a word is a negative number, with or without a point. A newline at the end does not
count. -/
def isNegativeNumber (s : List Char) : Bool :=
  match Text.dropFinalNewline s with
  | '-' :: digits =>
    match digits.dropWhile Text.isDigit with
    | [] => !digits.isEmpty
    | '.' :: fraction => !fraction.isEmpty && fraction.all Text.isDigit
    | _ => false
  | _ => false

/-- A word that starts with a dash and is no switch. With a blank in it, or as a number, it is
plain. -/
def Word.ofOther (s : String) : Word :=
  if isNegativeNumber s.toList || s.toList.contains ' ' then .plain s else .actions [.unknown]

/-- The word of a long switch; none if it may be short for several. -/
def Word.ofLong? (s : String) : Option Word :=
  let name := s.toList.takeWhile (· != '=')
  let argument := (s.toList.dropWhile (· != '=')).tail?
  let word (switch : Switch) : Word := match argument with
    | some argument => .withArgument switch argument
    | none => .actions [.switch switch none]
  match Switch.spelled? (String.ofList name), Switch.shortenedBy name with
  | some switch, _ => some (word switch)
  | none, [switch] => some (word switch)
  | none, [] => some (.ofOther s)
  | none, _ => none

/-- A word before the separator; none if it is ambiguous. -/
def Word.ofText? (s : String) : Option Word :=
  match s.toList with
  | '-' :: '-' :: _ => Word.ofLong? s
  | '-' :: c :: rest =>
    match Switch.letter? c with
    | some switch => some (.ofShort switch rest)
    | none => some (.ofOther s)
  | _ => some (.plain s)

/-- The words of a command line; none if one of them is ambiguous. -/
def words? : List String → Option (List Word)
  | [] => some []
  | "--" :: rest => some (.separator :: rest.map .plain)
  | s :: rest =>
    match Word.ofText? s, words? rest with
    | some word, some words => some (word :: words)
    | _, _ => none

end RowSchema.Command
