import RowSchema.Decimal.Numeral
import RowSchema.Token

/-! Declaration text as tokens. The text is read one character at a time: the first character of a
piece decides which piece it is and how many of the characters after it belong to it. -/

namespace RowSchema.Token

/-- A piece of the text: a token, or a blank or comment that stands between tokens. -/
inductive Piece where
  | gap
  | lexeme (l : Lexeme)

/-- A character that no piece begins with, and its offset. -/
structure Illegal where
  character : Char
  offset : Nat
deriving DecidableEq, Repr

def isNameStart (c : Char) : Bool := c.isAlpha || c == '_'

def isNameChar (c : Char) : Bool := c.isAlphanum || c == '_'

def isOperatorChar (c : Char) : Bool := "-+*/%<>!&|^~=".contains c

/-- What a backslash and the character after it stand for. -/
def unescaped : Char → Char
  | 'n' => '\n'
  | 't' => '\t'
  | 'r' => '\r'
  | '0' => '\x00'
  | c => c

/-- The characters of a string up to its closing quote, and how many characters they take up with
it. A string does not go beyond its line. -/
def stringRest : List Char → Option (List Char × Nat)
  | [] => none
  | '"' :: _ => some ([], 1)
  | '\n' :: _ => none
  | ['\\'] => none
  | '\\' :: c :: rest =>
    if c == '\n' then none
    else (stringRest rest).map fun (s, n) => (unescaped c :: s, n + 2)
  | c :: rest => (stringRest rest).map fun (s, n) => (c :: s, n + 1)

/-- A number, given its first digits; `taken` characters of it come before `rest`. -/
def number (negative : Bool) (whole : List Char) (taken : Nat) (rest : List Char) :
    Lexeme × Nat :=
  let fraction := match rest with
    | '.' :: more => more.takeWhile Text.isDigit
    | _ => []
  if fraction.isEmpty then
    let n : Int := Decimal.ofDigits whole
    (.integer (if negative then -n else n), taken)
  else
    (.float (Decimal.signed negative (Decimal.nearestFloat whole fraction 0)),
      taken + 1 + fraction.length)

/-- A number that begins with the digit `c`. -/
def unsignedNumber (c : Char) (rest : List Char) : Lexeme × Nat :=
  let more := rest.takeWhile Text.isDigit
  number false (c :: more) more.length (rest.drop more.length)

/-- A number after a minus sign. -/
def negativeNumber (rest : List Char) : Lexeme × Nat :=
  let whole := rest.takeWhile Text.isDigit
  number true whole whole.length (rest.drop whole.length)

def symbol? (c : Char) (rest : List Char) : Option (Lexeme × Nat) :=
  match c with
  | '.' =>
    match rest with
    | '.' :: '.' :: _ => some (.ellipsis, 2)
    | _ => some (.dot, 0)
  | '@' => some (.atSign, 0)
  | '{' => some (.openBrace, 0)
  | '}' => some (.closeBrace, 0)
  | '[' => some (.openBracket, 0)
  | ']' => some (.closeBracket, 0)
  | '(' => some (.openParen, 0)
  | ')' => some (.closeParen, 0)
  | '?' => some (.question, 0)
  | ':' => some (.colon, 0)
  | ',' => some (.comma, 0)
  | ';' => some (.semicolon, 0)
  | _ => none

def nameLexeme (name : String) : Lexeme :=
  match Keyword.ofText? name with
  | some k => .keyword k
  | none => .word name

/-- The token that begins with `c`, and how many more characters it takes. -/
def lexeme? (c : Char) (rest : List Char) : Option (Lexeme × Nat) :=
  if Text.isDigit c then some (unsignedNumber c rest)
  else if c == '-' && rest.head?.any Text.isDigit then some (negativeNumber rest)
  else if c == '"' then
    (stringRest rest).map fun (s, n) => (.string (String.ofList s), n)
  else if isNameStart c then
    let more := rest.takeWhile isNameChar
    some (nameLexeme (String.ofList (c :: more)), more.length)
  else if c == '=' && !(rest.head?.any fun d => d == '=' || d == '>') then some (.equals, 0)
  else if isOperatorChar c then
    let more := rest.takeWhile isOperatorChar
    some (.operator (String.ofList (c :: more)), more.length)
  else symbol? c rest

def startsComment (c : Char) (rest : List Char) : Bool :=
  c == '#' || (c == '/' && rest.head? == some '/')

/-- The piece that begins with `c`, and how many more characters it takes. A comment ends with its
line. -/
def piece? (c : Char) (rest : List Char) : Option (Piece × Nat) :=
  if c == ' ' || c == '\t' || c == '\r' || c == '\n' then some (.gap, 0)
  else if startsComment c rest then some (.gap, (rest.takeWhile (· != '\n')).length)
  else (lexeme? c rest).map fun (l, n) => (.lexeme l, n)

/-- The tokens from an offset on. The first `pending` characters belong to the piece before. -/
def scanFrom (pending line offset : Nat) : List Char → List Token × Option Illegal
  | [] => ([], none)
  | c :: rest =>
    let nextLine := if c == '\n' then line + 1 else line
    match pending with
    | more + 1 => scanFrom more nextLine (offset + 1) rest
    | 0 =>
      match piece? c rest with
      | none => ([], some ⟨c, offset⟩)
      | some (.gap, more) => scanFrom more nextLine (offset + 1) rest
      | some (.lexeme l, more) =>
        let (tokens, illegal) := scanFrom more nextLine (offset + 1) rest
        (⟨l, ⟨offset, offset + 1 + more⟩, line⟩ :: tokens, illegal)

/-- The tokens of a text, up to its end or the first character that is illegal. -/
def scan (source : String) : List Token × Option Illegal := scanFrom 0 1 0 source.toList

end RowSchema.Token
