import RowSchema.Text.Printable

/-! Quoted text: literals with escapes, declared strings, and the two kinds of SQL quotes. -/

namespace RowSchema.Text

/-- `n` in at least `width` hexadecimal digits. -/
def hexadecimal (width n : Nat) : List Char :=
  let digits := Nat.toDigits 16 n
  List.replicate (width - digits.length) '0' ++ digits

/-- Unprintable characters are written by their code points, and a backslash or the enclosing
quote gets a backslash in front. -/
def escaped (quote c : Char) : List Char :=
  if c == '\\' || c == quote then ['\\', c]
  else if c == '\n' then ['\\', 'n']
  else if c == '\r' then ['\\', 'r']
  else if c == '\t' then ['\\', 't']
  else if isPrintable c then [c]
  else if c.toNat < 0x100 then '\\' :: 'x' :: hexadecimal 2 c.toNat
  else if c.toNat < 0x10000 then '\\' :: 'u' :: hexadecimal 4 c.toNat
  else '\\' :: 'U' :: hexadecimal 8 c.toNat

/-- A text literal. Single quotes enclose it unless it holds single quotes and no double ones. -/
def literal (s : String) : String :=
  let cs := s.toList
  let quote := if cs.contains '\'' && !cs.contains '"' then '"' else '\''
  String.ofList (quote :: cs.flatMap (escaped quote) ++ [quote])

/-- A declared string: backslashes and double quotes get a backslash in front. -/
def declared (s : String) : String :=
  let escape (c : Char) := if c == '\\' || c == '"' then ['\\', c] else [c]
  String.ofList ('"' :: s.toList.flatMap escape ++ ['"'])

/-- The text between two quotes, each quote inside it doubled. -/
def enclosed (quote : Char) (s : List Char) : List Char :=
  quote :: s.flatMap (fun c => if c == quote then [quote, quote] else [c]) ++ [quote]

/-- An SQL identifier. -/
def identifier (s : String) : String := String.ofList (enclosed '"' s.toList)

/-- An SQL string. -/
def sqlString (s : String) : String := String.ofList (enclosed '\'' s.toList)

/-- The names, each between single quotes, with commas between them. -/
def enumeration (names : List String) : String :=
  ", ".intercalate (names.map fun name => "'" ++ name ++ "'")

end RowSchema.Text
