/-! Lines and paths. -/

namespace RowSchema.Text

/-- The text with every line end written as a single newline. -/
def unifyLineEnds : List Char → List Char
  | '\r' :: '\n' :: rest => '\n' :: unifyLineEnds rest
  | '\r' :: rest => '\n' :: unifyLineEnds rest
  | c :: rest => c :: unifyLineEnds rest
  | [] => []

/-- Whether a character ends a line. -/
def isLineBreak (c : Char) : Bool :=
  let n := c.toNat
  (0x0a ≤ n && n ≤ 0x0d) || (0x1c ≤ n && n ≤ 0x1e) || n == 0x85 || n == 0x2028 || n == 0x2029

/-- The lines of a text, each with the line break at its end. -/
def lines : List Char → List (List Char)
  | [] => []
  | '\r' :: '\n' :: rest => ['\r', '\n'] :: lines rest
  | c :: rest =>
    if isLineBreak c then [c] :: lines rest
    else
      match lines rest with
      | line :: more => (c :: line) :: more
      | [] => [[c]]

/-- The text without a newline at its end. -/
def dropFinalNewline (s : List Char) : List Char :=
  if s.getLast? == some '\n' then s.dropLast else s

/-- The parts of a path, without empty ones and dots. -/
def pathParts (path : String) : List String :=
  (path.splitToList (· == '/')).filter fun part => !part.isEmpty && part != "."

/-- The root that a path starts from: one slash, or exactly two. -/
def pathRoot (path : String) : String :=
  match path.toList.takeWhile (· == '/') with
  | [] => ""
  | [_, _] => "//"
  | _ => "/"

/-- A path without parts that lead nowhere. -/
def plainPath (path : String) : String :=
  match pathRoot path ++ "/".intercalate (pathParts path) with
  | "" => "."
  | plain => plain

end RowSchema.Text
