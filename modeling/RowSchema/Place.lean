import RowSchema.Span

/-! Places of a text: lines and characters for offsets. -/

namespace RowSchema

/-- Character number `character` of line number `line`, both counted from zero. -/
structure Place where
  line : Int
  character : Int
deriving DecidableEq, Repr

/-- The line and the column of a character, both counted from one. -/
structure LineColumn where
  line : Int
  column : Int
deriving DecidableEq, Repr

namespace Place

def origin : Place := ⟨0, 0⟩

/-- The characters in front of an offset. A negative offset counts from the end of the text. -/
def before (text : List Char) (offset : Int) : List Char :=
  text.take (if offset < 0 then offset + text.length else offset).toNat

/-- The offset of the last line break in a text. -/
def lastBreak? (text : List Char) : Option Nat :=
  (text.reverse.findIdx? (· == '\n')).map (text.length - 1 - ·)

/-- The offset at which the last line of a text starts. -/
def lineStart (text : List Char) : Nat :=
  match lastBreak? text with
  | some n => n + 1
  | none => 0

/-- The place of an offset. Beyond the end of the text the last line goes on. -/
def ofOffset (source : String) (offset : Int) : Place :=
  let passed := before source.toList offset
  ⟨passed.count '\n', offset - lineStart passed⟩

/-- The start of the last line of a text. -/
def lastLine (source : String) : Place := ⟨source.toList.count '\n', 0⟩

/-- Whether an editor can count to a number. -/
def isCountable (n : Int) : Bool := decide (0 ≤ n) && decide (n ≤ RangeError.limit)

/-- The place, if an editor can count to it. -/
def checked (p : Place) : Except RangeError Place :=
  if !isCountable p.line then .error (.outside "line" p.line)
  else if !isCountable p.character then .error (.outside "character" p.character)
  else .ok p

end Place

namespace LineColumn

/-- The line and column of an offset. Columns are counted from the last line break on, which a first
line has in front of the text. -/
def ofOffset (source : String) (offset : Int) : LineColumn :=
  let passed := Place.before source.toList offset
  ⟨passed.count '\n' + 1, offset - ((Place.lastBreak? passed).map Int.ofNat).getD (-1)⟩

def text (p : LineColumn) : String := toString p.line ++ ":" ++ toString p.column

end LineColumn

/-- From the first character of the range up to, but not including, the last one. -/
structure PlaceRange where
  start : Place
  stop : Place
deriving DecidableEq, Repr

namespace PlaceRange

/-- The places of a span, as an editor has them. -/
def ofSpan (source : String) (s : Span) : Except RangeError PlaceRange := do
  return ⟨← (Place.ofOffset source s.start).checked, ← (Place.ofOffset source s.stop).checked⟩

/-- No text, at one place. -/
def empty (p : Place) : PlaceRange := ⟨p, p⟩

end PlaceRange

end RowSchema
