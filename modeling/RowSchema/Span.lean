/-! Ranges of the declaration text. -/

namespace RowSchema

/-- The characters from offset `start` up to, but not including, offset `stop`. Spans that were not
read from a text may be anything. -/
structure Span where
  start : Int
  stop : Int
deriving DecidableEq, Repr, Inhabited

/-- Why a range is of no use. -/
inductive RangeError where
  /-- the length of a span that ends before it starts was asked for -/
  | backwards
  /-- the length of a span is no machine integer -/
  | tooLong
  /-- an editor cannot count to that line or character -/
  | outside (part : String) (number : Int)
deriving DecidableEq, Repr

/-- The greatest number of a line or character. -/
def RangeError.limit : Int := 2147483647

/-- The greatest length of a span. -/
def RangeError.longest : Int := 9223372036854775807

def RangeError.message : RangeError → String
  | backwards => "__len__() should return >= 0"
  | tooLong => "cannot fit 'int' into an index-sized integer"
  | outside part number =>
    "Position." ++ part ++ " should be in range [0:" ++ toString limit ++ "], but was "
      ++ toString number ++ "."

namespace Span

def isEmpty? (s : Span) : Except RangeError Bool :=
  if s.stop < s.start then .error .backwards
  else if RangeError.longest < s.stop - s.start then .error .tooLong
  else .ok (s.start == s.stop)

/-- The span, unless it is missing or empty; then the other one. -/
def orElse : Option Span → Option Span → Except RangeError (Option Span)
  | none, other => .ok other
  | some s, other => s.isEmpty?.map fun isEmpty => if isEmpty then other else some s

end Span

end RowSchema
