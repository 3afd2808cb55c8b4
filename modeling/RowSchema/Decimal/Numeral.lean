import RowSchema.Text.Blank
import RowSchema.Text.DecimalDigit

/-! Numbers read from text. -/

namespace RowSchema.Decimal

/-- The natural that a run of digits, most significant first, stands for. -/
def ofDigits (digits : List Char) : Nat :=
  digits.foldl (fun n c => 10 * n + (Text.digitValue? c).getD 0) 0

def signed (negative : Bool) (x : Float) : Float := if negative then -x else x

/-- The float nearest to `whole.fraction · 10 ^ exponent`. -/
def nearestFloat (whole fraction : List Char) (exponent : Int) : Float :=
  let e := exponent - fraction.length
  Float.ofScientific (ofDigits (whole ++ fraction)) (e < 0) e.natAbs

/-- Digits, with single underscores allowed between them; and what follows. -/
def takeDigits : List Char → List Char × List Char
  | c :: '_' :: d :: rest =>
    if Text.isDigit c then
      if Text.isDigit d then
        let (digits, after) := takeDigits (d :: rest)
        (c :: digits, after)
      else ([c], '_' :: d :: rest)
    else ([], c :: '_' :: d :: rest)
  | c :: rest =>
    if Text.isDigit c then
      let (digits, after) := takeDigits rest
      (c :: digits, after)
    else ([], c :: rest)
  | [] => ([], [])

def takeSign : List Char → Bool × List Char
  | '-' :: rest => (true, rest)
  | '+' :: rest => (false, rest)
  | rest => (false, rest)

/-- An exponent that ends the text. -/
def exponent? : List Char → Option Int
  | [] => some 0
  | mark :: rest =>
    if mark == 'e' || mark == 'E' then
      let (negative, rest) := takeSign rest
      match takeDigits rest with
      | ([], _) => none
      | (digits, []) => some (if negative then -(ofDigits digits : Int) else ofDigits digits)
      | (_, _ :: _) => none
    else none

/-- Whether a character may stand around a number: a blank that is none of the four separators of
ASCII. -/
def isPadding (c : Char) : Bool := Text.isBlank c && !(0x1c ≤ c.toNat && c.toNat ≤ 0x1f)

/-- A number in positional or exponent form, or one of the words for infinity and
not-a-number; blanks around it and a sign are allowed. -/
def read? (s : String) : Option Float :=
  let trimmed := (s.toList.dropWhile isPadding).reverse.dropWhile isPadding |>.reverse
  let (negative, body) := takeSign trimmed
  let word := String.ofList (body.map Char.toLower)
  if word == "inf" || word == "infinity" then some (signed negative (1.0 / 0.0))
  else if word == "nan" then some (0.0 / 0.0)
  else
    let (whole, rest) := takeDigits body
    let (fraction, rest) := match rest with
      | '.' :: more => takeDigits more
      | _ => ([], rest)
    if whole.isEmpty && fraction.isEmpty then none
    else (exponent? rest).map fun e => signed negative (nearestFloat whole fraction e)

end RowSchema.Decimal
