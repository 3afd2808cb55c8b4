/-! The fewest decimal digits that identify a binary floating-point number. All is exact arithmetic
on naturals: the number and the ends of the interval of reals that round to it are multiples of one
power of ten, and the search goes from the coarsest decimal grid to the finest. -/

namespace RowSchema.Decimal

/-- `digits · 10 ^ exponent`. -/
structure Scaled where
  digits : Nat
  exponent : Int
deriving DecidableEq, Repr

/-- A finite magnitude `mantissa · 2 ^ exponent`. Below a power of two the next smaller float is
only half as far away as the next larger one. -/
structure Dyadic where
  mantissa : Nat
  exponent : Int
  narrowBelow : Bool
deriving DecidableEq, Repr

def Dyadic.ofBits (bits : UInt64) : Dyadic :=
  let e := ((bits >>> 52) &&& 0x7ff).toNat
  let f := (bits &&& 0xfffffffffffff).toNat
  if e == 0 then ⟨f, -1074, false⟩ else ⟨0x10000000000000 + f, (e : Int) - 1075, f == 0 && e > 1⟩

/-- A value and the reals that round to it, all in units of `10 ^ exponent`. -/
structure Rounding where
  value : Nat
  low : Nat
  high : Nat
  /-- whether the two ends round to the value as well -/
  closed : Bool
  exponent : Int
deriving DecidableEq, Repr

/-- A quarter of the last binary place is a whole number of the units. -/
def Dyadic.rounding (x : Dyadic) : Rounding :=
  let q := x.exponent - 2
  let unit := if q < 0 then Nat.pow 5 (-q).toNat else Nat.pow 2 q.toNat
  { value := 4 * x.mantissa * unit
    low := (4 * x.mantissa - if x.narrowBelow then 1 else 2) * unit
    high := (4 * x.mantissa + 2) * unit
    closed := x.mantissa % 2 == 0
    exponent := min q 0 }

def Rounding.covers (r : Rounding) (n : Nat) : Bool :=
  if r.closed then r.low ≤ n && n ≤ r.high else r.low < n && n < r.high

/-- Which of the value's two neighbours among the multiples of `grid` rounds to it: the nearer one
if both do, and the even multiple if they are equally near. -/
def Rounding.neighbour? (r : Rounding) (grid : Nat) : Option Nat :=
  let below := r.value / grid
  match r.covers (below * grid), r.covers ((below + 1) * grid) with
  | false, false => none
  | true, false => some below
  | false, true => some (below + 1)
  | true, true =>
    match compare (2 * r.value) ((2 * below + 1) * grid) with
    | .lt => some below
    | .gt => some (below + 1)
    | .eq => some (if below % 2 == 0 then below else below + 1)

/-- The first hit on the grids `10 ^ places`, …, `10`, `1`. The value itself lies on the last. -/
def Rounding.shortestFrom (r : Rounding) : Nat → Scaled
  | 0 => ⟨r.value, r.exponent⟩
  | places + 1 =>
    match r.neighbour? (10 ^ (places + 1)) with
    | some digits => ⟨digits, r.exponent + (places + 1 : Nat)⟩
    | none => r.shortestFrom places

def digitCount (n : Nat) : Nat := (Nat.toDigits 10 n).length

/-- The shortest decimal that rounds to the number, and of these the nearest. -/
def Dyadic.shortest (x : Dyadic) : Scaled :=
  x.rounding.shortestFrom (digitCount x.rounding.value - 1)

end RowSchema.Decimal
