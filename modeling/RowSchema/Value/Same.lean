import RowSchema.Decimal.Shortest
import RowSchema.Value

/-! When two values count as the same: numbers of all kinds by what they denote, truth values being
one and zero, and dictionaries whatever the order of their entries. -/

namespace RowSchema

/-- Whether a float is exactly the integer `n`. -/
def Decimal.denotes (x : Float) (n : Int) : Bool :=
  if x.isNaN || x.isInf then false
  else
    let dyadic := Dyadic.ofBits x.toBits
    let up := dyadic.exponent.toNat
    let down := (-dyadic.exponent).toNat
    let sign : Int := if x < 0 then -1 else 1
    sign * (dyadic.mantissa * Nat.pow 2 up : Nat) == n * (Nat.pow 2 down : Nat)

/-- A number, as far as equality goes. -/
inductive Value.Number where
  | exact (n : Int)
  | float (x : Float)

def Value.number? : Value → Option Value.Number
  | .bool b => some (.exact (if b then 1 else 0))
  | .int n => some (.exact n)
  | .float x => some (.float x)
  | _ => none

def Value.Number.same : Value.Number → Value.Number → Bool
  | .exact m, .exact n => m == n
  | .exact m, .float x => Decimal.denotes x m
  | .float x, .exact n => Decimal.denotes x n
  | .float x, .float y => x == y

mutual

def Value.same : Value → Value → Bool
  | .null, .null => true
  | .text s, .text t => s == t
  | .list xs, .list ys => Value.sameAll xs ys
  | .tuple xs, .tuple ys => Value.sameAll xs ys
  | .dict xs, .dict ys => xs.length == ys.length && Value.within xs ys
  | .sql a, .sql b => a.same b
  | .variant m x, .variant n y => m == n && x.same y
  | .object m xs, .object n ys => m == n && Value.sameFields xs ys
  | .made xs ms, .made ys ns => Value.sameAll xs ys && Value.sameNamed ms ns
  | .bool a, y => sameNumber (.exact (if a then 1 else 0)) y
  | .int a, y => sameNumber (.exact a) y
  | .float a, y => sameNumber (.float a) y
  | _, _ => false
termination_by structural v => v
where
  sameNumber (x : Value.Number) (y : Value) : Bool := y.number?.any x.same

def Value.sameAll : List Value → List Value → Bool
  | [], [] => true
  | x :: xs, y :: ys => x.same y && Value.sameAll xs ys
  | _, _ => false
termination_by structural values => values

/-- Whether every entry is also in `ys`. -/
def Value.within : List (Value × Value) → List (Value × Value) → Bool
  | [], _ => true
  | (k, v) :: xs, ys => ys.any (fun (l, w) => k.same l && v.same w) && Value.within xs ys
termination_by structural entries => entries

def Value.sameFields : List (String × Option Value) → List (String × Option Value) → Bool
  | [], [] => true
  | (m, none) :: xs, (n, none) :: ys => m == n && Value.sameFields xs ys
  | (m, some x) :: xs, (n, some y) :: ys => m == n && x.same y && Value.sameFields xs ys
  | _, _ => false
termination_by structural fields => fields

def Value.sameNamed : List (String × Value) → List (String × Value) → Bool
  | [], [] => true
  | (m, x) :: xs, (n, y) :: ys => m == n && x.same y && Value.sameNamed xs ys
  | _, _ => false
termination_by structural named => named

def SqlExpr.same : SqlExpr → SqlExpr → Bool
  | .bound x, .bound y => x.same y
  | .column t c, .column u d => t == u && c == d
  | .raw s, .raw t => s == t
  | _, _ => false
termination_by structural e => e

end

instance : BEq Value := ⟨Value.same⟩

end RowSchema
