import RowSchema.Decimal.Shortest

/-! Decimal numbers as text. -/

namespace RowSchema.Decimal

/-- How floating-point numbers are laid out. -/
structure Layout where
  /-- the least power of ten of a leading digit that is written positionally -/
  plainFrom : Int
  /-- the first power of ten that is not -/
  plainBelow : Int
  exponentMark : String
  exponentWidth : Nat
  notANumber : String
  infinity : String

/-- Numbers from a ten-thousandth up to ten to the sixteenth are written positionally and always
with a fraction; others get a signed exponent of at least two digits. -/
def numbers : Layout where
  plainFrom := -4
  plainBelow := 16
  exponentMark := "e"
  exponentWidth := 2
  notANumber := "nan"
  infinity := "inf"

private def zeros (n : Nat) : List Char := List.replicate n '0'

/-- The digits without trailing zeros. -/
private def significant (digits : List Char) : List Char :=
  (digits.reverse.dropWhile (· == '0')).reverse

private def padded (width n : Nat) : List Char :=
  let digits := Nat.toDigits 10 n
  zeros (width - digits.length) ++ digits

/-- A non-zero magnitude. The power of ten of the leading digit decides between the two forms. -/
def Layout.magnitude (layout : Layout) (x : Scaled) : List Char :=
  let all := Nat.toDigits 10 x.digits
  let leading := x.exponent + all.length - 1
  let digits := significant all
  if layout.plainFrom ≤ leading && leading < layout.plainBelow then
    if leading < 0 then '0' :: '.' :: (zeros (-leading - 1).toNat ++ digits)
    else
      let whole := leading.toNat + 1
      let fraction := digits.drop whole
      digits.take whole ++ zeros (whole - digits.length) ++ '.' ::
        (if fraction.isEmpty then ['0'] else fraction)
  else
    let fraction := digits.drop 1
    digits.take 1 ++ (if fraction.isEmpty then [] else '.' :: fraction)
      ++ layout.exponentMark.toList ++ (if leading < 0 then '-' else '+') ::
        padded layout.exponentWidth leading.natAbs

def Layout.render (layout : Layout) (x : Float) : String :=
  let bits := x.toBits
  let negative := bits >>> 63 == 1
  let signed (s : String) := if negative then "-" ++ s else s
  if x.isNaN then layout.notANumber
  else if x.isInf then signed layout.infinity
  else
    let dyadic := Dyadic.ofBits bits
    if dyadic.mantissa == 0 then signed "0.0"
    else signed (String.ofList (layout.magnitude dyadic.shortest))

/-! ## The characters of numbers -/

/-- A digit, or one of the signs and letters that the text of a number has besides. -/
def isNumeric (c : Char) : Bool := c.isDigit || "+-.aefin".toList.contains c

theorem isNumeric_of_isDigit {c : Char} (h : c.isDigit = true) : isNumeric c = true := by
  simp [isNumeric, h]

theorem isNumeric_toDigits (n : Nat) : ∀ c ∈ Nat.toDigits 10 n, isNumeric c = true :=
  fun _ hc => isNumeric_of_isDigit (Nat.isDigit_of_mem_toDigits (by decide) (by decide) hc)

theorem isNumeric_toString (n : Int) :
    (toString n).toList ≠ [] ∧ ∀ c ∈ (toString n).toList, isNumeric c = true := by
  cases n with
  | ofNat m =>
    have hchars : (toString (Int.ofNat m)).toList = Nat.toDigits 10 m := by
      simp [Int.toString_eq_repr, Int.repr]
    rw [hchars]
    exact ⟨by simp, isNumeric_toDigits m⟩
  | negSucc m =>
    have hchars : (toString (Int.negSucc m)).toList = '-' :: Nat.toDigits 10 (m + 1) := by
      simp [Int.toString_eq_repr, Int.repr]
    rw [hchars]
    exact ⟨by simp, List.forall_mem_cons.mpr ⟨by decide, isNumeric_toDigits _⟩⟩

private theorem isNumeric_zeros (n : Nat) : ∀ c ∈ zeros n, isNumeric c = true := by
  intro c hc
  rw [List.eq_of_mem_replicate hc]
  rfl

private theorem mem_of_mem_significant {c : Char} {digits : List Char}
    (h : c ∈ significant digits) : c ∈ digits :=
  List.mem_reverse.mp (List.dropWhile_subset _ (List.mem_reverse.mp h))

private theorem isNumeric_padded (width n : Nat) : ∀ c ∈ padded width n, isNumeric c = true :=
  List.forall_mem_append.mpr ⟨isNumeric_zeros _, isNumeric_toDigits n⟩

theorem isNumeric_magnitude (x : Scaled) : ∀ c ∈ numbers.magnitude x, isNumeric c = true := by
  have hdigits : ∀ c ∈ significant (Nat.toDigits 10 x.digits), isNumeric c = true :=
    fun c hc => isNumeric_toDigits _ c (mem_of_mem_significant hc)
  have htake (n : Nat) : ∀ c ∈ (significant (Nat.toDigits 10 x.digits)).take n,
      isNumeric c = true := fun c hc => hdigits c (List.mem_of_mem_take hc)
  have hdrop (n : Nat) : ∀ c ∈ (significant (Nat.toDigits 10 x.digits)).drop n,
      isNumeric c = true := fun c hc => hdigits c (List.mem_of_mem_drop hc)
  have hpoint : isNumeric '.' = true := rfl
  have hzero : isNumeric '0' = true := rfl
  unfold Layout.magnitude
  dsimp only
  split
  · split
    · simp only [List.forall_mem_cons, List.forall_mem_append]
      exact ⟨hzero, hpoint, isNumeric_zeros _, hdigits⟩
    · simp only [List.forall_mem_cons, List.forall_mem_append]
      refine ⟨⟨htake _, isNumeric_zeros _⟩, hpoint, ?_⟩
      split
      · simp [hzero]
      · exact hdrop _
  · simp only [List.forall_mem_cons, List.forall_mem_append]
    refine ⟨⟨⟨htake _, ?_⟩, ?_⟩, ?_, isNumeric_padded _ _⟩
    · split
      · simp
      · exact List.forall_mem_cons.mpr ⟨hpoint, hdrop _⟩
    · exact List.all_eq_true.mp (by decide)
    · split <;> rfl

theorem magnitude_ne_nil (layout : Layout) (x : Scaled) : layout.magnitude x ≠ [] := by
  unfold Layout.magnitude
  dsimp only
  split
  · split <;> simp
  · simp

theorem isNumeric_render (x : Float) : ∀ c ∈ (numbers.render x).toList, isNumeric c = true := by
  have hsigned (negative : Bool) {s : String} (hs : ∀ c ∈ s.toList, isNumeric c = true) :
      ∀ c ∈ (if negative then "-" ++ s else s).toList, isNumeric c = true := by
    split
    · rw [String.toList_append, List.forall_mem_append]
      exact ⟨List.all_eq_true.mp (by decide), hs⟩
    · exact hs
  unfold Layout.render
  dsimp only
  split
  · exact List.all_eq_true.mp (by decide)
  · split
    · exact hsigned _ (List.all_eq_true.mp (by decide))
    · split
      · exact hsigned _ (List.all_eq_true.mp (by decide))
      · refine hsigned _ ?_
        rw [String.toList_ofList]
        exact isNumeric_magnitude _

theorem render_ne_empty (x : Float) : (numbers.render x).toList ≠ [] := by
  have hsigned (negative : Bool) {s : String} (hs : s.toList ≠ []) :
      (if negative then "-" ++ s else s).toList ≠ [] := by
    split
    · simp
    · exact hs
  unfold Layout.render
  dsimp only
  split
  · decide
  · split
    · exact hsigned _ (by decide)
    · split
      · exact hsigned _ (by decide)
      · refine hsigned _ ?_
        rw [String.toList_ofList]
        exact magnitude_ne_nil _ _

end RowSchema.Decimal
