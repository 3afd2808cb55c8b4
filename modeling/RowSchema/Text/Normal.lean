import RowSchema.Text.Composite
import RowSchema.Text.MarkClass
import RowSchema.Text.Variant

/-! The form that names are read in. Characters that are read as others give way to these, all are
taken apart, marks are brought into the order of their classes, and then everything is composed that
can be. -/

namespace RowSchema.Text

/-- A character taken apart, as far as `depth` marks. -/
def decomposed : Nat → Char → List Char
  | 0, c => [c]
  | depth + 1, c =>
    match parts? c with
    | some (base, mark) => decomposed depth base ++ [mark]
    | none => [c]

/-- No character is composed with more marks than these. -/
def markLimit : Nat := 3

/-- A mark before others moves behind those of lower classes. -/
def insertMark (c : Char) : List Char → List Char
  | [] => [c]
  | d :: rest =>
    if 0 < markClass d && markClass d < markClass c then d :: insertMark c rest
    else c :: d :: rest

/-- The marks of each character in the order of their classes. -/
def ordered : List Char → List Char
  | [] => []
  | c :: rest => insertMark c (ordered rest)

theorem insertMark_perm (c : Char) (s : List Char) : (insertMark c s).Perm (c :: s) := by
  fun_induction insertMark c s with
  | case1 => exact .refl _
  | case2 d rest _ ih => exact (ih.cons d).trans (.swap c d rest)
  | case3 => exact .refl _

/-- Ordering neither adds nor drops a character. -/
theorem ordered_perm (s : List Char) : (ordered s).Perm s := by
  induction s with
  | nil => exact .refl _
  | cons c rest ih => exact (insertMark_perm c _).trans (ih.cons c)

/-- A character composed with what follows it, and the rest likewise. The marks in `kept`, last one
first, stay behind the character, and keep those from it that are not of a higher class. -/
def composedFrom (base : Char) (kept : List Char) : List Char → List Char
  | [] => base :: kept.reverse
  | c :: rest =>
    match if kept.any (markClass c ≤ markClass ·) then none else compose? base c with
    | some whole => composedFrom whole kept rest
    | none =>
      if markClass c == 0 then base :: kept.reverse ++ composedFrom c [] rest
      else composedFrom base (c :: kept) rest

def composed : List Char → List Char
  | [] => []
  | c :: rest => composedFrom c [] rest

/-- What a name is read as. -/
def normal (name : List Char) : List Char :=
  composed (ordered ((name.flatMap variant).flatMap (decomposed markLimit)))

end RowSchema.Text
