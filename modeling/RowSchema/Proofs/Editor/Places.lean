import Mathlib.Data.List.Basic
import RowSchema.Place

/-! # Places of offsets

Every offset has a place of its own: the line tells how many line breaks come before, and after as
many of them only the character goes on. -/

namespace RowSchema.Place

variable {source : String} {text more : List Char} {p : Place} {m n : Nat}

/-! ## The last line -/

theorem lastBreak?_cons (c : Char) (text : List Char) : lastBreak? (c :: text) =
    ((lastBreak? text).map (· + 1)).or (if c = '\n' then some 0 else none) := by
  unfold lastBreak?
  rw [List.reverse_cons, List.findIdx?_append]
  cases hfound : text.reverse.findIdx? (· == '\n') with
  | none => by_cases hc : c = '\n' <;> simp [hc]
  | some i =>
    have hi := (List.findIdx?_eq_some_iff_findIdx_eq.mp hfound).1
    rw [List.length_reverse] at hi
    simp only [Option.some_or, Option.map_some, Option.some.injEq, List.length_cons]
    omega

theorem lastBreak?_eq_none_iff : lastBreak? text = none ↔ '\n' ∉ text := by
  induction text with
  | nil => simp [lastBreak?]
  | cons c text ih =>
    rw [lastBreak?_cons, Option.or_eq_none_iff, Option.map_eq_none_iff, ih, List.mem_cons, not_or]
    simp [and_comm, eq_comm]

theorem lastBreak?_append (h : '\n' ∉ more) : lastBreak? (text ++ more) = lastBreak? text := by
  induction text with
  | nil => exact lastBreak?_eq_none_iff.mpr h
  | cons c text ih => rw [List.cons_append, lastBreak?_cons, lastBreak?_cons, ih]

/-- A line goes on up to the next line break. -/
theorem lineStart_append (h : '\n' ∉ more) : lineStart (text ++ more) = lineStart text := by
  rw [lineStart, lastBreak?_append h, lineStart]

theorem lineStart_le (text : List Char) : lineStart text ≤ text.length := by
  induction text with
  | nil => exact Nat.le_refl _
  | cons c text ih =>
    unfold lineStart at ih ⊢
    rw [lastBreak?_cons, List.length_cons]
    cases hbreak : lastBreak? text with
    | none => by_cases hc : c = '\n' <;> simp [hc]
    | some n =>
      rw [hbreak] at ih
      exact Nat.succ_le_succ ih

/-! ## Places -/

theorem ofOffset_natCast (source : String) (n : Nat) :
    ofOffset source n =
      ⟨(source.toList.take n).count '\n', n - lineStart (source.toList.take n)⟩ := by
  have hnot : ¬ (n : Int) < 0 := by omega
  rw [ofOffset, before, if_neg hnot, Int.toNat_natCast]

/-- The characters between two offsets of one line hold no line break. -/
theorem exists_take_eq_append (hle : m ≤ n)
    (h : (source.toList.take m).count '\n' = (source.toList.take n).count '\n') :
    ∃ more, source.toList.take n = source.toList.take m ++ more ∧ '\n' ∉ more := by
  obtain ⟨k, rfl⟩ := Nat.exists_eq_add_of_le hle
  rw [List.take_add] at h ⊢
  refine ⟨_, rfl, List.count_eq_zero.mp ?_⟩
  rw [List.count_append] at h
  omega

theorem ofOffset_injective (h : ofOffset source m = ofOffset source n) : m = n := by
  wlog hle : m ≤ n generalizing m n
  · exact (this h.symm (Nat.le_of_not_le hle)).symm
  rw [ofOffset_natCast, ofOffset_natCast] at h
  obtain ⟨hline, hcharacter⟩ := Place.mk.inj h
  obtain ⟨more, htake, hmore⟩ := exists_take_eq_append hle (Int.ofNat.inj hline)
  rw [htake, lineStart_append hmore] at hcharacter
  omega

/-- A command and an editor name the same place: the command counts from one. -/
theorem lineColumn_ofOffset (source : String) (offset : Int) : LineColumn.ofOffset source offset =
    ⟨(ofOffset source offset).line + 1, (ofOffset source offset).character + 1⟩ := by
  unfold LineColumn.ofOffset ofOffset
  extract_lets passed
  have hcolumn : offset - ((lastBreak? passed).map Int.ofNat).getD (-1) =
      offset - lineStart passed + 1 := by
    unfold lineStart
    cases lastBreak? passed with
    | none =>
      rw [Option.map_none, Option.getD_none]
      dsimp only
      omega
    | some n =>
      rw [Option.map_some, Option.getD_some, Int.ofNat_eq_natCast]
      dsimp only
      omega
  rw [hcolumn]

/-! ## Places that an editor can count to -/

/-- An editor can count to the place and to the character after it. -/
def Countable (p : Place) : Prop :=
  p.line ≤ RangeError.limit ∧ p.character < RangeError.limit

theorem isCountable_iff {n : Int} : isCountable n = true ↔ 0 ≤ n ∧ n ≤ RangeError.limit := by
  simp [isCountable]

theorem checked_eq_ok_iff {p' : Place} : p.checked = .ok p' ↔
    p' = p ∧ isCountable p.line = true ∧ isCountable p.character = true := by
  unfold checked
  cases hline : isCountable p.line with
  | false => simp
  | true => cases hcharacter : isCountable p.character <;> simp [eq_comm]

theorem ofOffset_nonneg (source : String) (n : Nat) :
    0 ≤ (ofOffset source n).line ∧ 0 ≤ (ofOffset source n).character := by
  rw [ofOffset_natCast]
  have hstart := lineStart_le (source.toList.take n)
  rw [List.length_take] at hstart
  constructor
  · exact Int.natCast_nonneg _
  · dsimp only
    omega

/-- No place has greater numbers than its offset. -/
theorem ofOffset_le (source : String) (n : Nat) :
    (ofOffset source n).line ≤ n ∧ (ofOffset source n).character ≤ n := by
  have hcount := List.count_le_length (a := '\n') (l := source.toList.take n)
  rw [List.length_take] at hcount
  rw [ofOffset_natCast]
  constructor <;> dsimp only <;> omega

theorem checked_ofOffset (hline : (ofOffset source n).line ≤ RangeError.limit)
    (hcharacter : (ofOffset source n).character ≤ RangeError.limit) :
    (ofOffset source n).checked = .ok (ofOffset source n) := by
  obtain ⟨hline', hcharacter'⟩ := ofOffset_nonneg source n
  rw [checked_eq_ok_iff, isCountable_iff, isCountable_iff]
  exact ⟨rfl, ⟨hline', hline⟩, hcharacter', hcharacter⟩

end RowSchema.Place
