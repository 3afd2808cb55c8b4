import Mathlib.Algebra.GroupWithZero.Nat
import RowSchema.Proofs.Basic
import RowSchema.Proofs.Editor.Places
import RowSchema.Proofs.Token.Spans

/-! # Offsets of places

A place tells its offset: the lines in front of it, each with its line break, and then the
characters in front of it. There is one place in a text for each offset. So places stand in the
order of their offsets, and a range tells its span. -/

namespace RowSchema

variable {source : String} {m n : Nat}

namespace Place

/-- The lines of a text, without their line breaks. -/
def lines (source : String) : List (List Char) := source.toList.splitOn '\n'

/-- The offset of a place: that of its line and the characters in front of it there. -/
def toOffset (source : String) (p : Place) : Int :=
  ((((lines source).take p.line.toNat).map (·.length + 1)).sum : Nat) + p.character

/-- The place is on a line of the text, at one of its characters or behind the last one. -/
structure IsIn (source : String) (p : Place) : Prop where
  line : 0 ≤ p.line
  character : 0 ≤ p.character
  onLine : ∃ line, (lines source)[p.line.toNat]? = some line ∧ p.character ≤ line.length

/-- The place comes first in the order of lines, and of characters in a line. -/
def Before (p q : Place) : Prop :=
  Prod.Lex (· < ·) (· < ·) (p.line, p.character) (q.line, q.character)

theorem lineStart_nil : lineStart [] = 0 := rfl

theorem lineStart_break (text : List Char) : lineStart ('\n' :: text) = lineStart text + 1 := by
  unfold lineStart
  rw [lastBreak?_cons, if_pos rfl]
  cases lastBreak? text <;> rfl

/-- A character more in the first line moves the lines behind it. -/
theorem lineStart_cons {c : Char} (hc : c ≠ '\n') (text : List Char) :
    lineStart (c :: text) = if '\n' ∈ text then lineStart text + 1 else 0 := by
  unfold lineStart
  rw [lastBreak?_cons, if_neg hc, Option.or_none]
  split
  · next hbreak =>
    obtain ⟨n, hn, rfl⟩ := Option.map_eq_some_iff.mp hbreak
    have hmem : '\n' ∈ text := by
      by_contra hnone
      rw [lastBreak?_eq_none_iff.mpr hnone] at hn
      cases hn
    rw [if_pos hmem, hn]
  · next hbreak =>
    rw [Option.map_eq_none_iff, lastBreak?_eq_none_iff] at hbreak
    rw [if_neg hbreak]

theorem splitOn_break (text : List Char) :
    ('\n' :: text).splitOn '\n' = [] :: text.splitOn '\n' := by
  rw [List.splitOn, List.splitOnP_cons_eq_if_modifyHead, if_pos (beq_self_eq_true _),
    ← List.splitOn]

/-- A character more makes the first line longer. -/
theorem splitOn_cons {c : Char} (hc : c ≠ '\n') (text : List Char) : ∃ first rest,
    text.splitOn '\n' = first :: rest ∧ (c :: text).splitOn '\n' = (c :: first) :: rest := by
  obtain ⟨first, rest, hlines⟩ := List.exists_cons_of_ne_nil (List.splitOn_ne_nil '\n' text)
  refine ⟨first, rest, hlines, ?_⟩
  rw [List.splitOn, List.splitOnP_cons_eq_if_modifyHead, if_neg (by simpa using hc),
    ← List.splitOn, hlines, List.modifyHead_cons]

/-- The lines in front of an offset, each with its line break, take up all that is in front of the
line of the offset. -/
theorem sum_lines (text : List Char) (n : Nat) :
    (((text.splitOn '\n').take ((text.take n).count '\n')).map (·.length + 1)).sum =
      lineStart (text.take n) := by
  induction text generalizing n with
  | nil =>
    rw [List.take_nil, List.count_nil, List.take_zero, List.map_nil, List.sum_nil, lineStart_nil]
  | cons c text ih =>
    cases n with
    | zero =>
      rw [List.take_zero, List.count_nil, List.take_zero, List.map_nil, List.sum_nil, lineStart_nil]
    | succ n =>
      rw [List.take_succ_cons]
      by_cases hc : c = '\n'
      · subst hc
        rw [splitOn_break, List.count_cons_self, List.take_succ_cons, List.map_cons, List.sum_cons,
          ih, lineStart_break, List.length_nil]
        omega
      · obtain ⟨first, rest, hlines, hmore⟩ := splitOn_cons hc text
        have ih := ih n
        rw [hlines] at ih
        rw [hmore, List.count_cons_of_ne hc, lineStart_cons hc]
        split
        · next hmem =>
          obtain ⟨k, hk⟩ := Nat.exists_eq_succ_of_ne_zero
            (Nat.ne_of_gt (List.count_pos_iff.mpr hmem))
          rw [hk, List.take_succ_cons, List.map_cons, List.sum_cons] at ih ⊢
          rw [List.length_cons]
          omega
        · next hmem =>
          rw [List.count_eq_zero.mpr hmem, List.take_zero, List.map_nil, List.sum_nil]

/-- Every place of a text tells its offset. -/
theorem toOffset_ofOffset (source : String) (n : Nat) :
    (ofOffset source n).toOffset source = n := by
  have hsum := sum_lines source.toList n
  rw [toOffset, ofOffset_natCast, lines, Int.toNat_natCast, hsum]
  dsimp only
  omega

/-- The line of an offset goes on at least as far as the offset. -/
theorem exists_line {text : List Char} {n : Nat} (hn : n ≤ text.length) :
    ∃ line, (text.splitOn '\n')[(text.take n).count '\n']? = some line ∧
      n ≤ lineStart (text.take n) + line.length := by
  induction text generalizing n with
  | nil =>
    obtain rfl := Nat.eq_zero_of_le_zero hn
    exact ⟨[], rfl, Nat.le_refl _⟩
  | cons c text ih =>
    cases n with
    | zero =>
      obtain ⟨first, rest, hlines⟩ :=
        List.exists_cons_of_ne_nil (List.splitOn_ne_nil '\n' (c :: text))
      rw [List.take_zero, List.count_nil, hlines]
      exact ⟨first, rfl, Nat.zero_le _⟩
    | succ n =>
      obtain ⟨line, hline, hle⟩ := ih (Nat.le_of_succ_le_succ hn)
      rw [List.take_succ_cons]
      by_cases hc : c = '\n'
      · subst hc
        rw [splitOn_break, List.count_cons_self, List.getElem?_cons_succ, lineStart_break]
        exact ⟨line, hline, by omega⟩
      · obtain ⟨first, rest, hlines, hmore⟩ := splitOn_cons hc text
        rw [hlines] at hline
        rw [hmore, List.count_cons_of_ne hc, lineStart_cons hc]
        split
        · next hmem =>
          obtain ⟨k, hk⟩ := Nat.exists_eq_succ_of_ne_zero
            (Nat.ne_of_gt (List.count_pos_iff.mpr hmem))
          rw [hk, List.getElem?_cons_succ] at hline ⊢
          exact ⟨line, hline, by omega⟩
        · next hmem =>
          -- the offset is on the first line, which the character makes longer
          rw [List.count_eq_zero.mpr hmem, List.getElem?_cons_zero] at hline ⊢
          obtain rfl := Option.some.inj hline
          have hstart : lineStart ([] ++ text.take n) = 0 := lineStart_append hmem
          rw [List.nil_append] at hstart
          refine ⟨c :: first, rfl, ?_⟩
          rw [List.length_cons]
          omega

theorem isIn_ofOffset (hn : n ≤ source.toList.length) : (ofOffset source n).IsIn source := by
  obtain ⟨hline, hcharacter⟩ := ofOffset_nonneg source n
  obtain ⟨line, hfound, hle⟩ := exists_line hn
  refine ⟨hline, hcharacter, line, ?_, ?_⟩
  · rw [ofOffset_natCast]
    exact hfound
  · rw [ofOffset_natCast]
    dsimp only
    omega

theorem before_iff {p q : Place} : p.Before q ↔
    p.line < q.line ∨ p.line = q.line ∧ p.character < q.character := Prod.lex_def

theorem before_trichotomous (p q : Place) : p.Before q ∨ p = q ∨ q.Before p := by
  obtain ⟨line, character⟩ := p
  obtain ⟨line', character'⟩ := q
  rw [before_iff, before_iff, Place.mk.injEq]
  dsimp only
  omega

/-- A line ends in front of all later ones. -/
theorem sum_lt_of_getElem? {texts : List (List Char)} {text : List Char} {i j : Nat}
    (htext : texts[i]? = some text) (hlt : i < j) :
    ((texts.take i).map (·.length + 1)).sum + text.length <
      ((texts.take j).map (·.length + 1)).sum := by
  obtain ⟨hi, rfl⟩ := List.getElem?_eq_some_iff.mp htext
  obtain ⟨k, rfl⟩ := Nat.exists_eq_add_of_le (Nat.succ_le_of_lt hlt)
  rw [List.take_add, List.take_succ_eq_append_getElem hi]
  simp only [List.map_append, List.map_cons, List.map_nil, List.sum_append, List.sum_cons,
    List.sum_nil]
  omega

/-- A place further on has an offset further on. -/
theorem toOffset_lt {p q : Place} (hp : p.IsIn source) (hq : q.IsIn source) (h : p.Before q) :
    p.toOffset source < q.toOffset source := by
  obtain ⟨line, hline, hle⟩ := hp.onLine
  have hpline := hp.line
  have hcharacter := hq.character
  rw [before_iff] at h
  unfold toOffset
  rcases h with hlt | ⟨heq, hlt⟩
  · have hsum := sum_lt_of_getElem? hline (j := q.line.toNat) (by omega)
    omega
  · rw [heq]
    omega

/-- Only one place in the text has the offset. -/
theorem isIn_toOffset_iff (hn : n ≤ source.toList.length) {p : Place} :
    p.IsIn source ∧ p.toOffset source = n ↔ p = ofOffset source n := by
  constructor
  · rintro ⟨hp, hoffset⟩
    have hq := isIn_ofOffset hn
    have hsame := toOffset_ofOffset source n
    rcases before_trichotomous p (ofOffset source n) with hbefore | heq | hbefore
    · have hlt := toOffset_lt hp hq hbefore
      omega
    · exact heq
    · have hlt := toOffset_lt hq hp hbefore
      omega
  · rintro rfl
    exact ⟨isIn_ofOffset hn, toOffset_ofOffset source n⟩

/-- An offset further on has a place further on. -/
theorem ofOffset_before (h : m < n) : (ofOffset source m).Before (ofOffset source n) := by
  rw [before_iff, ofOffset_natCast, ofOffset_natCast]
  dsimp only
  have hle : (source.toList.take m).count '\n' ≤ (source.toList.take n).count '\n' :=
    (List.take_sublist_take_left (Nat.le_of_lt h)).count_le _
  rcases Nat.lt_or_eq_of_le hle with hlt | heq
  · exact .inl (Int.ofNat_lt.mpr hlt)
  · obtain ⟨more, htake, hmore⟩ := exists_take_eq_append (Nat.le_of_lt h) heq
    refine .inr ⟨congrArg _ heq, ?_⟩
    rw [htake, lineStart_append hmore]
    omega

/-- The places of a text stand in the order of their offsets. -/
theorem ofOffset_before_iff : (ofOffset source m).Before (ofOffset source n) ↔ m < n := by
  refine ⟨fun hbefore => ?_, ofOffset_before⟩
  by_contra hnot
  rcases Nat.lt_or_eq_of_le (Nat.le_of_not_lt hnot) with hlt | rfl
  · have hback : (ofOffset source n).Before (ofOffset source m) := ofOffset_before hlt
    rw [before_iff] at hbefore hback
    omega
  · rw [before_iff] at hbefore
    omega

/-- An editor can count to all places of a text that has no more characters than it can count. -/
theorem checked_of_length (hlength : (source.toList.length : Int) ≤ RangeError.limit)
    (hn : n ≤ source.toList.length) :
    (ofOffset source n).checked = .ok (ofOffset source n) := by
  obtain ⟨hline, hcharacter⟩ := ofOffset_le source n
  exact checked_ofOffset (by omega) (by omega)

end Place

namespace LineColumn

/-- The line and column come first in the order of lines, and of columns in a line. -/
def Before (p q : LineColumn) : Prop :=
  Prod.Lex (· < ·) (· < ·) (p.line, p.column) (q.line, q.column)

/-- Lines and columns stand in the order of their offsets. -/
theorem ofOffset_before_iff : (ofOffset source m).Before (ofOffset source n) ↔ m < n := by
  rw [← @Place.ofOffset_before_iff source, Place.before_iff, Before, Prod.lex_def,
    Place.lineColumn_ofOffset, Place.lineColumn_ofOffset]
  dsimp only
  omega

end LineColumn

/-- The span lies in the text, or is empty and at a place of the text. -/
structure Span.InText (source : String) (s : Span) : Prop where
  start : 0 ≤ s.start
  ordered : s.start ≤ s.stop
  stop : s.stop ≤ source.toList.length

theorem Span.Inside.inText {s : Span} (h : s.Inside ⟨0, source.toList.length⟩) : s.InText source :=
  ⟨h.start, Int.le_of_lt h.proper, h.stop⟩

namespace PlaceRange

variable {s : Span}

theorem ofSpan_eq_ok (h : ∀ n : Nat, n ≤ source.toList.length →
    (Place.ofOffset source n).checked = .ok (Place.ofOffset source n)) (hs : s.InText source) :
    ofSpan source s = .ok ⟨Place.ofOffset source s.start, Place.ofOffset source s.stop⟩ := by
  obtain ⟨hstart, hordered, hstop⟩ := hs
  obtain ⟨i, hi⟩ := Int.eq_ofNat_of_zero_le hstart
  obtain ⟨j, hj⟩ := Int.eq_ofNat_of_zero_le (Int.le_trans hstart hordered)
  rw [ofSpan, hi, hj, h i (by omega), h j (by omega)]
  rfl

/-- The span from the offset of the one place to that of the other. -/
def toSpan (source : String) (r : PlaceRange) : Span :=
  ⟨r.start.toOffset source, r.stop.toOffset source⟩

/-- The range of a span in a text is in the text, and tells the span. -/
theorem isIn_toSpan_of_ofSpan {r : PlaceRange} (hs : s.InText source)
    (h : ofSpan source s = .ok r) :
    (r.start.IsIn source ∧ r.stop.IsIn source) ∧ r.toSpan source = s := by
  obtain ⟨hstart, hordered, hstop⟩ := hs
  obtain ⟨start, hfirst, h⟩ := bind_eq_ok.mp h
  obtain ⟨stop, hlast, h⟩ := bind_eq_ok.mp h
  cases h
  obtain ⟨rfl, -, -⟩ := Place.checked_eq_ok_iff.mp hfirst
  obtain ⟨rfl, -, -⟩ := Place.checked_eq_ok_iff.mp hlast
  obtain ⟨i, hi⟩ := Int.eq_ofNat_of_zero_le hstart
  obtain ⟨j, hj⟩ := Int.eq_ofNat_of_zero_le (Int.le_trans hstart hordered)
  constructor
  · rw [hi, hj]
    exact ⟨Place.isIn_ofOffset (by omega), Place.isIn_ofOffset (by omega)⟩
  · rw [toSpan, hi, hj, Place.toOffset_ofOffset, Place.toOffset_ofOffset, ← hi, ← hj]

end PlaceRange

end RowSchema
