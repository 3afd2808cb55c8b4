import Mathlib.Data.List.Basic
import RowSchema.Proofs.Token.Local

/-! # Tokens read back

The declaration text of a token is cut into that token again, in front of any text that does not go
on with it. For a float this depends on how it is written: a text with an exponent is no token. -/

namespace RowSchema

/-- The float is written as digits around a point that it is the nearest float to. -/
def Decimal.ReadsBack (x : Float) : Prop :=
  ∃ negative whole d fraction,
    (numbers.render x).toList = (if negative then ['-'] else []) ++ whole ++ '.' :: d :: fraction ∧
      whole ≠ [] ∧ (∀ c ∈ whole, Text.isDigit c = true) ∧
      (∀ c ∈ d :: fraction, Text.isDigit c = true) ∧
      signed negative (nearestFloat whole (d :: fraction) 0) = x

namespace Token

/-! ## Texts in front of another one -/

/-- In front of that other text, the text is cut into tokens that say those things. -/
def Lexes (s : String) (xs : List (Sigma Terminal.Content)) (after : List Char) : Prop :=
  ∃ pieces, Cut (s.toList ++ after) pieces after ∧ pieces.lexemes.map Lexeme.content = xs

@[simp] theorem Pieces.lexemes_append (front back : Pieces) :
    lexemes (front ++ back) = lexemes front ++ lexemes back := List.filterMap_append

section

variable {s s' : String} {xs ys : List (Sigma Terminal.Content)} {c : Char}
  {more after : List Char} {l : Lexeme}

theorem Lexes.append (h : Lexes s xs (s'.toList ++ after)) (h' : Lexes s' ys after) :
    Lexes (s ++ s') (xs ++ ys) after := by
  obtain ⟨front, hfront, rfl⟩ := h
  obtain ⟨back, hback, rfl⟩ := h'
  refine ⟨front ++ back, ?_, by simp⟩
  rw [String.toList_append, List.append_assoc]
  exact hfront.append hback

theorem lexes_piece (hs : s.toList = c :: more)
    (h : piece? c (more ++ after) = some (.lexeme l, more.length)) :
    Lexes s [l.content] after :=
  ⟨[(.lexeme l, c :: more)], by rw [hs]; exact .piece h .done, rfl⟩

theorem lexes_blank : Lexes " " [] after := by
  have hcut : Cut (' ' :: ([] ++ after)) [(.gap, [' '])] after := .piece rfl .done
  exact ⟨_, hcut, rfl⟩

/-! ## Signs -/

theorem piece?_of_symbol? {rest : List Char} {n : Nat} (h : symbol? c rest = some (l, n)) :
    piece? c rest = some (.lexeme l, n) := by
  have hlexeme : lexeme? c rest = some (l, n) ∧
      (c == ' ' || c == '\t' || c == '\r' || c == '\n') = false ∧ startsComment c rest = false := by
    unfold symbol? at h
    split at h
    all_goals
      first
      | contradiction
      | simpa [lexeme?, isOperatorChar_eq, startsComment, symbol?, isNameStart, Text.isDigit,
          Text.digitValue?] using h
  obtain ⟨hl, hblank, hcomment⟩ := hlexeme
  simp [piece?, hblank, hcomment, hl]

/-- A sign is a token whatever comes after it. A point is none before another one. -/
theorem lexes_sign (hs : s.toList = [c]) (h : symbol? c after = some (l, 0)) :
    Lexes s [l.content] after := lexes_piece hs (piece?_of_symbol? h)

theorem lexes_point (h : after.head? ≠ some '.') : Lexes "." [⟨.dot, ()⟩] after :=
  lexes_sign rfl (symbol?_dot fun m hm => h (by rw [hm]; rfl))

/-! ## Names -/

/-- The text is a name. -/
def IsName (s : String) : Prop :=
  ∃ c more, s.toList = c :: more ∧ isNameStart c = true ∧ ∀ d ∈ more, isNameChar d = true

/-- The text is a name that is not reserved. -/
def IsWord (s : String) : Prop := IsName s ∧ Keyword.ofText? s = none

theorem toNat_of_isNameStart (h : isNameStart c = true) : 64 < c.toNat ∧ c.toNat < 128 := by
  have hletter : (decide ('A'.val ≤ c.val ∧ c.val ≤ 'Z'.val) ||
      (decide ('a'.val ≤ c.val) && decide (c.val ≤ 'z'.val)) || c == '_') = true := h
  simp only [Bool.or_eq_true, Bool.and_eq_true, decide_eq_true_eq, beq_iff_eq,
    UInt32.le_iff_toNat_le] at hletter
  rcases hletter with (h | h) | rfl
  · exact ⟨Nat.lt_of_lt_of_le (by decide) h.1, Nat.lt_of_le_of_lt h.2 (by decide)⟩
  · exact ⟨Nat.lt_of_lt_of_le (by decide) h.1, Nat.lt_of_le_of_lt h.2 (by decide)⟩
  · decide

theorem ne_of_isNameStart (h : isNameStart c = true) :
    c ≠ ' ' ∧ c ≠ '\t' ∧ c ≠ '\r' ∧ c ≠ '\n' ∧ c ≠ '#' ∧ c ≠ '/' ∧ c ≠ '-' ∧ c ≠ '"' := by
  refine ⟨?_, ?_, ?_, ?_, ?_, ?_, ?_, ?_⟩ <;> (rintro rfl; cases h)

theorem isDigit_of_isNameStart (h : isNameStart c = true) : Text.isDigit c = false := by
  obtain ⟨hlow, hhigh⟩ := toNat_of_isNameStart h
  have hdigit : c.isDigit = false := by
    have hnine : ¬ c.val ≤ '9'.val := by
      rw [UInt32.le_iff_toNat_le, Nat.not_le]
      exact Nat.lt_trans (by decide) hlow
    rw [Char.isDigit, Bool.and_eq_false_iff]
    exact .inr (by simpa using hnine)
  simp [Text.isDigit, Text.digitValue?, hhigh, hdigit]

theorem lexes_name (hs : IsName s) (hafter : after.head?.any isNameChar = false) :
    Lexes s [(nameLexeme s).content] after := by
  obtain ⟨c, more, hchars, hstart, hmore⟩ := hs
  refine lexes_piece hchars ?_
  have hname : String.ofList (c :: more) = s := by rw [← hchars, String.ofList_toList]
  obtain ⟨h1, h2, h3, h4, h5, h6, h7, h8⟩ := ne_of_isNameStart hstart
  simp [piece?, startsComment, lexeme?, *, isDigit_of_isNameStart hstart,
    takeWhile_of_stop hmore hafter]

theorem lexes_word (hs : IsWord s) (hafter : after.head?.any isNameChar = false) :
    Lexes s [⟨.word, s⟩] after := by
  have hlexes := lexes_name hs.1 hafter
  rwa [nameLexeme, hs.2] at hlexes

theorem isName_text (k : Keyword) : IsName k.text := by
  cases k <;> exact ⟨_, _, rfl, rfl, List.all_eq_true.mp rfl⟩

/-- A point and a word after it. -/
theorem lexes_member (hs : IsWord s) (hafter : after.head?.any isNameChar = false) :
    Lexes ("." ++ s) [⟨.dot, ()⟩, ⟨.word, s⟩] after := by
  refine Lexes.append (lexes_point ?_) (lexes_word hs hafter)
  obtain ⟨⟨c, more, hchars, hstart, -⟩, -⟩ := hs
  rw [hchars, List.cons_append, List.head?_cons]
  intro hpoint
  rw [Option.some.inj hpoint] at hstart
  cases hstart

theorem lexes_keyword (k : Keyword) (hafter : after.head?.any isNameChar = false) :
    Lexes k.text [⟨.keyword k, ()⟩] after := by
  have hlexes := lexes_name (isName_text k) hafter
  rwa [nameLexeme, Keyword.ofText?_text] at hlexes

theorem isWord_of_lexeme? {name : String}
    (h : lexeme? c (more ++ after) = some (.word name, more.length)) : IsWord name := by
  rcases lexeme?_cases h with hfree | hellipsis | ⟨hsign, -⟩ | ⟨hstart, hword, hlength⟩
  · exact hfree.elim
  · cases hellipsis
  · simp [signs] at hsign
  · have htake := takeWhile_eq_of_length hlength.symm
    rw [htake] at hword
    unfold nameLexeme at hword
    split at hword
    · cases hword
    · next hnone =>
      obtain rfl := Lexeme.word.inj hword
      exact ⟨⟨c, more, String.toList_ofList, hstart, (stop_of_takeWhile htake).1⟩, hnone⟩

/-- A word goes as far as characters of names do. -/
theorem stop_of_word (h : piece? c (more ++ after) = some (.lexeme l, more.length))
    (hl : (∃ k, l = .keyword k) ∨ ∃ s, l = .word s) :
    isNameStart c = true ∧ (∀ d ∈ more, isNameChar d = true) ∧
      after.head?.any isNameChar = false := by
  rcases lexeme?_cases (lexeme?_of_piece? h) with hfree | rfl | ⟨hsign, -⟩ | ⟨hstart, -, hlength⟩
  · rcases hl with ⟨k, rfl⟩ | ⟨s, rfl⟩ <;> exact hfree.elim
  · simp at hl
  · rcases hl with ⟨k, rfl⟩ | ⟨s, rfl⟩ <;> simp [signs] at hsign
  · exact ⟨hstart, stop_of_takeWhile (takeWhile_eq_of_length hlength.symm)⟩

/-- Every word among the tokens of a text is one. -/
theorem Cut.isWord {text rest : List Char} {pieces : Pieces} (h : Cut text pieces rest)
    {name : String} (hmem : .word name ∈ pieces.lexemes) : IsWord name := by
  induction h with
  | done => cases hmem
  | @piece c more after rest p pieces hpiece _ ih =>
    cases p with
    | gap => exact ih hmem
    | lexeme l =>
      rcases List.mem_cons.mp hmem with rfl | hmem
      · exact isWord_of_lexeme? (lexeme?_of_piece? hpiece)
      · exact ih hmem

/-! ## Strings -/

/-- How a character of a string is written. -/
def stringChar (c : Char) : List Char := if c == '\\' || c == '"' then ['\\', c] else [c]

theorem toList_declared (s : String) :
    (Text.declared s).toList = '"' :: (s.toList.flatMap stringChar ++ ['"']) := by
  rw [Text.declared, String.toList_ofList, List.cons_append]
  rfl

theorem mem_declared (h : c ∈ s.toList) : c ∈ (Text.declared s).toList := by
  rw [toList_declared]
  refine List.mem_cons_of_mem _ (List.mem_append_left _ (List.mem_flatMap.mpr ⟨c, h, ?_⟩))
  unfold stringChar
  split_ifs <;> simp

/-- What stands between the quotes of a declared string is read up to the closing one. -/
theorem stringRest_flatMap {cs : List Char} (h : '\n' ∉ cs) (after : List Char) :
    stringRest (cs.flatMap stringChar ++ '"' :: after) =
      some (cs, (cs.flatMap stringChar ++ ['"']).length) := by
  induction cs with
  | nil => rfl
  | cons c cs ih =>
    obtain ⟨hc, hcs⟩ : c ≠ '\n' ∧ '\n' ∉ cs := by
      simpa [eq_comm, not_or] using h
    rw [List.flatMap_cons, List.append_assoc, stringChar]
    split_ifs with hescape
    · have hsame : unescaped c = c := by
        simp only [Bool.or_eq_true, beq_iff_eq] at hescape
        rcases hescape with rfl | rfl <;> rfl
      simp [stringRest, ih hcs, hc, hsame]
    · simp only [Bool.or_eq_true, beq_iff_eq, not_or] at hescape
      simp [stringRest_cons hescape.2 hc hescape.1, ih hcs]

theorem lexes_string (h : '\n' ∉ s.toList) : Lexes (Text.declared s) [⟨.string, s⟩] after := by
  refine lexes_piece (l := .string s) (toList_declared s) ?_
  rw [List.append_assoc, List.singleton_append]
  simp [piece?, startsComment, lexeme?, stringRest_flatMap h, Text.isDigit, Text.digitValue?]

/-! ## Numbers -/

theorem piece?_of_isDigit {rest : List Char} (h : Text.isDigit c = true) :
    piece? c rest = some (.lexeme (unsignedNumber c rest).1, (unsignedNumber c rest).2) := by
  have hne : c ≠ ' ' ∧ c ≠ '\t' ∧ c ≠ '\r' ∧ c ≠ '\n' ∧ c ≠ '#' ∧ c ≠ '/' := by
    refine ⟨?_, ?_, ?_, ?_, ?_, ?_⟩ <;> (rintro rfl; revert h; decide)
  simp [piece?, startsComment, lexeme?, h, hne]

theorem piece?_minus {d : Char} {rest : List Char} (h : Text.isDigit d = true) :
    piece? '-' (d :: rest) =
      some (.lexeme (negativeNumber (d :: rest)).1, (negativeNumber (d :: rest)).2) := by
  have hminus : Text.isDigit '-' = false := by decide
  simp [piece?, startsComment, lexeme?, h, hminus]

/-- A sign, digits and what goes on after them are a number. -/
theorem lexes_number {negative : Bool} {whole tail : List Char}
    (hs : s.toList = (if negative then ['-'] else []) ++ whole ++ tail) (hne : whole ≠ [])
    (hall : ∀ d ∈ whole, Text.isDigit d = true)
    (hstop : (tail ++ after).head?.any Text.isDigit = false)
    (h : ∀ taken, number negative whole taken (tail ++ after) = (l, taken + tail.length)) :
    Lexes s [l.content] after := by
  obtain ⟨d, digits, rfl⟩ := List.exists_cons_of_ne_nil hne
  obtain ⟨hd, hdigits⟩ := List.forall_mem_cons.mp hall
  cases negative with
  | false =>
    have hchars : s.toList = d :: (digits ++ tail) := by simpa using hs
    refine lexes_piece hchars ?_
    rw [piece?_of_isDigit hd, List.append_assoc, unsignedNumber,
      takeWhile_of_stop hdigits hstop, List.drop_left, h, List.length_append]
  | true =>
    have hchars : s.toList = '-' :: (d :: digits ++ tail) := by simpa using hs
    refine lexes_piece hchars ?_
    rw [List.append_assoc, List.cons_append, piece?_minus hd, ← List.cons_append, negativeNumber,
      takeWhile_of_stop hall hstop, List.drop_left, h, List.length_append]

theorem digitValue?_of_isDigit (h : c.isDigit = true) :
    Text.digitValue? c = some (c.toNat - '0'.toNat) := by
  have hlow : c.toNat < 0x80 := by
    rw [Char.isDigit, Bool.and_eq_true, decide_eq_true_eq, decide_eq_true_eq,
      UInt32.le_iff_toNat_le] at h
    exact Nat.lt_of_le_of_lt h.2 (by decide)
  rw [Text.digitValue?, if_pos hlow, if_pos h]

theorem isDigit_of_mem_toDigits {n : Nat} (h : c ∈ Nat.toDigits 10 n) : Text.isDigit c = true := by
  rw [Text.isDigit, digitValue?_of_isDigit (Nat.isDigit_of_mem_toDigits (by decide) (by decide) h)]
  rfl

theorem ofDigits_toDigits (n : Nat) : Decimal.ofDigits (Nat.toDigits 10 n) = n := by
  have hfold : Decimal.ofDigits (Nat.toDigits 10 n) =
      Nat.ofDigitChars 10 (Nat.toDigits 10 n) 0 := by
    refine List.foldl_ext _ _ 0 fun m c hc => ?_
    rw [digitValue?_of_isDigit (Nat.isDigit_of_mem_toDigits (by decide) (by decide) hc)]
    rfl
  rw [hfold, Nat.ofDigitChars_toDigits (by decide) (by decide)]

theorem lexes_integer (n : Int) (hdigit : after.head?.any Text.isDigit = false)
    (hpoint : after.head? ≠ some '.') : Lexes (toString n) [⟨.integer, n⟩] after := by
  have hstop : ∀ d m, after = '.' :: d :: m → Text.isDigit d = false :=
    fun d m heq => absurd (by rw [heq]; rfl) hpoint
  have hdigits (m : Nat) : ∀ c ∈ Nat.toDigits 10 m, Text.isDigit c = true :=
    fun c hc => isDigit_of_mem_toDigits hc
  cases n with
  | ofNat m =>
    have hs : (toString (Int.ofNat m)).toList =
        (if false then ['-'] else []) ++ Nat.toDigits 10 m ++ [] := by
      simp [Int.toString_eq_repr, Int.repr]
    refine lexes_number (l := .integer _) hs (by simp) (hdigits m) hdigit fun taken => ?_
    rw [List.nil_append, number_integer hstop, ofDigits_toDigits]
    rfl
  | negSucc m =>
    have hs : (toString (Int.negSucc m)).toList =
        (if true then ['-'] else []) ++ Nat.toDigits 10 (m + 1) ++ [] := by
      simp [Int.toString_eq_repr, Int.repr]
    refine lexes_number (l := .integer _) hs (by simp) (hdigits (m + 1)) hdigit fun taken => ?_
    rw [List.nil_append, number_integer hstop, ofDigits_toDigits]
    rfl

theorem lexes_float {x : Float} (hx : Decimal.ReadsBack x)
    (hdigit : after.head?.any Text.isDigit = false) :
    Lexes (Decimal.numbers.render x) [⟨.float, x⟩] after := by
  obtain ⟨negative, whole, d, fraction, hrender, hne, hwhole, hfraction, rfl⟩ := hx
  have hpoint : Text.isDigit '.' = false := by decide
  refine lexes_number (l := .float _) hrender hne hwhole (by simpa using hpoint) fun taken => ?_
  rw [List.cons_append, number_float (List.cons_ne_nil d fraction) hfraction hdigit,
    Nat.add_assoc, Nat.add_comm 1]
  rfl

end

end Token

end RowSchema
