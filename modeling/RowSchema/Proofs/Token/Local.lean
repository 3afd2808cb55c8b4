import Mathlib.Tactic.SplitIfs
import RowSchema.Proofs.Token.Spans

/-! # Pieces in front of another text

How far a piece goes depends on few of the characters after it. So a text is cut into the same
pieces before another text, if that does not go on with the last piece. -/

namespace RowSchema.Token

/-- Whether the piece is an operator or an equals sign. -/
def Piece.IsOperator : Piece → Prop
  | .lexeme (.operator _) | .lexeme .equals => True
  | _ => False

/-- Where the text after a piece with that last character ends the piece, so does the other one. -/
structure Agrees (p : Piece) (last : Char) (after after' : List Char) : Prop where
  digit : after'.head?.any Text.isDigit = true → after.head?.any Text.isDigit = true
  name : isNameChar last = true → after'.head?.any isNameChar = true →
    after.head?.any isNameChar = true
  operator : p.IsOperator → after'.head?.any isOperatorChar = true → after'.head? = after.head?
  line : after'.head?.any (· != '\n') = true → after.head?.any (· != '\n') = true
  point : ∀ d' m', after' = '.' :: d' :: m' → Text.isDigit d' = true →
    ∃ d m, after = '.' :: d :: m ∧ Text.isDigit d = true
  ellipsis : ∀ m', after' = '.' :: '.' :: m' → ∃ m, after = '.' :: '.' :: m

/-! ## Runs of characters -/

section

variable {p : Char → Bool} {more after after' : List Char}

theorem takeWhile_of_stop (hall : ∀ x ∈ more, p x = true) (hstop : after.head?.any p = false) :
    (more ++ after).takeWhile p = more := by
  induction more with
  | nil =>
    cases after with
    | nil => rfl
    | cons d rest =>
      have hd : p d = false := by simpa using hstop
      simp [hd]
  | cons c more ih =>
    have hc := hall c List.mem_cons_self
    rw [List.cons_append, List.takeWhile_cons_of_pos hc,
      ih fun x hx => hall x (List.mem_cons_of_mem _ hx)]

theorem stop_of_takeWhile (h : (more ++ after).takeWhile p = more) :
    (∀ x ∈ more, p x = true) ∧ after.head?.any p = false := by
  induction more with
  | nil =>
    refine ⟨fun x hx => (nomatch hx), ?_⟩
    cases after with
    | nil => rfl
    | cons d rest =>
      by_cases hd : p d = true
      · simp [hd] at h
      · simpa using hd
  | cons c more ih =>
    by_cases hc : p c = true
    · rw [List.cons_append, List.takeWhile_cons_of_pos hc, List.cons.injEq] at h
      obtain ⟨hall, hstop⟩ := ih h.2
      exact ⟨List.forall_mem_cons.mpr ⟨hc, hall⟩, hstop⟩
    · rw [List.cons_append, List.takeWhile_cons_of_neg hc] at h
      cases h

theorem takeWhile_congr (h : (more ++ after).takeWhile p = more)
    (hstop : after'.head?.any p = true → after.head?.any p = true) :
    (more ++ after').takeWhile p = more := by
  obtain ⟨hall, hafter⟩ := stop_of_takeWhile h
  refine takeWhile_of_stop hall ?_
  by_cases hafter' : after'.head?.any p = true
  · rw [hstop hafter'] at hafter
    cases hafter
  · simpa using hafter'

end

/-! ## Tokens -/

theorem isOperatorChar_eq (c : Char) : isOperatorChar c =
    ['-', '+', '*', '/', '%', '<', '>', '!', '&', '|', '^', '~', '='].contains c := by
  simp [isOperatorChar]

/-- Whether an equals sign before the character is not a token of its own. -/
def joinsEquals (d : Char) : Bool := d == '=' || d == '>'

theorem isOperatorChar_of_joinsEquals {d : Char} (h : joinsEquals d = true) :
    isOperatorChar d = true := by
  simp only [joinsEquals, Bool.or_eq_true, beq_iff_eq] at h
  rcases h with rfl | rfl
  · simp [isOperatorChar_eq]
  · simp [isOperatorChar_eq]

theorem any_isOperatorChar {d : Option Char} (h : d.any joinsEquals = true) :
    d.any isOperatorChar = true := by
  cases d with
  | none => cases h
  | some d => exact isOperatorChar_of_joinsEquals h

section

variable {more after after' : List Char} {p : Piece} {last : Char}

theorem stringRest_pos {cs s : List Char} {n : Nat} (h : stringRest cs = some (s, n)) : 0 < n := by
  unfold stringRest at h
  split at h
  · cases h
  · cases h
    exact Nat.one_pos
  · cases h
  · cases h
  · split at h
    · cases h
    · obtain ⟨⟨s', n'⟩, -, heq⟩ := Option.map_eq_some_iff.mp h
      cases heq
      omega
  · obtain ⟨⟨s', n'⟩, -, heq⟩ := Option.map_eq_some_iff.mp h
    cases heq
    omega

theorem stringRest_cons {c : Char} {rest : List Char} (hquote : c ≠ '"') (hline : c ≠ '\n')
    (hback : c ≠ '\\') :
    stringRest (c :: rest) = (stringRest rest).map fun (s, n) => (c :: s, n + 1) := by
  rw [stringRest.eq_def]
  split <;> simp_all

/-- A string ends at its closing quote, whatever comes after that. -/
theorem stringRest_congr {s : List Char} (h : stringRest (more ++ after) = some (s, more.length)) :
    stringRest (more ++ after') = some (s, more.length) := by
  induction more using stringRest.induct generalizing s with
  | case1 => exact absurd (stringRest_pos h) (Nat.lt_irrefl 0)
  | case2 rest =>
    simp only [List.cons_append, stringRest, Option.some.injEq, Prod.mk.injEq,
      List.length_cons] at h ⊢
    exact h
  | case3 rest => simp [stringRest] at h
  | case4 =>
    cases after with
    | nil => simp [stringRest] at h
    | cons c rest =>
      simp only [List.cons_append, List.nil_append, stringRest] at h
      split at h
      · cases h
      · obtain ⟨⟨s', n'⟩, -, heq⟩ := Option.map_eq_some_iff.mp h
        have hlength := congrArg Prod.snd heq
        simp at hlength
  | case5 c rest hline => simp_all [stringRest]
  | case6 c rest hline ih =>
    simp only [List.cons_append, stringRest, hline] at h ⊢
    obtain ⟨⟨s', n'⟩, hrest, heq⟩ := Option.map_eq_some_iff.mp h
    obtain ⟨rfl, hn⟩ := Prod.mk.inj heq
    obtain rfl : n' = rest.length := by
      simp only [List.length_cons] at hn
      omega
    simp [ih hrest]
  | case7 c rest h1 h2 h3 h4 ih =>
    have hback : c ≠ '\\' := by
      rintro rfl
      cases rest with
      | nil => exact h3 rfl rfl
      | cons d rest => exact h4 d rest rfl rfl
    rw [List.cons_append, stringRest_cons h1 h2 hback] at h ⊢
    obtain ⟨⟨s', n'⟩, hrest, heq⟩ := Option.map_eq_some_iff.mp h
    obtain ⟨rfl, hn⟩ := Prod.mk.inj heq
    obtain rfl : n' = rest.length := by
      simp only [List.length_cons] at hn
      omega
    simp [ih hrest]

/-- A run of digits, and what comes after it. -/
theorem exists_digits (cs : List Char) : ∃ digits rest, cs = digits ++ rest ∧
    (∀ d ∈ digits, Text.isDigit d = true) ∧ rest.head?.any Text.isDigit = false := by
  induction cs with
  | nil => exact ⟨[], [], rfl, fun d hd => (nomatch hd), rfl⟩
  | cons c cs ih =>
    by_cases hc : Text.isDigit c = true
    · obtain ⟨digits, rest, rfl, hall, hstop⟩ := ih
      exact ⟨c :: digits, rest, rfl, List.forall_mem_cons.mpr ⟨hc, hall⟩, hstop⟩
    · exact ⟨[], c :: cs, rfl, fun d hd => (nomatch hd), by simpa using hc⟩

/-- Digits that no point and further digits come after are an integer. -/
theorem number_integer {negative : Bool} {whole rest : List Char} {taken : Nat}
    (h : ∀ d m, rest = '.' :: d :: m → Text.isDigit d = false) :
    number negative whole taken rest =
      (.integer (if negative then -(Decimal.ofDigits whole : Int) else Decimal.ofDigits whole),
        taken) := by
  unfold number
  split
  · next more =>
    cases more with
    | nil => rfl
    | cons d m => simp [h d m rfl]
  · rfl

/-- Digits, a point and further digits are a float. -/
theorem number_float {negative : Bool} {whole fraction rest : List Char} {taken : Nat}
    (hne : fraction ≠ []) (hall : ∀ d ∈ fraction, Text.isDigit d = true)
    (hstop : rest.head?.any Text.isDigit = false) :
    number negative whole taken ('.' :: (fraction ++ rest)) =
      (.float (Decimal.signed negative (Decimal.nearestFloat whole fraction 0)),
        taken + 1 + fraction.length) := by
  simp [number, takeWhile_of_stop hall hstop, hne]

/-- A number goes as far as its digits, and as the digits after its point. -/
theorem number_congr {negative : Bool} (g : List Char → List Char) {l : Lexeme}
    (ha : Agrees p last after after')
    (h : number negative (g ((more ++ after).takeWhile Text.isDigit))
      ((more ++ after).takeWhile Text.isDigit).length
      ((more ++ after).drop ((more ++ after).takeWhile Text.isDigit).length) = (l, more.length)) :
    number negative (g ((more ++ after').takeWhile Text.isDigit))
      ((more ++ after').takeWhile Text.isDigit).length
      ((more ++ after').drop ((more ++ after').takeWhile Text.isDigit).length) =
        (l, more.length) := by
  obtain ⟨digits, rest, heq, hall, hstop⟩ := exists_digits (more ++ after)
  rw [heq, takeWhile_of_stop hall hstop, List.drop_left] at h
  have hkeep (hafter : after.head?.any Text.isDigit = false) :
      after'.head?.any Text.isDigit = false := by
    by_cases hafter' : after'.head?.any Text.isDigit = true
    · rw [ha.digit hafter'] at hafter
      cases hafter
    · simpa using hafter'
  by_cases hinteger : ∀ d m, rest = '.' :: d :: m → Text.isDigit d = false
  · -- the piece is an integer, and the text goes on right after its digits
    rw [number_integer hinteger] at h
    obtain ⟨rfl, hlength⟩ := Prod.mk.inj h
    obtain ⟨rfl, rfl⟩ := List.append_inj heq.symm hlength
    rw [takeWhile_of_stop hall (hkeep hstop), List.drop_left, number_integer]
    rintro d' m' rfl
    by_cases hd' : Text.isDigit d' = true
    · obtain ⟨d, m, rfl, hd⟩ := ha.point d' m' rfl hd'
      rw [hinteger d m rfl] at hd
      cases hd
    · simpa using hd'
  · obtain ⟨d, m, rfl, hd⟩ : ∃ d m, rest = '.' :: d :: m ∧ Text.isDigit d = true := by
      simpa using hinteger
    obtain ⟨fraction, rest', hrest, hfraction, hend⟩ := exists_digits (d :: m)
    have hne : fraction ≠ [] := by
      rintro rfl
      rw [List.nil_append] at hrest
      simp [← hrest, hd] at hend
    rw [hrest, number_float hne hfraction hend] at h
    obtain ⟨rfl, hlength⟩ := Prod.mk.inj h
    rw [hrest] at heq
    have hparts : more ++ after = (digits ++ '.' :: fraction) ++ rest' := by
      rw [heq, List.append_assoc, List.cons_append]
    obtain ⟨rfl, rfl⟩ := List.append_inj hparts (by
      rw [← hlength, List.length_append, List.length_cons]
      omega)
    have hpoint : Text.isDigit '.' = false := by decide
    rw [List.append_assoc, List.cons_append, takeWhile_of_stop hall (by simpa using hpoint),
      List.drop_left, number_float hne hfraction (hkeep hend), List.length_append,
      List.length_cons, Nat.add_assoc, Nat.add_comm 1]

theorem unsignedNumber_congr {c : Char} {l : Lexeme} (ha : Agrees p last after after')
    (h : unsignedNumber c (more ++ after) = (l, more.length)) :
    unsignedNumber c (more ++ after') = (l, more.length) := number_congr (c :: ·) ha h

theorem negativeNumber_congr {l : Lexeme} (ha : Agrees p last after after')
    (h : negativeNumber (more ++ after) = (l, more.length)) :
    negativeNumber (more ++ after') = (l, more.length) := number_congr id ha h

theorem number_taken (negative : Bool) (whole rest : List Char) (taken : Nat) :
    taken ≤ (number negative whole taken rest).2 := by
  by_cases hinteger : ∀ d m, rest = '.' :: d :: m → Text.isDigit d = false
  · exact Nat.le_of_eq (congrArg Prod.snd (number_integer hinteger)).symm
  · obtain ⟨d, m, rfl, hd⟩ : ∃ d m, rest = '.' :: d :: m ∧ Text.isDigit d = true := by
      simpa using hinteger
    simp only [number]
    split
    · exact Nat.le_refl _
    · show taken ≤ taken + 1 + _
      omega

/-- A minus sign alone is no number. -/
theorem negativeNumber_pos {d : Char} {rest : List Char} (hd : Text.isDigit d = true) :
    0 < (negativeNumber (d :: rest)).2 := by
  refine Nat.lt_of_lt_of_le ?_ (number_taken true _ _ _)
  rw [List.takeWhile_cons_of_pos hd]
  exact Nat.succ_pos _

/-- The digits after a minus sign belong to the number. -/
theorem ne_nil_of_negative {l : Lexeme} (hdigit : (more ++ after).head?.any Text.isDigit = true)
    (h : negativeNumber (more ++ after) = (l, more.length)) : more ≠ [] := by
  rintro rfl
  cases after with
  | nil => cases hdigit
  | cons d rest =>
    have hpos : 0 < (negativeNumber (d :: rest)).2 := negativeNumber_pos (by simpa using hdigit)
    rw [List.nil_append] at h
    simp [h] at hpos

theorem symbol?_dot {rest : List Char} (h : ∀ m, rest ≠ '.' :: '.' :: m) :
    symbol? '.' rest = some (.dot, 0) := by
  simp only [symbol?]

/-- Only a point looks at what comes after it. -/
theorem symbol?_of_ne {c : Char} (hc : c ≠ '.') (rest rest' : List Char) :
    symbol? c rest = symbol? c rest' := by
  unfold symbol?
  split <;> first | rfl | exact absurd rfl hc

theorem symbol?_congr {c : Char} {l : Lexeme} (ha : Agrees p last after after')
    (h : symbol? c (more ++ after) = some (l, more.length)) :
    symbol? c (more ++ after') = some (l, more.length) := by
  by_cases hc : c = '.'
  · subst hc
    by_cases hpoints : ∃ m, more ++ after = '.' :: '.' :: m
    · obtain ⟨m, hm⟩ := hpoints
      rw [hm] at h
      obtain ⟨rfl, hlength⟩ := Prod.mk.inj (Option.some.inj h)
      obtain ⟨rfl, rfl⟩ : more = ['.', '.'] ∧ after = m :=
        List.append_inj (by simpa using hm) hlength.symm
      rfl
    · rw [symbol?_dot fun m hm => hpoints ⟨m, hm⟩] at h
      obtain ⟨rfl, hlength⟩ := Prod.mk.inj (Option.some.inj h)
      obtain rfl := List.length_eq_zero_iff.mp hlength.symm
      refine symbol?_dot fun m' hm' => hpoints ?_
      exact ha.ellipsis m' hm'
  · rw [symbol?_of_ne hc _ (more ++ after), h]

theorem isNameChar_of_isNameStart {c : Char} (h : isNameStart c = true) : isNameChar c = true := by
  simp only [isNameStart, isNameChar, Char.isAlphanum, Bool.or_eq_true] at h ⊢
  exact h.imp_left .inl

theorem last_of_all {p : Char → Bool} {c : Char} (hlast : (c :: more).getLast? = some last)
    (hc : p c = true) (hmore : ∀ x ∈ more, p x = true) : p last = true := by
  rcases List.mem_cons.mp (List.mem_of_getLast? hlast) with rfl | hmem
  · exact hc
  · exact hmore last hmem

/-- A token is the same before another text that ends it as well. -/
theorem lexeme?_congr {c : Char} {l : Lexeme} (ha : Agrees (.lexeme l) last after after')
    (hlast : (c :: more).getLast? = some last)
    (h : lexeme? c (more ++ after) = some (l, more.length)) :
    lexeme? c (more ++ after') = some (l, more.length) := by
  have hhead {q : Char → Bool} (hq : after'.head?.any q = true → after.head?.any q = true) :
      (more ++ after').head?.any q = true → (more ++ after).head?.any q = true := by
    cases more with
    | nil => exact hq
    | cons d more => exact id
  have hsame (hne : more ≠ []) : (more ++ after').head? = (more ++ after).head? := by
    cases more with
    | nil => exact absurd rfl hne
    | cons d more => rfl
  have hjoins : (fun d => d == '=' || d == '>') = joinsEquals := rfl
  unfold lexeme? at h ⊢
  rw [hjoins] at h ⊢
  split_ifs at h with hdigit hminus hquote hname hequals hoperator
  · rw [if_pos hdigit, unsignedNumber_congr ha (Option.some.inj h)]
  · have hmore := ne_nil_of_negative (Bool.and_eq_true _ _ ▸ hminus).2 (Option.some.inj h)
    rw [if_neg hdigit, hsame hmore, if_pos hminus, negativeNumber_congr ha (Option.some.inj h)]
  all_goals
    have hminus' : ¬ (c == '-' && (more ++ after').head?.any Text.isDigit) = true := by
      rw [Bool.and_eq_true] at hminus ⊢
      exact fun hboth => hminus ⟨hboth.1, hhead ha.digit hboth.2⟩
    rw [if_neg hdigit, if_neg hminus']
  · rw [if_pos hquote]
    obtain ⟨⟨s, n⟩, hs, heq⟩ := Option.map_eq_some_iff.mp h
    obtain ⟨rfl, rfl⟩ := Prod.mk.inj heq
    rw [stringRest_congr hs]
    rfl
  · rw [if_neg hquote, if_pos hname]
    obtain ⟨rfl, hlength⟩ := Prod.mk.inj (Option.some.inj h)
    have htake := takeWhile_eq_of_length hlength
    have hname' := last_of_all hlast (isNameChar_of_isNameStart hname) (stop_of_takeWhile htake).1
    rw [takeWhile_congr htake (ha.name hname'), htake]
  · rw [if_neg hquote, if_neg hname]
    obtain ⟨rfl, hlength⟩ := Prod.mk.inj (Option.some.inj h)
    obtain rfl := List.length_eq_zero_iff.mp hlength.symm
    rw [Bool.and_eq_true] at hequals
    obtain rfl : c = '=' := by simpa using hequals.1
    obtain rfl : '=' = last := by simpa using hlast
    -- a sign that goes on with this one is an operator, so it would be there already
    have hequals' : ('=' == '=' && !(([] ++ after').head?.any joinsEquals)) = true := by
      by_cases hafter' : after'.head?.any joinsEquals = true
      · rw [List.nil_append, ha.operator trivial (any_isOperatorChar hafter')]
        exact hequals.2
      · simpa using hafter'
    exact if_pos hequals'
  · obtain ⟨rfl, hlength⟩ := Prod.mk.inj (Option.some.inj h)
    have htake := takeWhile_eq_of_length hlength
    obtain ⟨-, hstop⟩ := stop_of_takeWhile htake
    have hequals' : ¬ (c == '=' && !((more ++ after').head?.any joinsEquals)) = true := by
      by_cases hmore : more = []
      · subst hmore
        rw [Bool.and_eq_true] at hequals ⊢
        rintro ⟨hc, -⟩
        have hjoin : ¬ after.head?.any joinsEquals = true := by
          intro hjoin
          rw [any_isOperatorChar hjoin] at hstop
          cases hstop
        exact hequals ⟨hc, by simpa using hjoin⟩
      · rwa [hsame hmore]
    rw [if_neg hquote, if_neg hname, if_neg hequals', if_pos hoperator,
      takeWhile_congr htake fun hafter => by rwa [← ha.operator trivial hafter], htake]
  · have hequals' : ¬ (c == '=' &&
        !((more ++ after').head?.any joinsEquals)) = true := by
      rw [Bool.and_eq_true]
      rintro ⟨hc, -⟩
      obtain rfl : c = '=' := by simpa using hc
      exact hoperator (by simp [isOperatorChar_eq])
    rw [if_neg hquote, if_neg hname, if_neg hequals', if_neg hoperator]
    exact symbol?_congr ha h

theorem lexeme?_slash (rest : List Char) : lexeme? '/' rest =
    some (.operator (String.ofList ('/' :: rest.takeWhile isOperatorChar)),
      (rest.takeWhile isOperatorChar).length) := by
  simp [lexeme?, isOperatorChar_eq, isNameStart, Text.isDigit, Text.digitValue?]

/-- A piece is the same before another text that ends it as well. -/
theorem piece?_congr {c : Char} (ha : Agrees p last after after')
    (hlast : (c :: more).getLast? = some last)
    (h : piece? c (more ++ after) = some (p, more.length)) :
    piece? c (more ++ after') = some (p, more.length) := by
  unfold piece? at h ⊢
  split_ifs at h with hblank hcomment
  · rw [if_pos hblank, h]
  · obtain ⟨rfl, hlength⟩ := Prod.mk.inj (Option.some.inj h)
    have htake := takeWhile_eq_of_length hlength
    have hcomment' : startsComment c (more ++ after') = true := by
      cases more with
      | cons d more => exact hcomment
      | nil =>
        obtain ⟨-, hstop⟩ := stop_of_takeWhile htake
        simp only [startsComment, Bool.or_eq_true, Bool.and_eq_true, beq_iff_eq] at hcomment ⊢
        rcases hcomment with hc | ⟨-, hslash⟩
        · exact .inl hc
        · rw [List.nil_append] at hslash
          simp [hslash] at hstop
    rw [if_neg hblank, if_pos hcomment', takeWhile_congr htake ha.line]
  · obtain ⟨⟨l, n⟩, hl, heq⟩ := Option.map_eq_some_iff.mp h
    obtain ⟨rfl, rfl⟩ := Prod.mk.inj heq
    have hcomment' : ¬ startsComment c (more ++ after') = true := by
      cases more with
      | cons d more => exact hcomment
      | nil =>
        simp only [startsComment, Bool.or_eq_true, Bool.and_eq_true, beq_iff_eq,
          List.nil_append] at hcomment ⊢
        rintro (hc | ⟨rfl, hslash⟩)
        · exact hcomment (.inl hc)
        · -- the slash is an operator, which the other text would go on with as well
          rw [List.nil_append, lexeme?_slash] at hl
          obtain ⟨rfl, -⟩ := Prod.mk.inj (Option.some.inj hl)
          have hsame := ha.operator trivial (by simp [hslash, isOperatorChar_eq])
          exact hcomment (.inr ⟨rfl, hsame ▸ hslash⟩)
    rw [if_neg hblank, if_neg hcomment', lexeme?_congr ha hlast hl]
    rfl

end

/-! ## Pieces -/

/-- The other text does not go on with the last of the pieces. -/
structure Resumes (pieces : Pieces) (after after' : List Char) : Prop where
  digit : after'.head?.any Text.isDigit = true → after.head?.any Text.isDigit = true
  name : ∀ last ∈ pieces.chars.getLast?, isNameChar last = true →
    after'.head?.any isNameChar = true → after.head?.any isNameChar = true
  operator : ∀ piece ∈ pieces.getLast?, piece.1.IsOperator →
    after'.head?.any isOperatorChar = true → after'.head? = after.head?
  line : after.head?.any (· != '\n') = true ∨ after'.head? = after.head?
  point : after'.head? ≠ some '.'

namespace Resumes

variable {pieces : Pieces} {p : Piece} {cs after after' : List Char} {first last : Char}

theorem tail (h : Resumes ((p, cs) :: pieces) after after') : Resumes pieces after after' where
  digit := h.digit
  name := fun last hlast => h.name last (by
    rw [Option.mem_def] at hlast ⊢
    rw [Pieces.chars_cons, List.getLast?_append, hlast, Option.some_or])
  operator := fun piece hpiece => h.operator piece (by
    rw [Option.mem_def] at hpiece ⊢
    rw [List.getLast?_cons, hpiece, Option.getD_some])
  line := h.line
  point := h.point

theorem agrees (h : Resumes [(p, cs)] after after') (hlast : cs.getLast? = some last) :
    Agrees p last after after' where
  digit := h.digit
  name := h.name last (by simpa using hlast)
  operator := h.operator (p, cs) rfl
  line := fun hafter => h.line.elim id fun hsame => hsame ▸ hafter
  point := fun d' m' heq _ => absurd (by rw [heq]; rfl) h.point
  ellipsis := fun m' heq => absurd (by rw [heq]; rfl) h.point

/-- Behind a piece that is not the last one, the texts begin with the same characters. -/
theorem agrees_cons {c : Char} (h : Resumes pieces after after') :
    Agrees p last (c :: (cs ++ after)) (c :: (cs ++ after')) := by
  refine ⟨id, fun _ => id, fun _ _ => rfl, id, ?_, ?_⟩
  · rintro d' m' heq hd'
    obtain ⟨rfl, hrest⟩ := List.cons.inj heq
    cases cs with
    | nil =>
      obtain rfl : after' = d' :: m' := hrest
      have hdigit := h.digit hd'
      cases after with
      | nil => cases hdigit
      | cons d m => exact ⟨d, m, rfl, hdigit⟩
    | cons d cs =>
      obtain ⟨rfl, -⟩ := List.cons.inj hrest
      exact ⟨d, cs ++ after, rfl, hd'⟩
  · rintro m' heq
    obtain ⟨rfl, hrest⟩ := List.cons.inj heq
    cases cs with
    | nil =>
      obtain rfl : after' = '.' :: m' := hrest
      exact absurd rfl h.point
    | cons d cs =>
      obtain ⟨rfl, -⟩ := List.cons.inj hrest
      exact ⟨cs ++ after, rfl⟩

end Resumes

/-- A text is cut into the same pieces before another text that does not go on with the last. -/
theorem Cut.resume {text after after' : List Char} {pieces : Pieces} (hcut : Cut text pieces after)
    (h : Resumes pieces after after') : Cut (pieces.chars ++ after') pieces after' := by
  induction hcut with
  | done => exact .done
  | @piece c more middle rest p pieces hpiece hrest ih =>
    obtain ⟨last, hlast⟩ : ∃ last, (c :: more).getLast? = some last :=
      ⟨_, List.getLast?_eq_some_getLast (List.cons_ne_nil c more)⟩
    have hagrees : Agrees p last middle (pieces.chars ++ after') := by
      cases hrest with
      | done => exact h.agrees hlast
      | @piece d more' middle' _ p' pieces' _ hrest' =>
        rw [hrest'.text_eq, Pieces.chars_cons, List.append_assoc, List.cons_append,
          ← List.append_assoc, ← List.append_assoc]
        exact h.tail.agrees_cons
    rw [Pieces.chars_cons, List.append_assoc, List.cons_append]
    exact .piece (piece?_congr hagrees hlast hpiece) (ih h.tail)

end RowSchema.Token
