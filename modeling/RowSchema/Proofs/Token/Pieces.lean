import Mathlib.Tactic.SplitIfs
import RowSchema.Token.Scan

/-! # The pieces of a text

A text is cut into pieces from its beginning, as far as pieces go. Each piece is the one that the
actual characters after it allow, so two cuts can be put together without a second look at where
they meet. -/

namespace RowSchema

/-- Whether the token is an operator, a string or a number. -/
def Lexeme.IsFree : Lexeme → Prop
  | operator _ | equals | string _ | integer _ | float _ => True
  | _ => False

namespace Token

/-- Pieces and the characters that each consists of. -/
abbrev Pieces := List (Piece × List Char)

namespace Pieces

/-- The characters of all the pieces. -/
def chars (pieces : Pieces) : List Char := pieces.flatMap Prod.snd

/-- The tokens among the pieces of a text that begins at that line and offset. -/
def tokens (line offset : Nat) : Pieces → List Token
  | [] => []
  | (.gap, cs) :: rest => tokens (line + cs.count '\n') (offset + cs.length) rest
  | (.lexeme l, cs) :: rest =>
    ⟨l, ⟨offset, (offset + cs.length : Nat)⟩, line⟩ ::
      tokens (line + cs.count '\n') (offset + cs.length) rest

/-- What the tokens among the pieces say. -/
def lexemes (pieces : Pieces) : List Lexeme :=
  pieces.filterMap fun
    | (.gap, _) => none
    | (.lexeme l, _) => some l

@[simp] theorem chars_nil : chars [] = [] := rfl

@[simp] theorem chars_cons (p : Piece) (cs : List Char) (rest : Pieces) :
    chars ((p, cs) :: rest) = cs ++ chars rest := by
  simp [chars]

@[simp] theorem chars_append (front back : Pieces) :
    chars (front ++ back) = chars front ++ chars back := by
  simp [chars]

theorem map_lexeme_tokens (pieces : Pieces) (line offset : Nat) :
    (tokens line offset pieces).map Token.lexeme = lexemes pieces := by
  induction pieces generalizing line offset with
  | nil => rfl
  | cons piece rest ih =>
    obtain ⟨p, cs⟩ := piece
    cases p with
    | gap => simpa [tokens, lexemes] using ih _ _
    | lexeme l => simpa [tokens, lexemes] using ih _ _

end Pieces

/-- The text begins with those pieces, and the last characters come after them. -/
inductive Cut : List Char → Pieces → List Char → Prop where
  | done {rest : List Char} : Cut rest [] rest
  | piece {c : Char} {more after rest : List Char} {p : Piece} {pieces : Pieces} :
      piece? c (more ++ after) = some (p, more.length) → Cut after pieces rest →
        Cut (c :: (more ++ after)) ((p, c :: more) :: pieces) rest

namespace Cut

variable {text middle rest : List Char} {pieces front back : Pieces}

theorem append (h : Cut text front middle) (h' : Cut middle back rest) :
    Cut text (front ++ back) rest := by
  induction h with
  | done => exact h'
  | piece hpiece _ ih => exact .piece hpiece (ih h')

theorem text_eq (h : Cut text pieces rest) : text = pieces.chars ++ rest := by
  induction h with
  | done => rfl
  | piece hpiece _ ih => simp [← ih]

/-- Pieces that come before others are cut off first. -/
theorem split (h : Cut text (front ++ back) rest) :
    ∃ middle, Cut text front middle ∧ Cut middle back rest := by
  induction front generalizing text with
  | nil => exact ⟨text, .done, h⟩
  | cons piece front ih =>
    cases h with
    | piece hpiece hrest =>
      obtain ⟨middle, hfront, hback⟩ := ih hrest
      exact ⟨middle, .piece hpiece hfront, hback⟩

end Cut

/-! ## What a piece may be -/

section

variable {c : Char} {rest : List Char} {l : Lexeme} {n : Nat}

/-- The signs that consist of one character. -/
def signs : List (Char × Lexeme) := [
  ('.', .dot), ('@', .atSign), ('\x7b', .openBrace), ('\x7d', .closeBrace), ('[', .openBracket),
  (']', .closeBracket), ('(', .openParen), (')', .closeParen), ('?', .question), (':', .colon),
  (',', .comma), (';', .semicolon)]

theorem symbol?_cases (h : symbol? c rest = some (l, n)) :
    l = .ellipsis ∨ ((c, l) ∈ signs ∧ n = 0) := by
  unfold symbol? at h
  split at h
  · split at h
    · exact .inl (Prod.mk.inj (Option.some.inj h)).1.symm
    · cases h
      exact .inr ⟨by simp [signs], rfl⟩
  all_goals cases h
  all_goals exact .inr ⟨by simp [signs], rfl⟩

/-- What a token may be, by its first character. -/
theorem lexeme?_cases (h : lexeme? c rest = some (l, n)) :
    l.IsFree ∨ l = .ellipsis ∨ ((c, l) ∈ signs ∧ n = 0) ∨
      (isNameStart c = true ∧ l = nameLexeme (String.ofList (c :: rest.takeWhile isNameChar)) ∧
        n = (rest.takeWhile isNameChar).length) := by
  have hnumber {negative : Bool} {whole rest : List Char} {taken : Nat}
      (h : some (number negative whole taken rest) = some (l, n)) : l.IsFree := by
    obtain rfl := congrArg Prod.fst (Option.some.inj h)
    unfold number
    dsimp only
    split_ifs <;> trivial
  unfold lexeme? at h
  split_ifs at h with hdigit hminus hquote hname hequals hoperator
  · exact .inl (hnumber h)
  · exact .inl (hnumber h)
  · obtain ⟨⟨s, m⟩, -, heq⟩ := Option.map_eq_some_iff.mp h
    cases heq
    exact .inl trivial
  · cases h
    exact .inr (.inr (.inr ⟨hname, rfl, rfl⟩))
  · cases h
    exact .inl trivial
  · cases h
    exact .inl trivial
  · exact .inr ((symbol?_cases h).imp_right .inl)

theorem piece?_cases {p : Piece} (h : piece? c rest = some (p, n)) :
    (p = .gap ∧ c ∈ [' ', '\t', '\r', '\n'] ∧ n = 0) ∨
      (p = .gap ∧ c ∈ ['#', '/'] ∧ n = (rest.takeWhile (· != '\n')).length) ∨
      ∃ l, p = .lexeme l ∧ lexeme? c rest = some (l, n) := by
  unfold piece? at h
  split_ifs at h with hblank hcomment
  · obtain ⟨rfl, rfl⟩ := Prod.mk.inj (Option.some.inj h)
    exact .inl ⟨rfl, by simpa [or_assoc] using hblank, rfl⟩
  · obtain ⟨rfl, rfl⟩ := Prod.mk.inj (Option.some.inj h)
    refine .inr (.inl ⟨rfl, ?_, rfl⟩)
    simp only [startsComment, Bool.or_eq_true, Bool.and_eq_true, beq_iff_eq] at hcomment
    simpa using hcomment.imp_right And.left
  · obtain ⟨⟨l, m⟩, hl, heq⟩ := Option.map_eq_some_iff.mp h
    obtain ⟨rfl, rfl⟩ := Prod.mk.inj heq
    exact .inr (.inr ⟨l, rfl, hl⟩)

theorem lexeme?_of_piece? (h : piece? c rest = some (.lexeme l, n)) :
    lexeme? c rest = some (l, n) := by
  rcases piece?_cases h with ⟨hp, -⟩ | ⟨hp, -⟩ | ⟨l', hp, hl'⟩
  · cases hp
  · cases hp
  · rwa [Piece.lexeme.inj hp]

/-- What stands between tokens begins with a blank, or with the sign of a comment. -/
theorem mem_of_gap (h : piece? c rest = some (.gap, n)) :
    c ∈ [' ', '\t', '\r', '\n', '#', '/'] := by
  rcases piece?_cases h with ⟨-, hc, -⟩ | ⟨-, hc, -⟩ | ⟨l, hp, -⟩
  · exact List.mem_append_left ['#', '/'] hc
  · exact List.mem_append_right [' ', '\t', '\r', '\n'] hc
  · cases hp

end

/-! ## How far a piece goes -/

theorem stringRest_length {cs s : List Char} {n : Nat} (h : stringRest cs = some (s, n)) :
    n ≤ cs.length := by
  induction cs using stringRest.induct generalizing s n with
  | case1 => simp [stringRest] at h
  | case2 rest =>
    obtain ⟨rfl, rfl⟩ : s = [] ∧ n = 1 := by simpa [stringRest, eq_comm] using h
    simp
  | case3 rest => simp [stringRest] at h
  | case4 => simp [stringRest] at h
  | case5 c rest hline => simp_all [stringRest]
  | case6 c rest hline ih =>
    simp only [stringRest, hline] at h
    obtain ⟨⟨s', n'⟩, hrest, heq⟩ := Option.map_eq_some_iff.mp h
    obtain ⟨rfl, rfl⟩ := Prod.mk.inj heq
    have := ih hrest
    simp only [List.length_cons]
    omega
  | case7 c rest h1 h2 h3 h4 ih =>
    rw [stringRest] at h <;> try assumption
    obtain ⟨⟨s', n'⟩, hrest, heq⟩ := Option.map_eq_some_iff.mp h
    obtain ⟨rfl, rfl⟩ := Prod.mk.inj heq
    have := ih hrest
    simp only [List.length_cons]
    omega

theorem number_length (negative : Bool) (whole rest : List Char) (taken : Nat) :
    (number negative whole taken rest).2 ≤ taken + rest.length := by
  unfold number
  split
  · next more =>
    have := (List.takeWhile_sublist Text.isDigit (l := more)).length_le
    dsimp only
    split
    · simp
    · simp only [List.length_cons]
      omega
  · simp

theorem symbol?_length {c : Char} {rest : List Char} {l : Lexeme} {n : Nat}
    (h : symbol? c rest = some (l, n)) : n ≤ rest.length := by
  unfold symbol? at h
  split at h
  · split at h
    · obtain ⟨-, rfl⟩ := Prod.mk.inj (Option.some.inj h)
      simp
    · obtain ⟨-, rfl⟩ := Prod.mk.inj (Option.some.inj h)
      exact Nat.zero_le _
  all_goals
    first
    | contradiction
    | obtain ⟨-, rfl⟩ := Prod.mk.inj (Option.some.inj h)
      exact Nat.zero_le _

theorem lexeme?_length {c : Char} {rest : List Char} {l : Lexeme} {n : Nat}
    (h : lexeme? c rest = some (l, n)) : n ≤ rest.length := by
  have htake (p : Char → Bool) := (List.takeWhile_sublist p (l := rest)).length_le
  have hdigits := htake Text.isDigit
  have hnumber (negative : Bool) (whole : List Char) :
      (number negative whole (rest.takeWhile Text.isDigit).length
        (rest.drop (rest.takeWhile Text.isDigit).length)).2 ≤ rest.length := by
    have hle := number_length negative whole
      (rest.drop (rest.takeWhile Text.isDigit).length) (rest.takeWhile Text.isDigit).length
    rw [List.length_drop] at hle
    omega
  unfold lexeme? at h
  split_ifs at h
  · obtain ⟨-, rfl⟩ := Prod.mk.inj (Option.some.inj h)
    exact hnumber false _
  · obtain ⟨-, rfl⟩ := Prod.mk.inj (Option.some.inj h)
    exact hnumber true _
  · obtain ⟨⟨s, m⟩, hs, heq⟩ := Option.map_eq_some_iff.mp h
    obtain ⟨-, rfl⟩ := Prod.mk.inj heq
    exact stringRest_length hs
  · obtain ⟨-, rfl⟩ := Prod.mk.inj (Option.some.inj h)
    exact htake isNameChar
  · obtain ⟨-, rfl⟩ := Prod.mk.inj (Option.some.inj h)
    exact Nat.zero_le _
  · obtain ⟨-, rfl⟩ := Prod.mk.inj (Option.some.inj h)
    exact htake isOperatorChar
  · exact symbol?_length h

theorem piece?_length {c : Char} {rest : List Char} {p : Piece} {n : Nat}
    (h : piece? c rest = some (p, n)) : n ≤ rest.length := by
  rcases piece?_cases h with ⟨-, -, rfl⟩ | ⟨-, -, rfl⟩ | ⟨l, -, hl⟩
  · exact Nat.zero_le _
  · exact (List.takeWhile_sublist _).length_le
  · exact lexeme?_length hl

/-! ## Scanning -/

/-- Every text is cut up to its end, or up to a character that no piece begins with. -/
theorem exists_cut (text : List Char) : ∃ pieces rest, Cut text pieces rest ∧
    (rest = [] ∨ ∃ c after, rest = c :: after ∧ piece? c after = none) := by
  induction hlength : text.length using Nat.strongRecOn generalizing text with
  | ind length ih =>
    cases text with
    | nil => exact ⟨[], [], .done, .inl rfl⟩
    | cons c after =>
      cases hpiece : piece? c after with
      | none => exact ⟨[], c :: after, .done, .inr ⟨c, after, rfl, hpiece⟩⟩
      | some found =>
        obtain ⟨p, n⟩ := found
        have hn : (after.take n).length = n := by
          rw [List.length_take]
          exact Nat.min_eq_left (piece?_length hpiece)
        obtain ⟨pieces, rest, hcut, hrest⟩ := ih (after.drop n).length
          (by rw [← hlength, List.length_drop, List.length_cons]; omega) (after.drop n) rfl
        refine ⟨(p, c :: after.take n) :: pieces, rest, ?_, hrest⟩
        have hall : after.take n ++ after.drop n = after := List.take_append_drop n after
        conv =>
          arg 1
          rw [← hall]
        exact .piece (by rw [hall, hn, hpiece]) hcut

theorem scanFrom_pending (more after : List Char) (line offset : Nat) :
    scanFrom more.length line offset (more ++ after) =
      scanFrom 0 (line + more.count '\n') (offset + more.length) after := by
  induction more generalizing line offset with
  | nil => rfl
  | cons c more ih =>
    simp only [List.length_cons, List.cons_append, scanFrom, ih]
    by_cases hline : c = '\n'
    · simp [hline, Nat.add_comm, Nat.add_left_comm]
    · simp [hline, Nat.add_comm, Nat.add_left_comm]

/-- Scanning gives the tokens among the pieces that are cut off, and then goes on. -/
theorem scanFrom_cut {text rest : List Char} {pieces : Pieces} (h : Cut text pieces rest)
    (line offset : Nat) :
    scanFrom 0 line offset text =
      ((pieces.tokens line offset) ++
          (scanFrom 0 (line + pieces.chars.count '\n') (offset + pieces.chars.length) rest).1,
        (scanFrom 0 (line + pieces.chars.count '\n') (offset + pieces.chars.length) rest).2) := by
  induction h generalizing line offset with
  | done => simp [Pieces.tokens]
  | @piece c more after rest p pieces hpiece _ ih =>
    have hline : (if c == '\n' then line + 1 else line) + more.count '\n' =
        line + (c :: more).count '\n' := by
      by_cases hc : c = '\n'
      · simp [hc, Nat.add_assoc, Nat.add_comm 1]
      · simp [hc]
    have hoffset : offset + 1 + more.length = offset + (c :: more).length := by
      simp only [List.length_cons]
      omega
    have hstop : (offset : Int) + 1 + more.length = (offset + (c :: more).length : Nat) := by
      simp only [List.length_cons]
      omega
    cases p with
    | gap =>
      rw [scanFrom, hpiece]
      dsimp only
      rw [scanFrom_pending, hline, hoffset, ih]
      simp only [Pieces.tokens, Pieces.chars_cons, List.count_append, List.length_append,
        Nat.add_assoc]
    | lexeme l =>
      rw [scanFrom, hpiece]
      dsimp only
      rw [scanFrom_pending, hline, hoffset, hstop, ih]
      simp only [Pieces.tokens, Pieces.chars_cons, List.count_append, List.length_append,
        Nat.add_assoc]
      rw [List.cons_append]

/-- The pieces of a whole text give its tokens. -/
theorem scan_of_cut {source : String} {pieces : Pieces} {rest : List Char}
    (h : Cut source.toList pieces rest) :
    (rest = [] → scan source = (pieces.tokens 1 0, none)) ∧
      ∀ c after, rest = c :: after → piece? c after = none →
        scan source = (pieces.tokens 1 0, some ⟨c, pieces.chars.length⟩) := by
  constructor
  · rintro rfl
    rw [scan, scanFrom_cut h]
    simp [scanFrom]
  · rintro c after rfl hpiece
    rw [scan, scanFrom_cut h]
    simp [scanFrom, hpiece]

theorem exists_cut_of_scan {source : String} {tokens : List Token}
    (h : scan source = (tokens, none)) :
    ∃ pieces : Pieces, Cut source.toList pieces [] ∧ tokens = pieces.tokens 1 0 := by
  obtain ⟨pieces, rest, hcut, hrest⟩ := exists_cut source.toList
  rcases hrest with rfl | ⟨c, after, rfl, hpiece⟩
  · exact ⟨pieces, hcut, congrArg Prod.fst (h.symm.trans ((scan_of_cut hcut).1 rfl))⟩
  · exact nomatch congrArg Prod.snd (h.symm.trans ((scan_of_cut hcut).2 c after rfl hpiece))

end Token

end RowSchema
