import RowSchema.Editor.Mark
import RowSchema.Proofs.Basic
import RowSchema.Proofs.Editor.Places
import RowSchema.Proofs.Reader.Fault
import RowSchema.Proofs.Token.Written

/-! # The mark of a fault

An editor finds the offset of a fault in the message about it. The message quotes the token that is
at fault, so the mark of a text that is refused stands at the fault just if that token is no string
that mentions another position. -/

namespace RowSchema

namespace Editor

variable {start s shown rest : List Char} {n : Nat}

/-! ## Positions in quoted text -/

theorem isPrefixOf_append_quote (h : '\'' ∉ start) :
    start.isPrefixOf (s ++ '\'' :: rest) = start.isPrefixOf s := by
  induction start generalizing s with
  | nil => rfl
  | cons c start ih =>
    rw [List.mem_cons, not_or] at h
    cases s with
    | nil => simp [List.isPrefixOf, Ne.symm h.1]
    | cons d s => simp [List.isPrefixOf, ih h.2]

theorem after?_append_quote (h : '\'' ∉ start) :
    after? start (s ++ '\'' :: rest) = (after? start s).map (· ++ '\'' :: rest) := by
  unfold after?
  rw [isPrefixOf_append_quote h]
  split
  · next hprefix =>
    have hle := (List.isPrefixOf_iff_prefix.mp hprefix).length_le
    rw [List.drop_append_of_le_length hle]
    rfl
  · rfl

/-- No mention of a position goes on past a single quote. -/
theorem positionHere?_append_quote : positionHere? (s ++ '\'' :: rest) = positionHere? s := by
  have hquote : Text.isDigit '\'' = false := by decide
  have hdigits (more : List Char) :
      (more ++ '\'' :: rest).takeWhile Text.isDigit = more.takeWhile Text.isDigit := by
    rw [List.takeWhile_append, List.takeWhile_cons_of_neg (by simp [hquote]), List.append_nil]
    split
    · next hlength => exact ((List.takeWhile_prefix _).eq_of_length hlength).symm
    · rfl
  unfold positionHere?
  rw [after?_append_quote (by decide), after?_append_quote (by decide), ← Option.map_or]
  cases (after? "at position ".toList s).or (after? "(position ".toList s) with
  | none => rfl
  | some more => simp only [Option.map_some, hdigits]

theorem mentionedPosition?_append_quote : mentionedPosition? (shown ++ '\'' :: rest) =
    (mentionedPosition? shown).or (mentionedPosition? rest) := by
  induction shown with
  | nil =>
    have hquote : positionHere? ([] ++ '\'' :: rest) = none := positionHere?_append_quote
    rw [List.nil_append] at hquote ⊢
    rw [mentionedPosition?.eq_2, hquote]
    rfl
  | cons c shown ih =>
    rw [List.cons_append, mentionedPosition?, mentionedPosition?, ih, ← List.cons_append,
      positionHere?_append_quote, Option.or_assoc]

theorem mem_of_after? (h : after? start s = some rest) : ∀ c ∈ start, c ∈ s := by
  unfold after? at h
  split at h
  · next hprefix => exact fun c hc => (List.isPrefixOf_iff_prefix.mp hprefix).subset hc
  · cases h

/-- The mention of a position holds a blank. -/
theorem blank_mem_of_positionHere? (h : positionHere? s = some n) : ' ' ∈ s := by
  unfold positionHere? at h
  split at h
  · cases h
  · next rest hrest =>
    rcases Option.or_eq_some_iff.mp hrest with hafter | ⟨-, hafter⟩
    · exact mem_of_after? hafter ' ' (by decide)
    · exact mem_of_after? hafter ' ' (by decide)

theorem blank_mem_of_mentionedPosition? (h : mentionedPosition? s = some n) : ' ' ∈ s := by
  induction s with
  | nil => cases h
  | cons c s ih =>
    rcases Option.or_eq_some_iff.mp h with h | ⟨-, h⟩
    · exact blank_mem_of_positionHere? h
    · exact List.mem_cons_of_mem _ (ih h)

/-! ## Positions in messages -/

theorem after?_append : after? start (start ++ s) = some s := by
  rw [after?, if_pos (List.isPrefixOf_iff_prefix.mpr (List.prefix_append start s)), List.drop_left]

theorem after?_of_ne {c d : Char} (h : c ≠ d) : after? (c :: start) (d :: s) = none := by
  simp [after?, List.isPrefixOf, h]

theorem mentionedPosition?_blank : mentionedPosition? (' ' :: s) = mentionedPosition? s := by
  have hat : after? "at position ".toList (' ' :: s) = none := after?_of_ne (by decide)
  have hparen : after? "(position ".toList (' ' :: s) = none := after?_of_ne (by decide)
  rw [mentionedPosition?, positionHere?, hat, hparen]
  rfl

/-- A number is read up to a character that is no digit. -/
theorem mentionedPosition?_of_after (n : Nat) (hrest : rest.head?.any Text.isDigit = false)
    (h : (after? "at position ".toList s).or (after? "(position ".toList s) =
      some (Nat.toDigits 10 n ++ rest)) : mentionedPosition? s = some n := by
  have hdigits : (Nat.toDigits 10 n ++ rest).takeWhile Text.isDigit = Nat.toDigits 10 n :=
    Token.takeWhile_of_stop (fun c hc => Token.isDigit_of_mem_toDigits hc) hrest
  have hhere : positionHere? s = some n := by
    unfold positionHere?
    rw [h]
    dsimp only
    rw [hdigits]
    split
    · next hnil => simp at hnil
    · rw [Token.ofDigits_toDigits]
  cases s with
  | nil => cases hhere
  | cons c s =>
    rw [mentionedPosition?, hhere]
    rfl

theorem mentionedPosition?_at (n : Nat) :
    mentionedPosition? (" at position ".toList ++ Nat.toDigits 10 n) = some n := by
  have hblank : " at position ".toList = ' ' :: "at position ".toList := by decide
  rw [hblank, List.cons_append, mentionedPosition?_blank]
  have hrest : ([] : List Char).head?.any Text.isDigit = false := rfl
  refine mentionedPosition?_of_after n hrest ?_
  rw [after?_append, List.append_nil]
  rfl

theorem mentionedPosition?_paren (n : Nat) :
    mentionedPosition? (" (position ".toList ++ (Nat.toDigits 10 n ++ [')'])) = some n := by
  have hblank : " (position ".toList = ' ' :: "(position ".toList := by decide
  rw [hblank, List.cons_append, mentionedPosition?_blank]
  have hrest : [')'].head?.any Text.isDigit = false := by decide
  refine mentionedPosition?_of_after n hrest ?_
  rw [after?_append]
  rfl

/-- A message mentions its own position after whatever it quotes. -/
theorem mentionedPosition?_quoting {front back : List Char} (hfront : mentionedPosition? front = none)
    (hback : mentionedPosition? back = some n) :
    mentionedPosition? (front ++ '\'' :: (shown ++ '\'' :: back)) =
      (mentionedPosition? shown).or (some n) := by
  rw [mentionedPosition?_append_quote, hfront, mentionedPosition?_append_quote, hback]
  rfl

end Editor

namespace SourceError

open Editor

/-- The offset of the fault. -/
def offset? : SourceError → Option Int
  | .illegal _ offset | .unexpected _ offset => some offset
  | .endOfInput => none

/-- What the message quotes. -/
def quoted : SourceError → List Char
  | .illegal c _ => [c]
  | .unexpected shown _ => shown.toList
  | .endOfInput => []

theorem mentionedPosition?_message {e : SourceError} {n : Nat} (h : e.offset? = some (n : Int)) :
    mentionedPosition? e.message.toList = (mentionedPosition? e.quoted).or (some n) := by
  have hnumber : (toString (n : Int)).toList = Nat.toDigits 10 n := by
    simp [Int.toString_eq_repr, Int.repr]
  cases e with
  | endOfInput => cases h
  | illegal c offset =>
    simp only [offset?, Option.some.injEq] at h
    subst h
    have hmessage : message (.illegal c n) =
        "Illegal character '" ++ toString c ++ "' at position " ++ toString (n : Int) := rfl
    have hc : (toString c).toList = [c] := by simp [toString]
    have hfront : "Illegal character '".toList = "Illegal character ".toList ++ ['\''] := by decide
    have hback : "' at position ".toList = '\'' :: " at position ".toList := by decide
    have hquoting : mentionedPosition? ("Illegal character ".toList ++ '\'' :: ([c] ++ '\'' ::
        (" at position ".toList ++ Nat.toDigits 10 n))) = (mentionedPosition? [c]).or (some n) :=
      mentionedPosition?_quoting (by decide) (mentionedPosition?_at n)
    simpa only [hmessage, hc, hfront, hback, hnumber, quoted, String.toList_append,
      List.append_assoc, List.cons_append, List.nil_append] using hquoting
  | unexpected text offset =>
    simp only [offset?, Option.some.injEq] at h
    subst h
    have hmessage : message (.unexpected text n) =
        "Syntax error at '" ++ text ++ "' (position " ++ toString (n : Int) ++ ")" := rfl
    have hclose : ")".toList = [')'] := by decide
    have hfront : "Syntax error at '".toList = "Syntax error at ".toList ++ ['\''] := by decide
    have hback : "' (position ".toList = '\'' :: " (position ".toList := by decide
    have hquoting : mentionedPosition? ("Syntax error at ".toList ++ '\'' :: (text.toList ++ '\'' ::
        (" (position ".toList ++ (Nat.toDigits 10 n ++ [')'])))) =
          (mentionedPosition? text.toList).or (some n) :=
      mentionedPosition?_quoting (by decide) (mentionedPosition?_paren n)
    simpa only [hmessage, hclose, hfront, hback, hnumber, quoted, String.toList_append,
      List.append_assoc, List.cons_append, List.nil_append] using hquoting

end SourceError

/-! ## Tokens in messages -/

namespace Token

variable {c : Char} {text more after rest : List Char} {pieces : Pieces} {l : Lexeme}

theorem shown_integer (n : Int) : (Lexeme.integer n).shown = toString n := by
  simp [Lexeme.shown, Lexeme.value, Value.repr]

theorem shown_float (x : Float) : (Lexeme.float x).shown = Decimal.numbers.render x := by
  simp [Lexeme.shown, Lexeme.value, Value.repr]

theorem isNumeric_number (negative : Bool) (whole rest : List Char) (taken : Nat) :
    ∀ c ∈ (number negative whole taken rest).1.shown.toList, Decimal.isNumeric c = true := by
  unfold number
  dsimp only
  split_ifs
  · exact (shown_integer _).symm ▸ (Decimal.isNumeric_toString _).2
  · exact (shown_integer _).symm ▸ (Decimal.isNumeric_toString _).2
  · exact (shown_float _).symm ▸ Decimal.isNumeric_render _

theorem shown_nameLexeme (name : String) : (nameLexeme name).shown = name := by
  unfold nameLexeme
  split
  · next k hk =>
    have htext : k.text = name := by simpa using List.find?_some hk
    exact htext
  · rfl

theorem blank_notMem_of_lexeme? (h : lexeme? c (more ++ after) = some (l, more.length))
    (hl : ∀ s, l ≠ .string s) : ' ' ∉ l.shown.toList := by
  have hnumber {m : Lexeme × Nat} (hm : m = (l, more.length))
      (hall : ∀ c ∈ m.1.shown.toList, Decimal.isNumeric c = true) : ' ' ∉ l.shown.toList := by
    subst hm
    exact fun hblank => absurd (hall _ hblank) (by decide)
  have hrun {p : Char → Bool} (hblank : p ' ' = false) (hc : p c = true) :
      ' ' ∉ c :: (more ++ after).takeWhile p := by
    intro hmem
    rcases List.mem_cons.mp hmem with rfl | hmem
    · rw [hblank] at hc
      cases hc
    · rw [List.mem_takeWhile_imp hmem] at hblank
      cases hblank
  unfold lexeme? at h
  split_ifs at h with hdigit hminus hquote hname hequals hoperator
  · exact hnumber (Option.some.inj h) (isNumeric_number _ _ _ _)
  · exact hnumber (Option.some.inj h) (isNumeric_number _ _ _ _)
  · obtain ⟨⟨s, m⟩, -, heq⟩ := Option.map_eq_some_iff.mp h
    exact absurd (Prod.mk.inj heq).1.symm (hl _)
  · obtain ⟨rfl, -⟩ := Prod.mk.inj (Option.some.inj h)
    rw [shown_nameLexeme, String.toList_ofList]
    have hblank : isNameChar ' ' = false := by decide
    exact hrun hblank (isNameChar_of_isNameStart hname)
  · obtain ⟨rfl, -⟩ := Prod.mk.inj (Option.some.inj h)
    decide
  · obtain ⟨rfl, -⟩ := Prod.mk.inj (Option.some.inj h)
    have hshown : (Lexeme.operator (String.ofList (c :: (more ++ after).takeWhile isOperatorChar))
      ).shown.toList = c :: (more ++ after).takeWhile isOperatorChar := String.toList_ofList
    rw [hshown]
    exact hrun (by simp [isOperatorChar_eq]) hoperator
  · unfold symbol? at h
    split at h
    · split at h
      all_goals
        obtain ⟨rfl, -⟩ := Prod.mk.inj (Option.some.inj h)
        decide
    all_goals
      first
      | contradiction
      | obtain ⟨rfl, -⟩ := Prod.mk.inj (Option.some.inj h)
        decide

/-- Messages quote no blank unless they quote a string. -/
theorem Cut.blank_notMem (h : Cut text pieces rest) (hmem : l ∈ pieces.lexemes)
    (hl : ∀ s, l ≠ .string s) : ' ' ∉ l.shown.toList := by
  induction h with
  | done => cases hmem
  | @piece c more after rest p pieces hpiece _ ih =>
    cases p with
    | gap => exact ih hmem
    | lexeme l' =>
      rcases List.mem_cons.mp hmem with rfl | hmem
      · exact blank_notMem_of_lexeme? (lexeme?_of_piece? hpiece) hl
      · exact ih hmem

/-- Tokens begin before the text after them. -/
theorem Cut.start_lt (h : Cut text pieces rest) (line offset : Nat) :
    ∀ t ∈ pieces.tokens line offset, t.span.start < (offset + pieces.chars.length : Nat) := by
  induction h generalizing line offset with
  | done => simp [Pieces.tokens]
  | @piece c more after rest p pieces hpiece _ ih =>
    have hlater := ih (line + (c :: more).count '\n') (offset + (c :: more).length)
    rw [Nat.add_assoc, ← List.length_append] at hlater
    cases p with
    | gap => exact hlater
    | lexeme l =>
      refine List.forall_mem_cons.mpr ⟨?_, hlater⟩
      simp only [Pieces.chars_cons, List.cons_append, List.length_cons]
      omega

/-- Different tokens begin at different offsets. -/
theorem eq_of_start_eq {source : String} {t u : Token} (ht : t ∈ (scan source).1)
    (hu : u ∈ (scan source).1) (h : t.span.start = u.span.start) : t = u := by
  obtain ⟨pieces, rest, hcut, hrest⟩ := exists_cut source.toList
  have hscan : (scan source).1 = pieces.tokens 1 0 := by
    rcases hrest with rfl | ⟨c, after, rfl, hpiece⟩
    · rw [(scan_of_cut hcut).1 rfl]
    · rw [(scan_of_cut hcut).2 c after rfl hpiece]
  rw [hscan] at ht hu
  obtain ⟨hstands, hpairs⟩ := stands_of_cut hcut (List.nil_append _).symm 1
  have hapart : (pieces.tokens 1 0).Pairwise fun t u => t.span.start ≠ u.span.start := by
    refine List.Pairwise.imp_of_mem (fun {t u} ht _ hbefore hstart => ?_) hpairs
    have hproper := (hstands t ht).proper
    have hle : t.span.stop ≤ u.span.start := hbefore
    omega
  have hsymm : Std.Symm fun t u : Token => t.span.start ≠ u.span.start := ⟨fun _ _ => Ne.symm⟩
  by_contra hne
  exact hapart.forall ht hu hne h

end Token

namespace Editor

/-- The token at an offset is a string that mentions a position. -/
def Mentions (source : String) (offset : Int) (n : Nat) : Prop :=
  ∃ t ∈ (Token.scan source).1, t.span.start = offset ∧
    ∃ s, t.lexeme = .string s ∧ mentionedPosition? s.toList = some n

variable {source uri : String} {e : SourceError} {p : Int} {n : Nat}

open Token

theorem exists_offset (h : Record.readAll source = .error e) (hp : e.offset? = some p) :
    ∃ n : Nat, p = n := by
  have hfault := Record.firstFault_of_error h
  cases e with
  | endOfInput => cases hp
  | illegal c offset =>
    obtain rfl := Option.some.inj hp
    obtain ⟨pieces, -, -, -, rfl, -⟩ := hfault
    exact ⟨_, rfl⟩
  | unexpected shown offset =>
    obtain rfl := Option.some.inj hp
    obtain ⟨pieces, rest, before, t, hcut, htokens, -, rfl, -, -⟩ := hfault
    have hstands := (stands_of_cut hcut (List.nil_append _).symm 1).1 t (by simp [htokens])
    exact ⟨_, (Int.toNat_of_nonneg hstands.start).symm⟩

/-- The text that a message quotes is the text of the token at the fault, and mentions a position
only if that token is a string. -/
theorem mentions_iff (h : Record.readAll source = .error e) (hp : e.offset? = some p) :
    Mentions source p n ↔ mentionedPosition? e.quoted = some n := by
  have hfault := Record.firstFault_of_error h
  cases e with
  | endOfInput => cases hp
  | illegal c offset =>
    obtain rfl := Option.some.inj hp
    obtain ⟨pieces, rest, hcut, hpiece, rfl, -⟩ := hfault
    constructor
    · rintro ⟨t, ht, hstart, -⟩
      rw [(scan_of_cut hcut).2 c rest rfl hpiece] at ht
      have hlt := hcut.start_lt 1 0 t ht
      omega
    · intro hquoted
      obtain rfl : ' ' = c := List.mem_singleton.mp (blank_mem_of_mentionedPosition? hquoted)
      cases hquoted
  | unexpected shown offset =>
    obtain rfl := Option.some.inj hp
    obtain ⟨pieces, rest, before, t, hcut, htokens, rfl, rfl, -, -⟩ := hfault
    have ht : t ∈ (scan source).1 := by
      rw [scan, scanFrom_cut hcut, htokens]
      simp
    constructor
    · rintro ⟨u, hu, hstart, s, hs, hn⟩
      obtain rfl := eq_of_start_eq hu ht hstart
      rw [SourceError.quoted, hs]
      exact hn
    · intro hquoted
      have hmem : t.lexeme ∈ pieces.lexemes := by
        rw [← Pieces.map_lexeme_tokens pieces 1 0, htokens]
        simp
      have hstring : ∃ s, t.lexeme = .string s := by
        by_contra hnone
        exact hcut.blank_notMem hmem (fun s hs => hnone ⟨s, hs⟩)
          (blank_mem_of_mentionedPosition? hquoted)
      obtain ⟨s, hs⟩ := hstring
      rw [SourceError.quoted, hs] at hquoted
      exact ⟨t, ht, rfl, s, hs, hquoted⟩

/-- The mark goes from the first position of the message to the next character. -/
theorem ofSourceError_eq_ok_iff {m : Mark} (hn : mentionedPosition? e.message.toList = some n) :
    Mark.ofSourceError source e = .ok m ↔ (Place.ofOffset source n).Countable ∧
      m = { range := ⟨Place.ofOffset source n,
              ⟨(Place.ofOffset source n).line, (Place.ofOffset source n).character + 1⟩⟩,
            message := e.message } := by
  obtain ⟨hline, hcharacter⟩ := Place.ofOffset_nonneg source n
  unfold Mark.ofSourceError
  simp only [hn, bind_eq_ok, Place.checked_eq_ok_iff, Place.isCountable_iff, Place.Countable]
  constructor
  · rintro ⟨start, ⟨rfl, -, -⟩, stop, ⟨rfl, hline, hcharacter⟩, hm⟩
    exact ⟨⟨hline.2, by omega⟩, (Except.ok.inj hm).symm⟩
  · rintro ⟨⟨hline', hcharacter'⟩, rfl⟩
    exact ⟨_, ⟨rfl, ⟨hline, hline'⟩, hcharacter, by omega⟩, _,
      ⟨rfl, ⟨hline, hline'⟩, by omega, by omega⟩, rfl⟩

theorem marks_eq (h : Record.readAll source = .error e) :
    marks source uri = (Mark.ofSourceError source e).map ([·]) := by
  have hparse : Schema.parse {} source = ({}, .error (.source e)) := by
    rw [Schema.parse, h]
  rw [marks, hparse]
  rfl

/-- A text that has a fault gets one mark. It is at the fault if an editor can count that far, unless
the token there is a string that mentions another position: then the mark is at that one. -/
theorem marks_of_fault (h : Record.readAll source = .error e) (hp : e.offset? = some p) :
    ((∃ m, marks source uri = .ok [m] ∧ m.range.start = Place.ofOffset source p) ↔
      (Place.ofOffset source p).Countable ∧ ∀ n, Mentions source p n → n = p) ∧
    ∀ ms, marks source uri = .ok ms → ∃ m n, ms = [m] ∧ m.message = e.message ∧
      m.range.start = Place.ofOffset source (n : Nat) ∧
      (Mentions source p n ∨ n = p ∧ ∀ k, ¬ Mentions source p k) := by
  obtain ⟨offset, rfl⟩ := exists_offset h hp
  obtain ⟨n, hn, hwhere⟩ : ∃ n, mentionedPosition? e.message.toList = some n ∧
      (Mentions source offset n ∨ n = offset ∧ ∀ k, ¬ Mentions source offset k) := by
    rw [SourceError.mentionedPosition?_message hp]
    simp only [mentions_iff h hp]
    cases mentionedPosition? e.quoted with
    | none => exact ⟨offset, rfl, .inr ⟨rfl, nofun⟩⟩
    | some n => exact ⟨n, rfl, .inl rfl⟩
  simp only [marks_eq h, map_eq_ok, ofSourceError_eq_ok_iff hn]
  refine ⟨⟨?_, ?_⟩, ?_⟩
  · rintro ⟨m, ⟨m', ⟨hcount, rfl⟩, heq⟩, hstart⟩
    obtain rfl := (List.cons.inj heq).1
    obtain rfl := Place.ofOffset_injective hstart
    refine ⟨hcount, fun k hk => ?_⟩
    rcases hwhere with hmentions | ⟨-, hnone⟩
    · rw [mentions_iff h hp] at hmentions hk
      exact congrArg _ (Option.some.inj (hk.symm.trans hmentions))
    · exact absurd hk (hnone k)
  · rintro ⟨hcount, honly⟩
    obtain rfl : n = offset := by
      rcases hwhere with hmentions | ⟨rfl, -⟩
      · exact Int.ofNat.inj (honly n hmentions)
      · rfl
    exact ⟨_, ⟨_, ⟨hcount, rfl⟩, rfl⟩, rfl⟩
  · rintro ms ⟨m, ⟨-, rfl⟩, rfl⟩
    refine ⟨_, n, rfl, rfl, rfl, ?_⟩
    exact hwhere.imp_right fun ⟨heq, hnone⟩ => ⟨congrArg _ heq, hnone⟩

/-- The illegal character comes after a string that mentions a position. -/
theorem marks_of_fault_illegal : ∃ m, marks "@Table(\"at position 3\"$" "" = .ok [m] ∧
    m.range.start = Place.ofOffset "@Table(\"at position 3\"$" 22 := by
  have hread : Record.readAll "@Table(\"at position 3\"$" = .error (.illegal '$' 22) := by
    rw [Record.readAll]
    conv in Token.scan _ => cbv
    rfl
  have hcount : (Place.ofOffset "@Table(\"at position 3\"$" 22).Countable :=
    ⟨by decide, by decide⟩
  refine (marks_of_fault hread rfl).1.mpr ⟨hcount, fun n hn => ?_⟩
  rw [mentions_iff hread rfl] at hn
  cases hn

/-- The brace is followed by a string that mentions the first position of the text. -/
theorem not_marks_of_fault : ¬ ∀ (source uri : String) (e : SourceError) (p : Int),
    Record.readAll source = .error e → e.offset? = some p →
      ∃ m, marks source uri = .ok [m] ∧ m.range.start = Place.ofOffset source p := by
  intro h
  have hread : Record.readAll "struct A \x7b \"at position 0\" \x7d" =
      .error (.unexpected "at position 0" 11) := by
    rw [Record.readAll]
    conv in Token.scan _ => cbv
    rfl
  have hmentioned : mentionedPosition?
      (SourceError.unexpected "at position 0" 11).message.toList = some 0 := by
    decide
  obtain ⟨m, hm, hstart⟩ := h _ "" _ (11 : Nat) hread rfl
  rw [marks_eq hread, map_eq_ok] at hm
  obtain ⟨m', hm', heq⟩ := hm
  obtain rfl := (List.cons.inj heq).1
  obtain ⟨-, rfl⟩ := (ofSourceError_eq_ok_iff hmentioned).mp hm'
  exact absurd (Place.ofOffset_injective hstart) (by decide)

/-! ## Texts that are refused -/

/-- The mark of a text that is refused is an error, with nothing to mend it. -/
theorem Mark.plain_ofSourceError {m : Mark} (h : Mark.ofSourceError source e = .ok m) :
    m.severity = .error ∧ m.fixes = [] := by
  unfold Mark.ofSourceError at h
  dsimp only at h
  split at h <;>
    obtain ⟨start, -, h⟩ := bind_eq_ok.mp h <;>
    obtain ⟨stop, -, h⟩ := bind_eq_ok.mp h <;>
    (cases h; exact ⟨rfl, rfl⟩)

/-- A text that is not taken into an empty schema has one mark, an error with nothing to mend it. -/
theorem marks_of_error {t : Schema} {e : SchemaError} {ms : List Mark}
    (h : Schema.parse {} source = (t, .error e)) (hms : marks source uri = .ok ms) :
    ∃ m, ms = [m] ∧ m.severity = .error ∧ m.fixes = [] := by
  unfold marks at hms
  rw [h] at hms
  cases e with
  | source e =>
    obtain ⟨m, hm, hms⟩ := bind_eq_ok.mp hms
    cases hms
    exact ⟨m, rfl, Mark.plain_ofSourceError hm⟩
  | alreadyRegistered name =>
    cases hms
    exact ⟨_, rfl, rfl, rfl⟩

end Editor

end RowSchema
