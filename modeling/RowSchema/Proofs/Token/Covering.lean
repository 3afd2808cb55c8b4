import RowSchema.Proofs.Token.Local

/-! # Tokens cover their text

Between the tokens of a text there is nothing but blanks and comments. A token does not depend on
what stands around it: its own characters, read alone, are that token again, and no longer stretch
of the text that begins with it is one token. Reading a text stops only where neither a token nor a
gap begins. -/

namespace RowSchema.Token

/-! ## Gaps -/

/-- Blanks and comments, in front of the text `after`. A comment goes on to the end of its line. -/
inductive Gap (after : List Char) : List Char → Prop
  | nil : Gap after []
  | blank {c : Char} {cs : List Char} (hc : c ∈ [' ', '\t', '\r', '\n']) (h : Gap after cs) :
      Gap after (c :: cs)
  | comment {mark body cs : List Char} (hmark : mark = ['#'] ∨ mark = ['/', '/'])
      (hbody : '\n' ∉ body) (hend : ∀ d ∈ (cs ++ after).head?, d = '\n') (h : Gap after cs) :
      Gap after (mark ++ body ++ cs)

/-- The text at the span is a gap. -/
structure IsGap (source : String) (s : Span) : Prop where
  start_le : s.start ≤ s.stop
  stop_le : s.stop ≤ source.toList.length
  gap : Gap (source.toList.drop s.stop.toNat) (s.textIn source).toList

/-- The spans before, between and after tokens, from one offset to another. -/
def gapsBetween (start stop : Int) : List Token → List Span
  | [] => [⟨start, stop⟩]
  | t :: rest => ⟨start, t.span.start⟩ :: gapsBetween t.span.stop stop rest

section

variable {source : String} {c : Char} {before piece more after : List Char}

theorem IsGap.empty {k : Nat} (hk : k ≤ source.toList.length) : IsGap source ⟨k, k⟩ := by
  refine ⟨Int.le_refl _, by simpa using hk, ?_⟩
  simpa [Span.textIn] using Gap.nil

theorem IsGap.eq_of_not {start stop : Int} (h : IsGap source ⟨start, stop⟩)
    (hnot : ∀ stop : Int, start < stop → ¬ IsGap source ⟨start, stop⟩) : stop = start := by
  refine Int.le_antisymm (Int.not_lt.mp fun hlt => hnot stop hlt h) h.start_le

theorem textIn_natCast (source : String) (a k : Nat) :
    (Span.textIn ⟨a, (a + k : Nat)⟩ source).toList = (source.toList.drop a).take k := by
  have hlength : ((a + k : Nat) - a : Int).toNat = k := by omega
  rw [Span.textIn, String.toList_ofList, hlength, Int.toNat_natCast]

/-- A piece that is no token goes before what is a gap already. -/
theorem Gap.of_piece? {cs rest : List Char} (hafter : after = cs ++ rest)
    (h : piece? c (more ++ after) = some (.gap, more.length)) (hcs : Gap rest cs) :
    Gap rest (c :: (more ++ cs)) := by
  unfold piece? at h
  split_ifs at h with hblank hcomment
  · obtain ⟨-, hlength⟩ := Prod.mk.inj (Option.some.inj h)
    obtain rfl := List.length_eq_zero_iff.mp hlength.symm
    exact .blank (by simpa [or_assoc] using hblank) hcs
  · obtain ⟨-, hlength⟩ := Prod.mk.inj (Option.some.inj h)
    obtain ⟨hall, hstop⟩ := stop_of_takeWhile (takeWhile_eq_of_length hlength)
    have hline : '\n' ∉ more := fun hmem => by simpa using hall _ hmem
    have hend : ∀ d ∈ (cs ++ rest).head?, d = '\n' := by
      intro d hd
      rw [hafter, Option.mem_def.mp hd] at hstop
      simpa using hstop
    simp only [startsComment, Bool.or_eq_true, Bool.and_eq_true, beq_iff_eq] at hcomment
    rcases hcomment with rfl | ⟨rfl, hslash⟩
    · exact Gap.comment (.inl rfl) hline hend hcs
    · cases more with
      | nil =>
        rw [List.nil_append] at hslash
        simp [hslash] at hstop
      | cons d more =>
        obtain rfl : d = '/' := by simpa using hslash
        exact Gap.comment (.inr rfl) (fun hmem => hline (.tail _ hmem)) hend hcs
  · obtain ⟨⟨l, n⟩, -, heq⟩ := Option.map_eq_some_iff.mp h
    cases heq

/-- A gap that begins right after a piece that is no token begins with that piece as well. -/
theorem IsGap.of_piece? (hsource : source.toList = before ++ (c :: more ++ after))
    (h : piece? c (more ++ after) = some (.gap, more.length)) {stop : Int}
    (hgap : IsGap source ⟨(before.length + (c :: more).length : Nat), stop⟩) :
    IsGap source ⟨before.length, stop⟩ := by
  obtain ⟨hle, hstop, hgap⟩ := hgap
  dsimp only at hle hstop hgap
  obtain ⟨k, rfl⟩ : ∃ k : Nat, stop = (before.length + (c :: more).length + k : Nat) :=
    ⟨(stop - (before.length + (c :: more).length : Nat)).toNat, by omega⟩
  have hdrop : source.toList.drop (before.length + (c :: more).length) = after := by
    rw [hsource, ← List.append_assoc, ← List.length_append, List.drop_left]
  rw [textIn_natCast, Int.toNat_natCast, ← List.drop_drop, hdrop] at hgap
  refine ⟨by dsimp only; omega, hstop, ?_⟩
  have hall := Gap.of_piece? (List.take_append_drop k after).symm h hgap
  rw [Int.toNat_natCast, ← List.drop_drop, hdrop, Nat.add_assoc, textIn_natCast, hsource,
    List.drop_left, List.take_length_add_append]
  exact hall

/-- A gap that is not empty begins with a piece that is no token. -/
theorem Gap.exists_piece? {cs rest : List Char} (h : Gap rest (c :: cs)) : ∃ more cs',
    cs = more ++ cs' ∧ piece? c (cs ++ rest) = some (.gap, more.length) ∧ Gap rest cs' := by
  generalize hfull : c :: cs = full at h
  cases h with
  | nil => cases hfull
  | @blank d cs' hd h =>
    obtain ⟨rfl, rfl⟩ := List.cons.inj hfull
    have hblank : (c == ' ' || c == '\t' || c == '\r' || c == '\n') = true := by
      simpa [or_assoc] using hd
    exact ⟨[], cs, rfl, if_pos hblank, h⟩
  | @comment mark body cs' hmark hbody hend h =>
    have hline : ∀ d ∈ body, (d != '\n') = true := by
      intro d hd
      rw [bne_iff_ne]
      rintro rfl
      exact hbody hd
    have hstop : (cs' ++ rest).head?.any (· != '\n') = false := by
      cases hnext : (cs' ++ rest).head? with
      | none => rfl
      | some d => simp [hend d hnext]
    rcases hmark with rfl | rfl
    · obtain ⟨rfl, rfl⟩ := List.cons.inj hfull
      refine ⟨body, cs', rfl, ?_, h⟩
      simp [piece?, startsComment, List.append_assoc, takeWhile_of_stop hline hstop]
    · obtain ⟨rfl, rfl⟩ := List.cons.inj hfull
      refine ⟨'/' :: body, cs', rfl, ?_, h⟩
      simp [piece?, startsComment, List.append_assoc, takeWhile_of_stop hline hstop]

theorem IsGap.exists_piece? (hsource : source.toList = before ++ c :: after) {stop : Int}
    (hgap : IsGap source ⟨before.length, stop⟩) (hlt : before.length < stop) :
    ∃ more, piece? c after = some (.gap, more.length) ∧
      IsGap source ⟨(before.length + (c :: more).length : Nat), stop⟩ := by
  obtain ⟨-, hstop, hgap⟩ := hgap
  dsimp only at hstop hgap
  obtain ⟨k, rfl⟩ : ∃ k : Nat, stop = (before.length + (k + 1) : Nat) :=
    ⟨(stop - before.length).toNat - 1, by omega⟩
  have hk : k ≤ after.length := by
    rw [hsource, List.length_append, List.length_cons] at hstop
    omega
  rw [textIn_natCast, Int.toNat_natCast, ← List.drop_drop, hsource, List.drop_left,
    List.take_succ_cons, List.drop_succ_cons] at hgap
  obtain ⟨more, cs, hcs, hpiece, hrest⟩ := hgap.exists_piece?
  rw [List.take_append_drop] at hpiece
  have hlength := congrArg List.length hcs
  rw [List.length_take_of_le hk, List.length_append] at hlength
  have hafter : source.toList = (before ++ c :: more) ++ (cs ++ after.drop k) := by
    rw [hsource, List.append_assoc, List.cons_append, ← List.append_assoc more, ← hcs,
      List.take_append_drop]
  have hbefore : (before ++ c :: more).length = before.length + (c :: more).length := by simp
  refine ⟨more, hpiece, ⟨?_, hstop, ?_⟩⟩
  · dsimp only
    rw [List.length_cons]
    omega
  · have hspan : (before.length + (k + 1) : Nat) =
        before.length + (c :: more).length + cs.length := by
      rw [List.length_cons]
      omega
    rw [hspan, textIn_natCast, Int.toNat_natCast, ← List.drop_drop, hafter, ← hbefore,
      List.drop_left, List.take_left, List.drop_left]
    exact hrest

theorem gapsBetween_mono {a b stop : Int} (hmono : ∀ stop, IsGap source ⟨b, stop⟩ →
    IsGap source ⟨a, stop⟩) {tokens : List Token}
    (h : ∀ s ∈ gapsBetween b stop tokens, IsGap source s) :
    ∀ s ∈ gapsBetween a stop tokens, IsGap source s := by
  cases tokens <;>
  · obtain ⟨hfirst, hrest⟩ := List.forall_mem_cons.mp h
    exact List.forall_mem_cons.mpr ⟨hmono _ hfirst, hrest⟩

end

/-! ## Tokens alone -/

/-- The text is one token and nothing else. -/
def IsToken (l : Lexeme) (s : String) : Prop :=
  scan s = ([⟨l, ⟨0, s.toList.length⟩, 1⟩], none)

/-- The token is what its own characters are, and they are all that belongs to it. -/
structure Separate (source : String) (t : Token) : Prop where
  inside : t.span.Inside ⟨0, source.toList.length⟩
  no_gap : ∀ stop : Int, t.span.start < stop → ¬ IsGap source ⟨t.span.start, stop⟩
  alone : IsToken t.lexeme (t.span.textIn source)
  longest : ∀ stop : Int, t.span.stop < stop → stop ≤ source.toList.length →
    ∀ l, ¬ IsToken l (Span.textIn ⟨t.span.start, stop⟩ source)
  line_eq : t.line = 1 + (source.toList.take t.span.start.toNat).count '\n'

section

variable {source : String} {c : Char} {l : Lexeme} {p : Piece} {before more after : List Char}

/-- Fewer of the characters after a piece end it as well. -/
theorem agrees_take (p : Piece) (last : Char) (after : List Char) (n : Nat) :
    Agrees p last after (after.take n) := by
  have hhead {q : Char → Bool} (h : (after.take n).head?.any q = true) :
      (after.take n).head? = after.head? := by
    cases n with
    | zero => cases h
    | succ n => rw [List.head?_take, if_neg (Nat.succ_ne_zero n)]
  refine ⟨fun h => hhead h ▸ h, fun _ h => hhead h ▸ h, fun _ h => hhead h, fun h => hhead h ▸ h,
    fun d m heq hd => ⟨d, m ++ after.drop n, ?_, hd⟩, fun m heq => ⟨m ++ after.drop n, ?_⟩⟩
  · rw [← List.cons_append, ← List.cons_append, ← heq, List.take_append_drop]
  · rw [← List.cons_append, ← List.cons_append, ← heq, List.take_append_drop]

theorem piece?_take (h : piece? c (more ++ after) = some (p, more.length)) (n : Nat) :
    piece? c (more ++ after.take n) = some (p, more.length) :=
  piece?_congr (agrees_take p _ after n) (List.getLast?_eq_some_getLast (List.cons_ne_nil c more)) h

/-- The first token of a text that begins with one. -/
theorem scan_head (h : piece? c (more ++ after) = some (.lexeme l, more.length)) :
    (scan (String.ofList (c :: (more ++ after)))).1.head? =
      some ⟨l, ⟨0, (more.length + 1 : Nat)⟩, 1⟩ := by
  rw [scan, String.toList_ofList, scanFrom, h]
  simp [Int.add_comm]

theorem isToken_of_piece? (h : piece? c more = some (.lexeme l, more.length)) :
    IsToken l (String.ofList (c :: more)) := by
  have hcut : Cut (c :: (more ++ [])) [(.lexeme l, c :: more)] [] :=
    .piece (by rwa [List.append_nil]) .done
  rw [List.append_nil] at hcut
  rw [IsToken, (scan_of_cut (by rwa [String.toList_ofList])).1 rfl, String.toList_ofList]
  simp [Pieces.tokens]

theorem IsToken.unique {l l' : Lexeme} {s : String} (h : IsToken l s) (h' : IsToken l' s) :
    l = l' := by
  rw [IsToken, h] at h'
  simpa using h'

/-- At most one separate token begins at an offset. -/
theorem Separate.unique {t u : Token} (ht : Separate source t) (hu : Separate source u)
    (hstart : t.span.start = u.span.start) : t = u := by
  obtain ⟨l, ⟨start, stop⟩, line⟩ := t
  obtain ⟨l', ⟨start', stop'⟩, line'⟩ := u
  obtain rfl : start = start' := hstart
  have hstop : stop = stop' := by
    rcases Int.lt_trichotomy stop stop' with hlt | heq | hgt
    · exact absurd hu.alone (ht.longest stop' hlt hu.inside.stop l')
    · exact heq
    · exact absurd ht.alone (hu.longest stop hgt ht.inside.stop l)
  subst hstop
  obtain rfl : l = l' := ht.alone.unique hu.alone
  obtain rfl : line = line' := ht.line_eq.trans hu.line_eq.symm
  rfl

/-- A token that a piece of the text makes is separate. -/
theorem separate_of_piece? (hsource : source.toList = before ++ (c :: more ++ after))
    (h : piece? c (more ++ after) = some (.lexeme l, more.length)) :
    Separate source
      ⟨l, ⟨before.length, (before.length + (c :: more).length : Nat)⟩,
        1 + before.count '\n'⟩ := by
  have htext (k : Nat) : (Span.textIn ⟨before.length,
      (before.length + ((c :: more).length + k) : Nat)⟩ source).toList =
        c :: (more ++ after.take k) := by
    rw [textIn_natCast, hsource, List.drop_left, List.take_length_add_append, List.cons_append]
  refine ⟨⟨by dsimp only; omega, ?_, ?_⟩, fun stop hstop hgap => ?_, ?_,
    fun stop hstop hle l' hl' => ?_, ?_⟩
  · dsimp only
    rw [List.length_cons]
    omega
  · rw [hsource, List.length_append, List.length_append]
    dsimp only
    omega
  · have hsource' : source.toList = before ++ c :: (more ++ after) := hsource
    obtain ⟨more', hpiece, -⟩ := hgap.exists_piece? hsource' hstop
    rw [h] at hpiece
    cases hpiece
  · have hself : Span.textIn ⟨before.length, (before.length + (c :: more).length : Nat)⟩ source =
        String.ofList (c :: more) := by
      rw [← String.toList_inj, String.toList_ofList]
      simpa using htext 0
    rw [hself]
    exact isToken_of_piece? (by simpa using piece?_take h 0)
  · dsimp only at hstop hl'
    obtain ⟨k, rfl⟩ : ∃ k : Nat, stop = (before.length + ((c :: more).length + k) : Nat) :=
      ⟨(stop - (before.length + (c :: more).length : Nat)).toNat, by omega⟩
    have hlength : (after.take k).length = k := by
      rw [List.length_take]
      rw [hsource, List.length_append, List.length_append] at hle
      omega
    have hhead := scan_head (piece?_take h k)
    rw [← htext k, String.ofList_toList, hl', htext k, List.head?_cons, Option.some.injEq,
      Token.mk.injEq, Span.mk.injEq, List.length_cons, List.length_append, hlength] at hhead
    omega
  · simp [hsource]

end

/-! ## Where no piece begins -/

/-- At the character neither a token nor a gap begins. -/
structure Stuck (source : String) (i : Illegal) : Prop where
  here : source.toList[i.offset]? = some i.character
  no_token : ∀ stop : Int, i.offset < stop → stop ≤ source.toList.length →
    ∀ l, ¬ IsToken l (Span.textIn ⟨i.offset, stop⟩ source)
  no_gap : ∀ stop : Int, i.offset < stop → ¬ IsGap source ⟨i.offset, stop⟩

section

variable {source : String} {c : Char} {before more after : List Char}

theorem symbol?_isSome (c : Char) (rest rest' : List Char) :
    (symbol? c rest).isSome = (symbol? c rest').isSome := by
  have hdot (rest : List Char) : (symbol? '.' rest).isSome = true := by
    simp only [symbol?]
    split <;> rfl
  by_cases hc : c = '.'
  · rw [hc, hdot, hdot]
  · rw [symbol?_of_ne hc rest rest']

/-- But for strings, the first character tells whether a token begins. -/
theorem lexeme?_isSome (hquote : c ≠ '"') (rest : List Char) : (lexeme? c rest).isSome =
    (Text.isDigit c || isNameStart c || isOperatorChar c || (symbol? c []).isSome) := by
  have hminus : isOperatorChar '-' = true := by simp [isOperatorChar_eq]
  have hequals : isOperatorChar '=' = true := by simp [isOperatorChar_eq]
  unfold lexeme?
  split_ifs <;> simp_all [symbol?_isSome c rest []]

theorem lexeme?_quote (rest : List Char) : lexeme? '"' rest =
    (stringRest rest).map fun (s, n) => (.string (String.ofList s), n) := by
  simp [lexeme?, Text.isDigit, Text.digitValue?]

theorem lexeme?_isSome_append (h : (lexeme? c more).isSome = true) (after : List Char) :
    (lexeme? c (more ++ after)).isSome = true := by
  by_cases hquote : c = '"'
  · subst hquote
    rw [lexeme?_quote, Option.isSome_map] at h ⊢
    obtain ⟨⟨s, n⟩, hs⟩ := Option.isSome_iff_exists.mp h
    have hlength : (more.take n).length = n := List.length_take_of_le (stringRest_length hs)
    rw [← List.take_append_drop n more] at hs ⊢
    have hlast : stringRest (more.take n ++ more.drop n) = some (s, (more.take n).length) := by
      rw [hs, hlength]
    rw [List.append_assoc, stringRest_congr hlast]
    rfl
  · rwa [lexeme?_isSome hquote] at h ⊢

/-- Where a piece begins, one begins whatever comes after it. -/
theorem piece?_isSome_append (h : (piece? c more).isSome = true) (after : List Char) :
    (piece? c (more ++ after)).isSome = true := by
  have hcomment (hc : startsComment c more = true) : startsComment c (more ++ after) = true := by
    cases more with
    | nil => simp_all [startsComment]
    | cons d more => exact hc
  unfold piece? at h ⊢
  split_ifs with hblank hcomment'
  · rfl
  · rfl
  · rw [if_neg hblank, if_neg (mt hcomment hcomment'), Option.isSome_map] at h
    rw [Option.isSome_map, lexeme?_isSome_append h]

theorem stuck_of_piece? (hsource : source.toList = before ++ c :: after)
    (h : piece? c after = none) : Stuck source ⟨c, before.length⟩ := by
  refine ⟨by simp [hsource], fun stop hstop hle l hl => ?_, fun stop hstop hgap => ?_⟩
  · dsimp only at hstop hl
    obtain ⟨k, rfl⟩ : ∃ k : Nat, stop = (before.length + (k + 1) : Nat) :=
      ⟨(stop - before.length).toNat - 1, by omega⟩
    have htext : Span.textIn ⟨before.length, (before.length + (k + 1) : Nat)⟩ source =
        String.ofList (c :: after.take k) := by
      rw [← String.toList_inj, textIn_natCast, hsource, List.drop_left, List.take_succ_cons,
        String.toList_ofList]
    have hnone : piece? c (after.take k) = none := by
      cases hpiece : piece? c (after.take k) with
      | none => rfl
      | some found =>
        have hlonger := piece?_isSome_append (Option.isSome_of_mem hpiece) (after.drop k)
        rw [List.take_append_drop, h] at hlonger
        cases hlonger
    rw [htext, IsToken, scan, String.toList_ofList, scanFrom, hnone] at hl
    cases congrArg Prod.fst hl
  · obtain ⟨more, hpiece, -⟩ := hgap.exists_piece? hsource hstop
    rw [h] at hpiece
    cases hpiece

end

/-! ## Coverings -/

/-- Separate tokens, one after another and nothing but gaps between them, cover the text up to an
offset. -/
structure Covers (source : String) (tokens : List Token) (stop : Int) : Prop where
  order : tokens.Pairwise (·.span.Before ·.span)
  gaps : ∀ s ∈ gapsBetween 0 stop tokens, IsGap source s
  separate : ∀ t ∈ tokens, Separate source t

/-- No covering goes further, and every other one is a beginning of this one. -/
structure CoversMost (source : String) (tokens : List Token) (stop : Int) : Prop
    extends Covers source tokens stop where
  furthest : ∀ tokens' stop', Covers source tokens' stop' → tokens' <+: tokens ∧ stop' ≤ stop

section

variable {source : String} {before text rest : List Char} {pieces : Pieces}

theorem line_append (before piece : List Char) : 1 + (before ++ piece).count '\n' =
    1 + before.count '\n' + piece.count '\n' := by
  rw [List.count_append, Nat.add_assoc]

/-- The tokens among the pieces of a text cover it as far as the pieces go. -/
theorem covers_of_cut (hcut : Cut text pieces rest) (hsource : source.toList = before ++ text) :
    (∀ s ∈ gapsBetween before.length (before.length + pieces.chars.length : Nat)
        (pieces.tokens (1 + before.count '\n') before.length), IsGap source s) ∧
      ∀ t ∈ pieces.tokens (1 + before.count '\n') before.length, Separate source t := by
  induction hcut generalizing before with
  | done =>
    exact ⟨List.forall_mem_singleton.mpr (IsGap.empty (by simp [hsource])), fun t ht => (nomatch ht)⟩
  | @piece c more after rest p pieces hpiece _ ih =>
    have hsource' : source.toList = before ++ (c :: more ++ after) := hsource
    have hafter : source.toList = (before ++ c :: more) ++ after := by simp [hsource]
    obtain ⟨hgaps, hseparate⟩ := ih hafter
    rw [line_append, List.length_append] at hgaps hseparate
    rw [Pieces.chars_cons, List.length_append, ← Nat.add_assoc]
    cases p with
    | gap => exact ⟨gapsBetween_mono (fun _ => IsGap.of_piece? hsource' hpiece) hgaps, hseparate⟩
    | lexeme l =>
      have hempty : IsGap source ⟨before.length, before.length⟩ := .empty (by simp [hsource])
      exact ⟨List.forall_mem_cons.mpr ⟨hempty, hgaps⟩,
        List.forall_mem_cons.mpr ⟨separate_of_piece? hsource' hpiece, hseparate⟩⟩

/-- A piece that is no token comes before what covers the text from there on. -/
theorem gapsBetween_of_piece? {c : Char} {more after : List Char}
    (hsource : source.toList = before ++ (c :: more ++ after))
    (h : piece? c (more ++ after) = some (.gap, more.length)) {tokens : List Token} {stop : Int}
    (hgaps : ∀ s ∈ gapsBetween before.length stop tokens, IsGap source s)
    (hseparate : ∀ t ∈ tokens, Separate source t) :
    (tokens = [] ∧ stop = before.length) ∨
      ∀ s ∈ gapsBetween (before.length + (c :: more).length : Nat) stop tokens,
        IsGap source s := by
  have hlater (stop : Int) (hgap : IsGap source ⟨before.length, stop⟩)
      (hlt : before.length < stop) :
      IsGap source ⟨(before.length + (c :: more).length : Nat), stop⟩ := by
    have hsource' : source.toList = before ++ c :: (more ++ after) := hsource
    obtain ⟨more', hpiece, hgap'⟩ := hgap.exists_piece? hsource' hlt
    rw [h, Option.some.injEq, Prod.mk.injEq] at hpiece
    rwa [List.length_cons, ← hpiece.2] at hgap'
  cases tokens with
  | nil =>
    have hgap := hgaps _ List.mem_cons_self
    rcases Int.lt_or_eq_of_le hgap.start_le with hlt | heq
    · exact .inr (List.forall_mem_singleton.mpr (hlater stop hgap hlt))
    · exact .inl ⟨rfl, heq.symm⟩
  | cons t ts =>
    obtain ⟨hgap, hgaps⟩ := List.forall_mem_cons.mp hgaps
    refine .inr (List.forall_mem_cons.mpr ⟨hlater _ hgap ?_, hgaps⟩)
    -- the token cannot begin where the piece does
    refine Int.lt_iff_le_and_ne.mpr ⟨hgap.start_le, fun heq => ?_⟩
    have hpiece : IsGap source ⟨before.length, (before.length + (c :: more).length : Nat)⟩ :=
      .of_piece? hsource h (.empty (by simp [hsource]))
    refine (hseparate t List.mem_cons_self).no_gap (before.length + (c :: more).length : Nat) ?_ ?_
    · rw [← heq, List.length_cons]
      omega
    · rwa [← heq]

/-- Nothing covers the text behind its pieces. -/
theorem eq_nil_of_rest (hrest : ∀ c after, rest = c :: after → piece? c after = none)
    (hsource : source.toList = before ++ rest) {tokens : List Token} {stop : Int}
    (hgaps : ∀ s ∈ gapsBetween before.length stop tokens, IsGap source s)
    (hseparate : ∀ t ∈ tokens, Separate source t) : tokens = [] ∧ stop ≤ before.length := by
  cases rest with
  | nil =>
    have hlength : source.toList.length = before.length := by simp [hsource]
    cases tokens with
    | nil => exact ⟨rfl, hlength ▸ (hgaps _ List.mem_cons_self).stop_le⟩
    | cons t ts =>
      have hle := (hgaps _ List.mem_cons_self).start_le
      have hinside := (hseparate t List.mem_cons_self).inside
      have hlt := Int.lt_of_lt_of_le hinside.proper hinside.stop
      dsimp only at hle hlt
      omega
  | cons c after =>
    have hstuck := stuck_of_piece? hsource (hrest c after rfl)
    have hfirst (stop : Int) (hgap : IsGap source ⟨before.length, stop⟩) : stop = before.length :=
      hgap.eq_of_not hstuck.no_gap
    cases tokens with
    | nil => exact ⟨rfl, Int.le_of_eq (hfirst _ (hgaps _ List.mem_cons_self))⟩
    | cons t ts =>
      have ht := hseparate t List.mem_cons_self
      have hstart := hfirst _ (hgaps _ List.mem_cons_self)
      have halone := ht.alone
      obtain ⟨l, ⟨start, stop'⟩, line⟩ := t
      obtain rfl : start = before.length := hstart
      exact absurd halone (hstuck.no_token stop' ht.inside.proper ht.inside.stop l)

/-- What covers a text behind its first characters goes at most as far as its pieces. -/
theorem prefix_of_cut (hcut : Cut text pieces rest)
    (hrest : ∀ c after, rest = c :: after → piece? c after = none)
    (hsource : source.toList = before ++ text) {tokens : List Token} {stop : Int}
    (hgaps : ∀ s ∈ gapsBetween before.length stop tokens, IsGap source s)
    (hseparate : ∀ t ∈ tokens, Separate source t) :
    tokens <+: pieces.tokens (1 + before.count '\n') before.length ∧
      stop ≤ (before.length + pieces.chars.length : Nat) := by
  induction hcut generalizing before tokens with
  | done =>
    obtain ⟨rfl, hstop⟩ := eq_nil_of_rest hrest hsource hgaps hseparate
    exact ⟨List.prefix_rfl, hstop⟩
  | @piece c more after rest p pieces hpiece _ ih =>
    have hsource' : source.toList = before ++ (c :: more ++ after) := hsource
    have hafter : source.toList = (before ++ c :: more) ++ after := by simp [hsource]
    have ih' := @ih (before ++ c :: more) hrest hafter
    rw [line_append, List.length_append] at ih'
    rw [Pieces.chars_cons, List.length_append, ← Nat.add_assoc]
    cases p with
    | gap =>
      rcases gapsBetween_of_piece? hsource' hpiece hgaps hseparate with ⟨rfl, rfl⟩ | hgaps
      · exact ⟨List.nil_prefix, by omega⟩
      · exact ih' hgaps hseparate
    | lexeme l =>
      have hfirst := separate_of_piece? hsource' hpiece
      cases tokens with
      | nil =>
        refine ⟨List.nil_prefix, ?_⟩
        have hstop := (hgaps _ List.mem_cons_self).eq_of_not hfirst.no_gap
        omega
      | cons t ts =>
        obtain ⟨hgap, hgaps⟩ := List.forall_mem_cons.mp hgaps
        obtain ⟨ht, hlater⟩ := List.forall_mem_cons.mp hseparate
        obtain rfl := ht.unique hfirst (hgap.eq_of_not hfirst.no_gap)
        obtain ⟨hbegins, hstop⟩ := ih' hgaps hlater
        exact ⟨(List.prefix_cons_inj _).mpr hbegins, hstop⟩

theorem coversMost_of_cut (hcut : Cut source.toList pieces rest)
    (hrest : ∀ c after, rest = c :: after → piece? c after = none) :
    CoversMost source (pieces.tokens 1 0) pieces.chars.length := by
  have hsource : source.toList = [] ++ source.toList := rfl
  obtain ⟨hgaps, hseparate⟩ := covers_of_cut hcut hsource
  have horder := (stands_of_cut hcut hsource 1).2
  rw [List.length_nil, Nat.zero_add] at hgaps
  refine ⟨⟨horder, hgaps, hseparate⟩, fun tokens stop hother => ?_⟩
  obtain ⟨hbegins, hstop⟩ := prefix_of_cut hcut hrest hsource hother.gaps hother.separate
  rw [List.length_nil, Nat.zero_add] at hstop
  exact ⟨hbegins, hstop⟩

/-- The tokens of a text cover it to its end, or up to the first character where the covering
cannot go on. -/
theorem scan_covers (source : String) :
    match scan source with
    | (tokens, none) => CoversMost source tokens source.toList.length
    | (tokens, some illegal) =>
      CoversMost source tokens illegal.offset ∧ Stuck source illegal := by
  obtain ⟨pieces, rest, hcut, hrest⟩ := exists_cut source.toList
  rcases hrest with rfl | ⟨c, after, rfl, hpiece⟩
  · rw [(scan_of_cut hcut).1 rfl]
    have hlength : source.toList.length = pieces.chars.length := by
      rw [hcut.text_eq, List.append_nil]
    rw [hlength]
    exact coversMost_of_cut hcut fun c after heq => (nomatch heq)
  · rw [(scan_of_cut hcut).2 c after rfl hpiece]
    refine ⟨coversMost_of_cut hcut ?_, stuck_of_piece? hcut.text_eq hpiece⟩
    rintro c' after' heq
    obtain ⟨rfl, rfl⟩ := List.cons.inj heq
    exact hpiece

end

end RowSchema.Token
