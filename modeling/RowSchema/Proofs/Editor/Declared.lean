import RowSchema.Editor.Completion
import RowSchema.Editor.Hover
import RowSchema.Proofs.Editor.Search
import RowSchema.Proofs.Grammar.Headings
import RowSchema.Proofs.Reader.Replaced
import RowSchema.Proofs.Schema.Spacing

/-! # Declared records in the editor

The search for names of records finds the records that a text declares, as far as comments do not
get in its way. What it finds is offered where a type may come next, and something is shown for
it. -/

namespace RowSchema

open Grammar Token

namespace Editor

open Text

section

variable {c : Char} {more rest after text : List Char} {l : Lexeme} {n : Nat} {pieces : Pieces}

theorem isWordChar_of_gap (h : piece? c rest = some (.gap, n)) : isWordChar c = false := by
  have hc := mem_of_gap h
  simp only [List.mem_cons, List.not_mem_nil, or_false] at hc
  rcases hc with rfl | rfl | rfl | rfl | rfl | rfl <;> decide

/-- What comes first after blanks between tokens is part of no word. -/
theorem isWordChar_of_gaps (h : Cut text pieces rest) (hgaps : pieces.lexemes = []) :
    (pieces.chars.dropWhile isBlank).head?.any isWordChar = false := by
  induction h with
  | done => rfl
  | @piece c more after rest p pieces hpiece _ ih =>
    rcases piece?_cases hpiece with ⟨rfl, hc, hlength⟩ | ⟨rfl, hc, -⟩ | ⟨l, rfl, -⟩
    · obtain rfl := List.length_eq_zero_iff.mp hlength
      have hblank : isBlank c = true := by
        simp only [List.mem_cons, List.not_mem_nil, or_false] at hc
        rcases hc with rfl | rfl | rfl | rfl <;> decide
      simpa [hblank] using ih hgaps
    · have hblank : isBlank c = false := by
        simp only [List.mem_cons, List.not_mem_nil, or_false] at hc
        rcases hc with rfl | rfl <;> decide
      simpa [hblank] using isWordChar_of_gap hpiece
    · cases hgaps

/-- A text whose first token is a sign that comes after the name of a record does not go on with
a word. -/
theorem isWordChar_of_sign (h : Cut text pieces rest) (hl : l ∈ pieces.lexemes.head?)
    (hsign : l = .colon ∨ l = .openBrace) : text.head?.any isWordChar = false := by
  cases h with
  | done => cases hl
  | @piece c more after _ p pieces hpiece _ =>
    cases p with
    | gap => simpa using isWordChar_of_gap hpiece
    | lexeme l' =>
      obtain rfl : l' = l := Option.some.inj hl
      have hc : c = ':' ∨ c = '\x7b' := by
        rcases lexeme?_cases (lexeme?_of_piece? hpiece) with hfree | rfl | ⟨hmem, -⟩ | ⟨-, hname, -⟩
        · rcases hsign with rfl | rfl <;> exact hfree.elim
        · simp at hsign
        · refine hsign.imp ?_ ?_ <;> (rintro rfl; simpa [signs] using hmem)
        · unfold nameLexeme at hname
          split at hname <;> (subst hname; simp at hsign)
      rcases hc with rfl | rfl <;> simp <;> decide

/-- Before a name, a text that ends as attributes and records do does not end within a word. -/
theorem endsInWord_of_final {d : Char} (h : Cut text pieces (d :: rest))
    (hd : isNameStart d = true)
    (hfinal : ∀ l ∈ pieces.lexemes.getLast?, l.content.1.isFinal = true) :
    endsInWord false pieces.chars = false := by
  rcases List.eq_nil_or_concat pieces with rfl | ⟨front, ⟨p, cs⟩, rfl⟩
  · rfl
  · rw [List.concat_eq_append] at h hfinal ⊢
    obtain ⟨middle, -, hlast⟩ := h.split
    cases hlast with
    | @piece c more after _ _ _ hpiece hdone =>
      cases hdone with
      | done =>
        rw [Pieces.chars_append, Pieces.chars_cons, Pieces.chars_nil, List.append_nil,
          endsInWord_append _ (List.cons_ne_nil c more)]
        cases p with
        | gap =>
          rcases piece?_cases hpiece with ⟨-, -, hlength⟩ | ⟨-, -, hlength⟩ | ⟨l, hp, -⟩
          · obtain rfl := List.length_eq_zero_iff.mp hlength
            simpa using isWordChar_of_gap hpiece
          · -- a comment goes on to the end of its line
            have hstop := (stop_of_takeWhile (takeWhile_eq_of_length hlength.symm)).2
            obtain rfl : d = '\n' := by simpa using hstop
            cases hd
          · cases hp
        | lexeme l =>
          have hlfinal : l.content.1.isFinal = true := hfinal l (by simp [Pieces.lexemes])
          rcases lexeme?_cases (lexeme?_of_piece? hpiece) with hfree | rfl | ⟨hsign, hlength⟩ |
            ⟨-, -, hlength⟩
          · cases l <;> first | exact hfree.elim | cases hlfinal
          · cases hlfinal
          · obtain rfl := List.length_eq_zero_iff.mp hlength
            have hc : c = '\x7d' ∨ c = ')' := by
              simp only [signs, List.mem_cons, Prod.mk.injEq, List.not_mem_nil, or_false] at hsign
              rcases hsign with ⟨rfl, rfl⟩ | ⟨rfl, rfl⟩ | ⟨rfl, rfl⟩ | ⟨rfl, rfl⟩ | ⟨rfl, rfl⟩ |
                ⟨rfl, rfl⟩ | ⟨rfl, rfl⟩ | ⟨rfl, rfl⟩ | ⟨rfl, rfl⟩ | ⟨rfl, rfl⟩ | ⟨rfl, rfl⟩ |
                ⟨rfl, rfl⟩
              all_goals first | exact .inl rfl | exact .inr rfl | cases hlfinal
            rcases hc with rfl | rfl <;> decide
          · have hstop := (stop_of_takeWhile (takeWhile_eq_of_length hlength.symm)).2
            have hname : isNameChar d = false := hstop
            rw [isNameChar_of_isNameStart hd] at hname
            cases hname

end

/-! ## Headings in the text -/

theorem mem_recordKeywords_iff {k : Keyword} :
    k ∈ recordKeywords ↔ (Terminal.keyword k).isRecordKeyword = true := by
  cases k <;> decide

/-- The keyword and the name of a record are found in the pieces of a text, unless a comment keeps
them apart or takes the keyword for a name. -/
theorem mem_hits_of_cut {source : String} {before gaps after : Pieces} {k : Keyword}
    {name : String} {word chars : List Char} {l : Lexeme} {n : Nat}
    (h : Cut source.toList (before ++ (.lexeme (.keyword k), word) ::
      (gaps ++ (.lexeme (.word name), chars) :: after)) [])
    (hk : k ∈ recordKeywords)
    (hfinal : ∀ l ∈ before.lexemes.getLast?, l.content.1.isFinal = true)
    (hgaps : gaps.lexemes = []) (hl : l ∈ after.lexemes.head?)
    (hsign : l = .colon ∨ l = .openBrace) (hdangling : Dangling n before.chars) :
    (before.chars.length, name) ∈ hits source ↔
      Even n ∧ ∀ c ∈ gaps.chars, isBlank c = true := by
  have htext := h.text_eq
  obtain ⟨text, hbefore, hrest⟩ := h.split
  cases hrest with
  | @piece c more text _ _ _ hkeyword hrest =>
    obtain ⟨text', hgap, hrest⟩ := hrest.split
    cases hrest with
    | @piece c' more' text'' _ _ _ hname hafter =>
      obtain ⟨hc, -, hstop⟩ := stop_of_word hkeyword (.inl ⟨k, rfl⟩)
      obtain ⟨hc', hmore', -⟩ := stop_of_word hname (.inr ⟨name, rfl⟩)
      have hkeywordChars : k.text.toList = c :: more := by
        rw [← show String.ofList (c :: more) = k.text from writes_of_piece? hkeyword,
          String.toList_ofList]
      have hnameChars : name.toList = c' :: more' := by
        rw [← show String.ofList (c' :: more') = name from writes_of_piece? hname,
          String.toList_ofList]
      have hsource : source.toList = before.chars ++ (k.text.toList ++ (gaps.chars ++
          (name.toList ++ after.chars))) := by
        rw [htext, hkeywordChars, hnameChars]
        simp
      have hnext := isWordChar_of_sign hafter hl hsign
      rw [hafter.text_eq, List.append_nil] at hnext
      refine mem_hits_iff hsource hk (endsInWord_of_final hbefore hc hfinal) hdangling ?_
        (isWordChar_of_gaps hgap hgaps) ⟨c', more', hnameChars, hc', hmore'⟩ hnext
      -- without a gap the name would go on with the keyword
      intro hnil
      rw [hgap.text_eq, hnil, List.nil_append, List.head?_cons, Option.any_some,
        isNameChar_of_isNameStart hc'] at hstop
      cases hstop

end Editor

/-- The record begins in the text with its attributes and those two tokens, its keyword and its
name. No keyword of a record comes before that one. -/
structure Record.BeginsWith (source : String) (r : Record) (keyword name : Token) : Prop where
  scan_eq : ∃ front attributes back first stop,
    (Token.scan source).1 = front ++ (attributes ++ keyword :: name :: back) ∧
      (∀ t ∈ attributes, t.kind.isRecordKeyword = false) ∧
      (attributes ++ [keyword]).head? = some first ∧ r.span = some ⟨first.span.start, stop⟩
  keyword_eq : ∃ k ∈ Editor.recordKeywords, keyword.lexeme = .keyword k ∧ r.kind.text = k.text
  name_eq : name.lexeme = .word r.name

namespace Editor

open Text

variable {source : String} {records : List Record} {r : Record}

/-- The tokens that a record begins with, and what stands around them. -/
theorem exists_beginsWith (hread : Record.readAll source = .ok records) (hr : r ∈ records) :
    ∃ front keyword name next back k,
      Token.scan source = (front ++ keyword :: name :: next :: back, none) ∧
      r.BeginsWith source keyword name ∧ keyword.lexeme = .keyword k ∧ k ∈ recordKeywords ∧
      (∀ l ∈ (front.map Token.lexeme).getLast?, l.content.1.isFinal = true) ∧
      (next.lexeme = .colon ∨ next.lexeme = .openBrace) := by
  obtain ⟨pieces, -, hscan⟩ := Record.exists_cut_of_readAll hread
  obtain ⟨t, hleaves, rfl⟩ := (Record.readAll_eq_ok_iff hscan).mp hread
  obtain ⟨before, attributes, k, word, name, next, back, heq, hheading⟩ :=
    hasHeading_of_mem_records t hr
  rw [List.nil_append, hleaves] at heq
  obtain ⟨front, rest, htokens, rfl, hbody⟩ := List.map_eq_append_iff.mp heq
  obtain ⟨attributes, rest, rfl, rfl, hwords⟩ := List.map_eq_append_iff.mp hbody
  obtain ⟨keyword, rest, rfl, hkeyword, hwords⟩ := List.map_eq_cons_iff.mp hwords
  obtain ⟨named, rest, rfl, hname, hwords⟩ := List.map_eq_cons_iff.mp hwords
  obtain ⟨after, back, rfl, rfl, -⟩ := List.map_eq_cons_iff.mp hwords
  have hk := mem_recordKeywords_iff.mpr hheading.keyword
  have hkeywordLexeme : keyword.lexeme = .keyword k := eq_keyword (congrArg Sigma.fst hkeyword)
  have hnameLexeme : named.lexeme = .word r.name := by
    rw [← hheading.name_eq]
    obtain ⟨l, span, line⟩ := named
    cases l <;> cases hname
    rfl
  obtain ⟨stop, hspan⟩ := hheading.start_eq
  obtain ⟨first, hfirst⟩ : ∃ first, (attributes ++ [keyword]).head? = some first :=
    ⟨_, List.head?_eq_some_head (by simp)⟩
  have hstart : (hull (attributes.map label ++ [⟨.keyword k, word⟩])).start = first.span.start := by
    rw [← hkeyword, ← List.map_singleton, ← List.map_append, hull, List.head?_map, hfirst]
    rfl
  refine ⟨front ++ attributes, keyword, named, after, back, k, ?_, ⟨?_, ⟨k, hk, ?_, ?_⟩, ?_⟩, ?_,
    hk, ?_, ?_⟩
  · rw [hscan, htokens, List.append_assoc]
  · refine ⟨front, attributes, after :: back, first, stop, ?_, ?_, hfirst, ?_⟩
    · rw [hscan, htokens]
    · exact fun t ht => hheading.headless _ (List.mem_map_of_mem ht)
    · rw [hspan, hstart]
  · exact hkeywordLexeme
  · exact hheading.kind_eq
  · exact hnameLexeme
  · exact hkeywordLexeme
  · intro l hl
    rw [Option.mem_def, List.getLast?_map, Option.map_eq_some_iff] at hl
    obtain ⟨t, ht, rfl⟩ := hl
    refine hheading.closed (label t) ?_
    rw [Option.mem_def, ← List.map_append, List.getLast?_map, ht]
    rfl
  · have hkind : after.lexeme.content.1 = .colon ∨ after.lexeme.content.1 = .openBrace :=
      hheading.next_eq
    generalize after.lexeme = l at hkind ⊢
    cases l <;> simp_all [Lexeme.content]

theorem exists_hits_iff (hread : Record.readAll source = .ok records) (hr : r ∈ records) :
    ∃ keyword name n, r.BeginsWith source keyword name ∧
      Dangling n (source.toList.take keyword.span.start.toNat) ∧
      ((keyword.span.start.toNat, r.name) ∈ hits source ↔ Even n ∧
        ∀ c ∈ (Span.textIn ⟨keyword.span.stop, name.span.start⟩ source).toList,
          isBlank c = true) := by
  obtain ⟨front, keyword, name, next, back, k, hscan, hbegins, hkeyword, hk, hfinal, hnext⟩ :=
    exists_beginsWith hread hr
  obtain ⟨pieces, hcut, hpieces⟩ := Record.exists_cut_of_readAll hread
  have htokens : pieces.tokens 1 0 = front ++ keyword :: name :: next :: back :=
    congrArg Prod.fst (hpieces.symm.trans hscan)
  obtain ⟨before, word, rest, line, rfl, hfront, hwhere, hrest⟩ :=
    Pieces.exists_of_mem_middle htokens
  have hnamed : rest.tokens line (0 + before.chars.length + word.length) =
      [] ++ name :: next :: back := hrest
  obtain ⟨gaps, chars, after, line', rfl, hgaps, hname, hafter⟩ :=
    Pieces.exists_of_mem_middle hnamed
  rw [hkeyword, hbegins.name_eq] at hcut
  rw [Nat.zero_add] at hwhere hname
  have hsource : source.toList =
      (before.chars ++ word) ++ (gaps.chars ++ (chars ++ after.chars)) := by
    simpa using hcut.text_eq
  have hbefore : source.toList.take keyword.span.start.toNat = before.chars := by
    rw [hwhere, hsource, Int.toNat_natCast, List.append_assoc, List.take_left]
  obtain ⟨n, hdangling⟩ := exists_dangling before.chars
  refine ⟨keyword, name, n, hbegins, by rwa [hbefore], ?_⟩
  have hbetween :
      (Span.textIn ⟨keyword.span.stop, name.span.start⟩ source).toList = gaps.chars := by
    rw [hwhere, hname, ← List.length_append, Span.textIn_eq hsource, String.toList_ofList]
  rw [hbetween, hwhere, Int.toNat_natCast]
  refine mem_hits_of_cut hcut hk ?_ ?_ ?_ hnext hdangling
  · rw [← Pieces.map_lexeme_tokens before 1 0, hfront]
    exact hfinal
  · rw [← Pieces.map_lexeme_tokens gaps, hgaps]
    rfl
  · rw [← Pieces.map_lexeme_tokens after, hafter]
    rfl

/-! ## What the editor shows -/

theorem recordHover_isSome (hread : Record.readAll source = .ok records) (hr : r ∈ records)
    (hlength : (source.toList.length : Int) ≤ RangeError.longest) :
    (recordHover source r.name).isSome = true := by
  unfold recordHover
  cases hparse : Schema.parse {} source with
  | mk s taken =>
    cases taken with
    | error e => rfl
    | ok taken =>
      have htaken : (Schema.parse {} source).2 = .ok taken := by rw [hparse]
      obtain ⟨-, hsame⟩ := Schema.parse_of_readAll (s := {}) hread
      obtain ⟨rfl, -⟩ := (hsame taken).mp htaken
      have hmeasured : ∀ call ∈ [Schema.Call.parse source], call.IsMeasured :=
        List.forall_mem_singleton.mpr hlength
      have hrun : (Schema.run {} [.parse source]).registry.record? (.name r.name) = some r :=
        Schema.record?_of_parse htaken hr
      obtain ⟨d, t, hd⟩ := Schema.run_derives hmeasured hrun
      have hs : Schema.run {} [.parse source] = s := by
        rw [Schema.run_cons, Schema.run_nil, Schema.after, hparse]
      rw [hs] at hd
      simp [hd]

/-- Something is shown for a declared record that is found. -/
theorem hover_isSome (hread : Record.readAll source = .ok records) (hr : r ∈ records)
    (hlength : (source.toList.length : Int) ≤ RangeError.longest)
    (hfound : r.name ∈ recordNames source) : (hover source r.name).isSome = true := by
  unfold hover
  split
  · rfl
  · rfl
  · rw [if_pos (List.contains_iff_mem.mpr hfound)]
    exact recordHover_isSome hread hr hlength

/-- What is found is offered where a type may come next. -/
theorem exists_completion {line name : String}
    (hline : Context.ofLine? line.toList = some .type) (hfound : name ∈ recordNames source) :
    ∃ c ∈ completions source line, c.label = name := by
  rw [completions, hline]
  exact ⟨_, List.mem_append_right _ (List.mem_map_of_mem hfound), rfl⟩

/-- A declared record that is found is offered where a type may come next, and something is shown
for it. The keyword that it begins with is found just if nothing but blanks stands between it and
the name, and the keywords of records that the text before it ends with pair off with each other. -/
theorem finds_declared (hread : Record.readAll source = .ok records)
    (hlength : (source.toList.length : Int) ≤ RangeError.longest) (hr : r ∈ records) :
    (r.name ∈ recordNames source →
      (∀ line, Context.ofLine? line.toList = some .type →
        ∃ c ∈ completions source line, c.label = r.name) ∧
      (hover source r.name).isSome = true) ∧
    ∃ keyword name n, r.BeginsWith source keyword name ∧
      Dangling n (source.toList.take keyword.span.start.toNat) ∧
      ((keyword.span.start.toNat, r.name) ∈ hits source ↔ Even n ∧
        ∀ c ∈ (Span.textIn ⟨keyword.span.stop, name.span.start⟩ source).toList,
          isBlank c = true) ∧
      ((keyword.span.start.toNat, r.name) ∈ hits source → r.name ∈ recordNames source) := by
  obtain ⟨keyword, name, n, hbegins, hdangling, hiff⟩ := exists_hits_iff hread hr
  refine ⟨fun hfound => ⟨fun line hline => exists_completion hline hfound,
    hover_isSome hread hr hlength hfound⟩, keyword, name, n, hbegins, hdangling, hiff,
    fun hmem => ?_⟩
  rw [← map_hits]
  exact List.mem_map_of_mem hmem

/-- A record with a comment before it is offered and shown. -/
theorem finds_declared_user :
    let r : Record := { name := "User", kind := .struct, span := some ⟨9, 24⟩ }
    Record.readAll "# a user\nstruct User \x7b \x7d" = .ok [r] ∧
      (hover "# a user\nstruct User \x7b \x7d" "User").isSome = true ∧
      ∃ c ∈ completions "# a user\nstruct User \x7b \x7d" "var x:", c.label = "User" := by
  intro r
  have hread : Record.readAll "# a user\nstruct User \x7b \x7d" = .ok [r] := by
    rw [Record.readAll]
    conv in Token.scan _ => cbv
    rfl
  have hfound : r.name ∈ recordNames "# a user\nstruct User \x7b \x7d" := by
    decide
  obtain ⟨hoffered, hshown⟩ :=
    (finds_declared hread (by decide) (List.mem_singleton_self r)).1 hfound
  exact ⟨hread, hshown, hoffered "var x:" (by decide)⟩

/-- Not every declared record is found: none where a comment stands between its keyword and its
name. -/
theorem not_finds_declared : ¬ ∀ (source : String) (records : List Record) (r : Record),
    Record.readAll source = .ok records → r ∈ records → r.name ∈ recordNames source ∧
      (hover source r.name).isSome = true := by
  intro h
  have hread : Record.readAll "struct # here\nUser \x7b \x7d" =
      .ok [{ name := "User", kind := .struct, span := some ⟨0, 22⟩ }] := by
    rw [Record.readAll]
    conv in Token.scan _ => cbv
    rfl
  have hfound := (h _ _ _ hread (List.mem_singleton_self _)).1
  revert hfound
  decide

end Editor

end RowSchema
