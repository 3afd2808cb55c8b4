import RowSchema.Proofs.Grammar.Blocks
import RowSchema.Proofs.Reader.Spacing

/-! # Accessor blocks exchanged

What stands between the braces of a computed property is not read. Any other tokens may stand
there, as long as their own braces match. -/

namespace RowSchema

open Grammar Reader Token

namespace Token

/-! ## Texts behind an open brace -/

variable {text middle rest : List Char} {pieces : Pieces} {c : Char} {p : Piece} {n : Nat}

theorem lexeme?_openBrace (h : lexeme? c rest = some (.openBrace, n)) : c = '{' ∧ n = 0 := by
  rcases lexeme?_cases h with hfree | hellipsis | ⟨hsign, rfl⟩ | ⟨-, hname, -⟩
  · exact hfree.elim
  · cases hellipsis
  · exact ⟨by simpa [signs] using hsign, rfl⟩
  · unfold nameLexeme at hname
    split at hname <;> cases hname

theorem piece?_openBrace (h : piece? c rest = some (.lexeme .openBrace, n)) : c = '{' ∧ n = 0 :=
  lexeme?_openBrace (lexeme?_of_piece? h)

/-- The last piece of a text ends there as well when a line break comes after it, and so does each
of the other pieces. -/
theorem agrees_line (p : Piece) (last : Char) (middle rest : List Char) :
    Agrees p last middle (middle ++ '\n' :: rest) := by
  cases middle with
  | nil =>
    have hdigit : Text.isDigit '\n' = false := rfl
    have hname : isNameChar '\n' = false := rfl
    have hoperator : isOperatorChar '\n' = false := by simp [isOperatorChar_eq]
    constructor <;> simp [hdigit, hname, hoperator]
  | cons d more =>
    refine ⟨id, fun _ => id, fun _ _ => rfl, id, fun d' m' heq hd' => ?_, fun m' heq => ?_⟩
    · obtain ⟨rfl, hmore⟩ := List.cons.inj heq
      cases more with
      | nil =>
        obtain rfl : '\n' = d' := (List.cons.inj hmore).1
        cases hd'
      | cons e more =>
        obtain rfl : e = d' := (List.cons.inj hmore).1
        exact ⟨e, more, rfl, hd'⟩
    · obtain ⟨rfl, hmore⟩ := List.cons.inj heq
      cases more with
      | nil => exact absurd (show '\n' = '.' from (List.cons.inj hmore).1) (by decide)
      | cons e more =>
        obtain rfl : e = '.' := (List.cons.inj hmore).1
        exact ⟨more, rfl⟩

/-- A text is cut into the same pieces in front of a line break. -/
theorem Cut.before_line (h : Cut text pieces []) (rest : List Char) :
    Cut (text ++ '\n' :: rest) (pieces ++ [(.gap, ['\n'])]) rest := by
  generalize hend : ([] : List Char) = after at h
  induction h with
  | done =>
    subst hend
    have hgap : Cut ('\n' :: ([] ++ rest)) [(.gap, ['\n'])] rest := .piece rfl .done
    exact hgap
  | @piece c more middle after p pieces hpiece _ ih =>
    obtain ⟨last, hlast⟩ : ∃ last, (c :: more).getLast? = some last :=
      ⟨_, List.getLast?_eq_some_getLast (List.cons_ne_nil c more)⟩
    rw [List.cons_append, List.append_assoc]
    exact .piece (piece?_congr (agrees_line p last middle rest) hlast hpiece) (ih hend)

/-- Behind a brace that opens a block, the text is exchanged up to a token. -/
theorem Cut.exchange {before middle after written : Pieces} {replacement : List Char}
    (h : Cut text (before ++ (.lexeme .openBrace, ['\x7b']) :: (middle ++ after)) [])
    (hwritten : Cut replacement written []) :
    Cut (before.chars ++ '\x7b' :: (replacement ++ '\n' :: after.chars))
      (before ++ (.lexeme .openBrace, ['\x7b']) :: (written ++ (.gap, ['\n']) :: after)) [] := by
  obtain ⟨rest, hbefore, hrest⟩ := h.split
  cases hrest with
  | piece _ hinner =>
    obtain ⟨rest, -, hafter⟩ := hinner.split
    obtain rfl : rest = after.chars := by simpa using hafter.text_eq
    have hresumes {cs cs' : List Char} : Resumes before ('\x7b' :: cs) ('\x7b' :: cs') :=
      .of_head (by simp [isOperatorChar_eq, Text.isDigit, Text.digitValue?]) id (by decide)
    have hbrace : Cut ('\x7b' :: ([] ++ (replacement ++ '\n' :: after.chars)))
        [(.lexeme .openBrace, ['\x7b'])] (replacement ++ '\n' :: after.chars) :=
      .piece (piece?_of_symbol? rfl) .done
    have hall := (hbefore.resume hresumes).append
      (hbrace.append ((hwritten.before_line after.chars).append hafter))
    simpa using hall

end Token

/-! ## Accessors -/

/-- A property is computed by what stands between those two tokens of the text. -/
structure Record.Accessor (source : String) (front : List Token) (opening : Token)
    (inner : List Token) (closing : Token) (back : List Token) : Prop where
  scan_eq : Token.scan source = (front ++ opening :: (inner ++ closing :: back), none)
  computed : ∃ (t : Of Label .declarations) (block : Of Label .block),
    t.Has (IsComputed (front.map label) block (back.map label)) [] [] ∧
      block.leaves = (opening :: (inner ++ [closing])).map label

theorem Lexeme.eq_openBrace {l : Lexeme} (h : l.content.1 = .openBrace) : l = .openBrace := by
  cases l <;> first | rfl | cases h

theorem Lexeme.eq_closeBrace {l : Lexeme} (h : l.content.1 = .closeBrace) : l = .closeBrace := by
  cases l <;> first | rfl | cases h

theorem Grammar.label_of_lexeme {t : Token} {l : Lexeme} (h : t.lexeme = l) :
    label t = ⟨l.content.1, l.content.2, t.span⟩ := by
  subst h
  rfl

namespace Record

variable {source : String} {records : List Record} {front inner back : List Token}
  {opening closing : Token}

/-- The block of an accessor stands between braces that match. -/
theorem Accessor.balanced (h : Accessor source front opening inner closing back) :
    opening.lexeme = .openBrace ∧ closing.lexeme = .closeBrace ∧
      Grammar.balanced 0 (inner.map Token.kind) = true := by
  obtain ⟨t, block, -, hblock⟩ := h.computed
  obtain ⟨b, xs, c, hleaves, hxs⟩ := exists_balanced block
  rw [hleaves, List.map_cons, List.map_append] at hblock
  obtain ⟨hopening, hrest⟩ := List.cons.inj hblock
  obtain ⟨hinner, hclosing⟩ := List.append_inj' hrest rfl
  refine ⟨Lexeme.eq_openBrace (congrArg Sigma.fst hopening).symm,
    Lexeme.eq_closeBrace (congrArg Sigma.fst (List.cons.inj hclosing).1).symm, ?_⟩
  rwa [hinner, List.map_map] at hxs

/-- A derivation of the text has the block of the accessor in it. -/
theorem Accessor.leaves_eq (h : Accessor source front opening inner closing back)
    {t : Of Label .declarations} {block : Of Label .block}
    (hhas : t.Has (IsComputed (front.map label) block (back.map label)) [] [])
    (hblock : block.leaves = (opening :: (inner ++ [closing])).map label) :
    t.leaves = (Token.scan source).1.map label := by
  have hleaves := hhas.leaves_computed
  rw [hblock] at hleaves
  rw [h.scan_eq]
  simpa using hleaves

/-- In a text with the same tokens around another block, the property is computed by that block. -/
theorem exists_accessor {t t' : Of Label .declarations} {block : Of Label .block}
    {front back : List (Sigma Label)} (hhas : t.Has (IsComputed front block back) [] [])
    (hbare : t'.bare = t.bare) {source : String} {front' inner back' : List Token}
    {opening closing : Token}
    (hscan : Token.scan source = (front' ++ opening :: (inner ++ closing :: back'), none))
    (hleaves : t'.leaves = (front' ++ opening :: (inner ++ closing :: back')).map label)
    (hfront : front'.length = front.length) (hback : back'.length = back.length) :
    Accessor source front' opening inner closing back' := by
  obtain ⟨xs, block', ys, hhas', hxs, hys⟩ := hhas.computed_of_bare hbare rfl rfl
  have hlength {xs ys : List (Sigma Label)} (h : contents xs = contents ys) :
      xs.length = ys.length := by simpa [contents] using congrArg List.length h
  have hparts := hhas'.leaves_computed
  rw [List.nil_append, List.append_nil, hleaves, List.map_append] at hparts
  obtain ⟨rfl, hrest⟩ := List.append_inj hparts (by rw [List.length_map, hfront, hlength hxs])
  have hmiddle : (opening :: (inner ++ closing :: back')).map label =
      (opening :: (inner ++ [closing])).map label ++ back'.map label := by simp
  rw [hmiddle] at hrest
  obtain ⟨hblock, rfl⟩ := List.append_inj' hrest (by rw [List.length_map, hback, hlength hys])
  exact ⟨hscan, t', block', hhas', hblock.symm⟩

/-- The tokens of an accessor may be exchanged for others between braces that match. -/
theorem Accessor.exists_exchanged (h : Accessor source front opening inner closing back)
    (hread : readAll source = .ok records) {source' : String} {front' inner' back' : List Token}
    {opening' closing' : Token}
    (hscan : Token.scan source' = (front' ++ opening' :: (inner' ++ closing' :: back'), none))
    (hfront : front'.map Token.lexeme = front.map Token.lexeme)
    (hopening : opening'.lexeme = .openBrace)
    (hinner : Grammar.balanced 0 (inner'.map Token.kind) = true)
    (hclosing : closing'.lexeme = .closeBrace)
    (hback : back'.map Token.lexeme = back.map Token.lexeme) :
    ∃ records', readAll source' = .ok records' ∧ records'.map unplaced = records.map unplaced ∧
      Accessor source' front' opening' inner' closing' back' := by
  obtain ⟨t, block, hhas, hblock⟩ := h.computed
  have ht : readAll source = .ok t.records :=
    (readAll_eq_ok_iff h.scan_eq).mpr ⟨t, by rw [h.leaves_eq hhas hblock, h.scan_eq], rfl⟩
  obtain rfl : t.records = records := Except.ok.inj (ht.symm.trans hread)
  -- the block of the new tokens comes in place of the old one
  have hmiddle : Grammar.balanced 0 ((inner'.map label).map Sigma.fst) = true := by
    rwa [List.map_map]
  obtain ⟨block', hblock'⟩ := exists_block ⟨(), opening'.span⟩ ⟨(), closing'.span⟩ hmiddle
  have hbrace : label opening' = ⟨.openBrace, (), opening'.span⟩ := label_of_lexeme hopening
  have hbrace' : label closing' = ⟨.closeBrace, (), closing'.span⟩ := label_of_lexeme hclosing
  rw [← hbrace, ← hbrace'] at hblock'
  obtain ⟨t₁, hhas₁, hedits⟩ := hhas.exists_computed block'
  have hcontents : contents t₁.leaves =
      contents ((front' ++ opening' :: (inner' ++ closing' :: back')).map label) := by
    have hleaves := hhas₁.leaves_computed
    rw [List.nil_append, List.append_nil] at hleaves
    rw [hleaves, hblock', ← List.map_singleton (f := label), ← List.map_append, ← List.map_cons,
      ← List.map_append, ← List.map_append, contents_label, contents_label]
    simp [hfront, hback]
  obtain ⟨t', hbare, hleaves'⟩ := t₁.bare.exists_bare _ (t₁.leaves_bare.trans hcontents)
  have hsame : t'.records.map unplaced = t₁.records.map fun r => (({} : Edit).record r).unplaced :=
    t₁.edits_of_bare t' t₁.kept_empty hbare
  have hrecords : t₁.records.map unplaced =
      t.records.map fun r => (({} : Edit).record r).unplaced := hedits
  simp only [Edit.record_empty] at hsame hrecords
  refine ⟨t'.records, (readAll_eq_ok_iff hscan).mpr ⟨t', hleaves', rfl⟩, hsame.trans hrecords,
    exists_accessor hhas₁ hbare hscan hleaves' ?_ ?_⟩
  · simpa using congrArg List.length hfront
  · simpa using congrArg List.length hback

/-- In a text that is read, another text and a line break come in place of what stands between the
braces of an accessor. -/
theorem Accessor.exists_cut_replaced (h : Accessor source front opening inner closing back)
    (hread : readAll source = .ok records) {replacement : String} {middle : List Token}
    (hscan : Token.scan replacement = (middle, none)) :
    ∃ pieces : Pieces,
      Cut ((⟨opening.span.stop, closing.span.start⟩ : Span).replaceIn source
        (replacement ++ "\n")).toList pieces [] ∧
      pieces.lexemes = front.map Token.lexeme ++ .openBrace :: (middle.map Token.lexeme ++
        .closeBrace :: back.map Token.lexeme) := by
  obtain ⟨hopening, hclosing, -⟩ := h.balanced
  obtain ⟨pieces, hcut, htokens⟩ := exists_cut_of_readAll hread
  obtain ⟨written, hwritten, rfl⟩ := exists_cut_of_scan hscan
  have hall := (congrArg Prod.fst (htokens.symm.trans h.scan_eq) : pieces.tokens 1 0 = _)
  obtain ⟨before, cs, rest, line, rfl, hfront, hstart, hrest⟩ := Pieces.exists_of_mem_middle hall
  obtain ⟨between, cs', after, line', rfl, hbetween, hstop, hback⟩ :=
    Pieces.exists_of_mem_middle hrest
  rw [hopening, hclosing] at hcut
  obtain rfl : cs = ['\x7b'] := by
    obtain ⟨text, -, htext⟩ := hcut.split
    cases htext with
    | piece hpiece _ =>
      obtain ⟨rfl, hlength⟩ := piece?_openBrace hpiece
      rw [List.length_eq_zero_iff.mp hlength]
  have hparts : Cut source.toList ((before ++ [(.lexeme .openBrace, ['\x7b'])]) ++
      (between ++ (.lexeme .closeBrace, cs') :: after)) [] := by simpa using hcut
  have hspan : (⟨opening.span.stop, closing.span.start⟩ : Span) =
      ⟨(before ++ [(.lexeme .openBrace, ['\x7b'])] : Pieces).chars.length,
        ((before ++ [(.lexeme .openBrace, ['\x7b'])] : Pieces).chars.length +
          between.chars.length : Nat)⟩ := by
    simp [hstart, hstop, Nat.add_assoc]
  obtain ⟨htake, hdrop⟩ := hparts.sides hspan
  refine ⟨before ++ (.lexeme .openBrace, ['\x7b']) :: (written ++ (.gap, ['\n']) ::
    (.lexeme .closeBrace, cs') :: after), ?_, ?_⟩
  · rw [Span.replaceIn, String.toList_ofList, htake, hdrop, String.toList_append]
    simpa using hcut.exchange hwritten
  · rw [← hfront, ← hback, Pieces.map_lexeme_tokens, Pieces.map_lexeme_tokens,
      Pieces.map_lexeme_tokens]
    simp [Pieces.lexemes]

theorem Accessor.exists_replaced (h : Accessor source front opening inner closing back)
    (hread : readAll source = .ok records) {replacement : String} {middle : List Token}
    (hscan : Token.scan replacement = (middle, none))
    (hmiddle : Grammar.balanced 0 (middle.map Token.kind) = true) :
    ∃ records', readAll ((⟨opening.span.stop, closing.span.start⟩ : Span).replaceIn source
        (replacement ++ "\n")) = .ok records' ∧ records'.map unplaced = records.map unplaced := by
  obtain ⟨pieces, hcut, hlexemes⟩ := h.exists_cut_replaced hread hscan
  have hscan' := (scan_of_cut hcut).1 rfl
  rw [← Pieces.map_lexeme_tokens pieces 1 0] at hlexemes
  obtain ⟨front', rest, htokens, hfront, hrest⟩ := List.map_eq_append_iff.mp hlexemes
  obtain ⟨opening', rest, rfl, hopening, hrest⟩ := List.map_eq_cons_iff.mp hrest
  obtain ⟨inner', rest, rfl, hinner, hrest⟩ := List.map_eq_append_iff.mp hrest
  obtain ⟨closing', back', rfl, hclosing, hback⟩ := List.map_eq_cons_iff.mp hrest
  rw [← Token.Alike.kinds hinner] at hmiddle
  obtain ⟨records', hread', hsame, -⟩ := h.exists_exchanged hread (htokens ▸ hscan') hfront
    hopening hmiddle hclosing hback
  exact ⟨records', hread', hsame⟩

/-- Where a field is computed there is an accessor in the text. -/
theorem exists_accessor_of_computed (hread : readAll source = .ok records) {r : Record}
    (hr : r ∈ records) {f : Field} (hf : f ∈ r.fields) (hcomputed : f.isComputed = true) :
    ∃ front opening inner closing back, Accessor source front opening inner closing back := by
  obtain ⟨pieces, hcut, hscan⟩ := exists_cut_of_readAll hread
  obtain ⟨t, hleaves, rfl⟩ := (readAll_eq_ok_iff hscan).mp hread
  obtain ⟨n, f, u, b, ⟨xs, block, ys, hpart⟩, hall⟩ :=
    (t.has_computed ⟨r, hr, f, hf, hcomputed⟩ [] []).exists_part
  have hhas := hall _ hpart
  obtain ⟨brace, middle, brace', hblock, -⟩ := exists_balanced block
  have hparts := hhas.leaves_computed
  rw [List.nil_append, List.append_nil, hleaves, hblock, List.cons_append, List.append_assoc,
    List.singleton_append] at hparts
  obtain ⟨front, rest, htokens, rfl, hrest⟩ := List.map_eq_append_iff.mp hparts
  obtain ⟨opening, rest, rfl, hopening, hinner⟩ := List.map_eq_cons_iff.mp hrest
  obtain ⟨inner, rest, rfl, rfl, hback⟩ := List.map_eq_append_iff.mp hinner
  obtain ⟨closing, back, rfl, hclosing, rfl⟩ := List.map_eq_cons_iff.mp hback
  refine ⟨front, opening, inner, closing, back, by rw [hscan, htokens], t, block, hhas, ?_⟩
  rw [hblock, ← hopening, ← hclosing]
  simp

/-- What is in an accessor block does not matter. A computed field has such a block, and it goes
from a brace to the only one that matches it. Any tokens whose braces match may stand there instead,
in whatever text they are: it declares the same up to spans, and has that block as its accessor. So
may any text whose tokens are such tokens, with a line break after it. -/
theorem readAll_accessor (hread : readAll source = .ok records) :
    (∀ r ∈ records, ∀ f ∈ r.fields, f.isComputed = true →
      ∃ front opening inner closing back, Accessor source front opening inner closing back) ∧
    ∀ front opening inner closing back, Accessor source front opening inner closing back →
      (opening.lexeme = .openBrace ∧ closing.lexeme = .closeBrace ∧
        Grammar.balanced 0 (inner.map Token.kind) = true ∧
        ∀ inner' closing' back', inner ++ closing :: back = inner' ++ closing' :: back' →
          closing'.lexeme = .closeBrace → Grammar.balanced 0 (inner'.map Token.kind) = true →
            inner' = inner) ∧
      (∀ source' front' opening' inner' closing' back',
        Token.scan source' = (front' ++ opening' :: (inner' ++ closing' :: back'), none) →
        front'.map Token.lexeme = front.map Token.lexeme → opening'.lexeme = .openBrace →
        Grammar.balanced 0 (inner'.map Token.kind) = true → closing'.lexeme = .closeBrace →
        back'.map Token.lexeme = back.map Token.lexeme →
          ∃ records', readAll source' = .ok records' ∧
            records'.map unplaced = records.map unplaced ∧
            Accessor source' front' opening' inner' closing' back') ∧
      ∀ replacement middle, Token.scan replacement = (middle, none) →
        Grammar.balanced 0 (middle.map Token.kind) = true →
          ∃ records', readAll ((⟨opening.span.stop, closing.span.start⟩ : Span).replaceIn source
              (replacement ++ "\n")) = .ok records' ∧
            records'.map unplaced = records.map unplaced := by
  refine ⟨fun r hr f hf hcomputed => exists_accessor_of_computed hread hr hf hcomputed,
    fun front opening inner closing back h => ⟨?_, ?_, ?_⟩⟩
  · obtain ⟨hopening, hclosing, hinner⟩ := h.balanced
    refine ⟨hopening, hclosing, hinner, fun inner' closing' back' heq hclosing' hinner' => ?_⟩
    have hkinds := congrArg (List.map Token.kind) heq
    simp only [List.map_append, List.map_cons, Token.kind, hclosing, hclosing'] at hkinds
    have hsame := congrArg List.length (balanced_unique hinner hinner' hkinds)
    rw [List.length_map, List.length_map] at hsame
    exact (List.append_inj heq hsame).1.symm
  · intro source' front' opening' inner' closing' back' hscan hfront hopening hinner hclosing hback
    exact h.exists_exchanged hread hscan hfront hopening hinner hclosing hback
  · intro replacement middle hscan hmiddle
    exact h.exists_replaced hread hscan hmiddle

/-- The block of a field is exchanged for one that has a sign of each kind in it. -/
theorem readAll_accessor_exchanged :
    let source := "struct A\x7bvar a: Int\x7bb\x7d\x7d"
    ∃ records front opening inner closing back, readAll source = .ok records ∧
      Accessor source front opening inner closing back ∧
      ∃ records', readAll ((⟨opening.span.stop, closing.span.start⟩ : Span).replaceIn source
          ("case ) \x7b @ \x7d let [" ++ "\n")) = .ok records' ∧
        records'.map unplaced = records.map unplaced := by
  have hread : readAll "struct A\x7bvar a: Int\x7bb\x7d\x7d" = .ok
      [{ name := "A", kind := .struct, span := some ⟨0, 23⟩,
         fields :=
           [{ name := "a", type := some { name := "Int" }, isComputed := true,
              span := some ⟨9, 22⟩, bindingSpan := some ⟨9, 12⟩,
              nameSpan := some ⟨13, 14⟩ }] }] := by
    rw [readAll]
    conv in Token.scan _ => cbv
    rfl
  have hscan : (Token.scan "case ) \x7b @ \x7d let [").2 = none := by
    conv in Token.scan _ => cbv
  have hbalanced :
      Grammar.balanced 0 ((Token.scan "case ) \x7b @ \x7d let [").1.map Token.kind) = true := by
    conv in Token.scan _ => cbv
    rfl
  obtain ⟨hcomputed, hall⟩ := readAll_accessor hread
  obtain ⟨front, opening, inner, closing, back, h⟩ :=
    hcomputed _ List.mem_cons_self _ List.mem_cons_self rfl
  exact ⟨_, front, opening, inner, closing, back, hread, h,
    (hall _ _ _ _ _ h).2.2 _ _ (Prod.ext rfl hscan) hbalanced⟩

end Record

end RowSchema
