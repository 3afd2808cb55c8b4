import RowSchema.Proofs.Token.Written

/-! # Tokens replaced in a text

Where some of the tokens of a text are replaced by a text of their own, the others stay the same,
as long as nothing that comes to stand side by side is read as one. -/

namespace RowSchema

namespace Span

/-- The text with another one in place of what stands at the span. -/
def replaceIn (s : Span) (source replacement : String) : String :=
  String.ofList (source.toList.take s.start.toNat ++ (replacement.toList ++
    source.toList.drop s.stop.toNat))

/-- The end of the replacement, or what stands before it if it is empty, is read as one name with
what comes after it. -/
def Joins (s : Span) (source replacement : String) : Prop :=
  ∃ last ∈ (source.toList.take s.start.toNat ++ replacement.toList).getLast?,
    Token.isNameChar last = true ∧
      (source.toList.drop s.stop.toNat).head?.any Token.isNameChar = true

end Span

/-- Whether a token begins an attribute or a declaration. -/
def Lexeme.Opens (l : Lexeme) : Prop := l = .atSign ∨ ∃ k, l = .keyword k

namespace Token

/-! ## Pieces of tokens -/

namespace Pieces

/-- The pieces before a token, those after it, and where it stands. -/
theorem exists_of_mem_middle {pieces : Pieces} {line offset : Nat} {front back : List Token}
    {x : Token} (h : pieces.tokens line offset = front ++ x :: back) :
    ∃ (before : Pieces) (cs : List Char) (after : Pieces) (line' : Nat),
      pieces = before ++ (.lexeme x.lexeme, cs) :: after ∧ before.tokens line offset = front ∧
        x.span = ⟨(offset + before.chars.length : Nat),
          (offset + before.chars.length + cs.length : Nat)⟩ ∧
        after.tokens line' (offset + before.chars.length + cs.length) = back := by
  induction pieces generalizing line offset front with
  | nil => simp [tokens] at h
  | cons piece pieces ih =>
    obtain ⟨p, cs⟩ := piece
    cases p with
    | gap =>
      obtain ⟨before, cs', after, line', rfl, hfront, hspan, hback⟩ := ih h
      refine ⟨(.gap, cs) :: before, cs', after, line', rfl, hfront, ?_, ?_⟩
      · simpa only [chars_cons, List.length_append, Nat.add_assoc] using hspan
      · simpa only [chars_cons, List.length_append, Nat.add_assoc] using hback
    | lexeme l =>
      cases front with
      | nil =>
        obtain ⟨rfl, rfl⟩ := List.cons.inj h
        exact ⟨[], cs, pieces, _, rfl, rfl, rfl, rfl⟩
      | cons y front =>
        obtain ⟨rfl, hrest⟩ := List.cons.inj h
        obtain ⟨before, cs', after, line', rfl, hfront, hspan, hback⟩ := ih hrest
        refine ⟨(.lexeme l, cs) :: before, cs', after, line', rfl, ?_, ?_, ?_⟩
        · exact congrArg _ hfront
        · simpa only [chars_cons, List.length_append, Nat.add_assoc] using hspan
        · simpa only [chars_cons, List.length_append, Nat.add_assoc] using hback

/-- The pieces of the first tokens, up to the end of the last of them. -/
theorem exists_append {pieces : Pieces} {line offset : Nat} {front back : List Token}
    (h : pieces.tokens line offset = front ++ back) :
    ∃ before after : Pieces, pieces = before ++ after ∧
      before.lexemes = front.map Token.lexeme ∧ after.lexemes = back.map Token.lexeme ∧
        ((front.getLast?.map fun x => x.span.stop).getD offset : Int) =
          (offset + before.chars.length : Nat) := by
  rcases List.eq_nil_or_concat front with rfl | ⟨init, x, rfl⟩
  · refine ⟨[], pieces, rfl, rfl, ?_, rfl⟩
    rw [← map_lexeme_tokens pieces line offset, h, List.nil_append]
  · rw [List.concat_eq_append, List.append_assoc, List.singleton_append] at h
    obtain ⟨before, cs, after, line', rfl, hfront, hspan, hback⟩ := exists_of_mem_middle h
    refine ⟨before ++ [(.lexeme x.lexeme, cs)], after, ?_, ?_, ?_, ?_⟩
    · rw [List.append_assoc, List.singleton_append]
    · rw [lexemes_append, ← map_lexeme_tokens before line offset, hfront, List.concat_eq_append,
        List.map_append]
      rfl
    · rw [← hback, map_lexeme_tokens]
    · simp [hspan, Nat.add_assoc]

/-- The pieces of some tokens of a text, with what comes before them and after them. -/
theorem exists_split {pieces : Pieces} {line offset : Nat} {front more back : List Token}
    {x : Token} (h : pieces.tokens line offset = front ++ (x :: more ++ back)) :
    ∃ before middle after : Pieces, pieces = before ++ (middle ++ after) ∧
      before.lexemes = front.map Token.lexeme ∧ after.lexemes = back.map Token.lexeme ∧
      (∃ cs rest, middle = (.lexeme x.lexeme, cs) :: rest) ∧
      x.span.start = (offset + before.chars.length : Nat) ∧
      ((x :: more).getLast?.map fun y => y.span.stop) =
        some ((offset + before.chars.length + middle.chars.length : Nat) : Int) := by
  obtain ⟨before, cs, rest, line', rfl, hfront, hspan, hrest⟩ := exists_of_mem_middle h
  obtain ⟨middle, after, rfl, -, hback, hstop⟩ := exists_append hrest
  refine ⟨before, (.lexeme x.lexeme, cs) :: middle, after, rfl, ?_, hback, ⟨cs, middle, rfl⟩, ?_,
    ?_⟩
  · rw [← map_lexeme_tokens before line offset, hfront]
  · rw [hspan]
  · rw [chars_cons, List.length_append, ← Nat.add_assoc, ← hstop, List.getLast?_cons]
    cases more.getLast? with
    | none => simp [hspan]
    | some y => rfl

end Pieces

/-! ## Before and after the replacement -/

variable {pieces : Pieces} {text rest after after' : List Char} {l : Lexeme} {c d : Char}

/-- An operator is no token that the pieces end with, so none of them goes on after it. -/
theorem lexemes_getLast? {piece : Piece × List Char} (h : pieces.getLast? = some piece)
    (hoperator : piece.1.IsOperator) :
    ∃ l ∈ pieces.lexemes.getLast?, l = .equals ∨ ∃ s, l = .operator s := by
  obtain ⟨front, rfl⟩ := List.getLast?_eq_some_iff.mp h
  obtain ⟨p, cs⟩ := piece
  cases p with
  | gap => exact hoperator.elim
  | lexeme l =>
    refine ⟨l, ?_, ?_⟩
    · rw [Pieces.lexemes_append]
      exact List.getLast?_concat
    · cases l with
      | equals => exact .inl rfl
      | operator s => exact .inr ⟨s, rfl⟩
      | _ => exact hoperator.elim

/-- The characters of a token that opens something begin with a sign or a name. -/
theorem head_of_opens {cs : List Char} (h : Writes l (c :: cs)) (hl : l.Opens) :
    (l = .atSign ∧ c = '@') ∨ ((∃ k, l = .keyword k) ∧ isNameStart c = true) := by
  rcases hl with rfl | ⟨k, rfl⟩
  · exact .inl ⟨rfl, (List.cons.inj h).1⟩
  · obtain ⟨c', more, hchars, hstart, -⟩ := isName_text k
    rw [← show String.ofList (c :: cs) = k.text from h, String.toList_ofList] at hchars
    obtain ⟨rfl, -⟩ := List.cons.inj hchars
    exact .inr ⟨⟨k, rfl⟩, hstart⟩

/-- A text whose first token opens something goes on with no number and no point. -/
theorem Cut.head_of_opens (h : Cut text pieces rest) (hl : l ∈ pieces.lexemes.head?)
    (hopens : l.Opens) : ∃ c ∈ text.head?, Text.isDigit c = false ∧ c ≠ '.' := by
  cases h with
  | done => cases hl
  | @piece c more after _ p pieces hpiece _ =>
    refine ⟨c, rfl, ?_⟩
    cases p with
    | gap =>
      have hblank := mem_of_gap hpiece
      simp only [List.mem_cons, List.not_mem_nil, or_false] at hblank
      rcases hblank with rfl | rfl | rfl | rfl | rfl | rfl <;> decide
    | lexeme l' =>
      obtain rfl : l' = l := Option.some.inj hl
      rcases Token.head_of_opens (writes_of_piece? hpiece) hopens with ⟨-, rfl⟩ | ⟨-, hstart⟩
      · decide
      · refine ⟨isDigit_of_isNameStart hstart, ?_⟩
        rintro rfl
        cases hstart

/-- Pieces are cut off a text that begins as an attribute or as a keyword does, if they are cut off
one that does as well. -/
theorem Resumes.of_head (hd : Text.isDigit d = false ∧ isOperatorChar d = false ∧ d ≠ '.')
    (hname : isNameChar d = true → isNameChar c = true) (hline : c ≠ '\n') :
    Resumes pieces (c :: after) (d :: after') where
  digit h := by simp [hd.1] at h
  name _ _ _ h := by simpa using hname (by simpa using h)
  operator _ _ _ h := by simp [hd.2.1] at h
  line := .inl (by simpa using hline)
  point h := hd.2.2 (Option.some.inj h)

/-- Pieces are cut off a text in which an attribute after them is left out, if nothing goes on with
the last of them. -/
theorem Resumes.of_opens (hcalm : ∀ l ∈ pieces.lexemes.getLast?, l ≠ .equals ∧ ∀ s, l ≠ .operator s)
    (hname : ∀ last ∈ pieces.chars.getLast?, isNameChar last = true →
      after'.head?.any isNameChar = false)
    (hhead : ∃ d ∈ after'.head?, Text.isDigit d = false ∧ d ≠ '.') (hline : c ≠ '\n') :
    Resumes pieces (c :: after) after' := by
  obtain ⟨d, hd, hdigit, hpoint⟩ := hhead
  rw [Option.mem_def] at hd
  refine ⟨fun h => ?_, fun last hlast hchar h => ?_, fun piece hpiece hoperator _ => ?_,
    .inl (by simpa using hline), fun h => ?_⟩
  · simp [hd, hdigit] at h
  · rw [hname last hlast hchar] at h
    cases h
  · obtain ⟨l, hl, rfl | ⟨s, rfl⟩⟩ := lexemes_getLast? hpiece hoperator
    · exact absurd rfl (hcalm _ hl).1
    · exact absurd rfl ((hcalm _ hl).2 s)
  · exact hpoint (Option.some.inj (hd.symm.trans h))

/-- What stands before and after some pieces of a text. -/
theorem Cut.sides {source : String} {span : Span} {before middle after : Pieces}
    (h : Cut source.toList (before ++ (middle ++ after)) [])
    (hspan : span = ⟨before.chars.length, (before.chars.length + middle.chars.length : Nat)⟩) :
    source.toList.take span.start.toNat = before.chars ∧
      source.toList.drop span.stop.toNat = after.chars := by
  have hsource : source.toList = before.chars ++ (middle.chars ++ after.chars) := by
    simpa using h.text_eq
  subst hspan
  constructor
  · rw [hsource, Int.toNat_natCast, List.take_left]
  · rw [hsource, Int.toNat_natCast, ← List.append_assoc, ← List.length_append, List.drop_left]

/-- The text in which a text is put in place of some pieces is cut into the pieces before them,
those of the new text, and the pieces after them. -/
theorem Cut.replaceIn {source replacement : String} {span : Span} {before middle after : Pieces}
    {xs : List (Sigma Terminal.Content)}
    (h : Cut source.toList (before ++ (middle ++ after)) [])
    (hspan : span = ⟨before.chars.length, (before.chars.length + middle.chars.length : Nat)⟩)
    (hresumes : Resumes before (middle.chars ++ after.chars)
      (replacement.toList ++ after.chars))
    (hlexes : Lexes replacement xs after.chars) :
    ∃ pieces, Cut (span.replaceIn source replacement).toList pieces [] ∧
      pieces.lexemes.map Lexeme.content =
        before.lexemes.map Lexeme.content ++ (xs ++ after.lexemes.map Lexeme.content) := by
  obtain ⟨hfront, hback⟩ := h.sides hspan
  obtain ⟨rest, hbefore, hrest⟩ := h.split
  obtain ⟨rest', hmiddle, hafter⟩ := hrest.split
  obtain rfl : rest' = after.chars := by simpa using hafter.text_eq
  obtain rfl : rest = middle.chars ++ after.chars := hmiddle.text_eq
  obtain ⟨written, hwritten, rfl⟩ := hlexes
  refine ⟨before ++ (written ++ after), ?_, by simp⟩
  rw [Span.replaceIn, String.toList_ofList, hfront, hback]
  exact (hbefore.resume hresumes).append (hwritten.append hafter)

end Token

end RowSchema
