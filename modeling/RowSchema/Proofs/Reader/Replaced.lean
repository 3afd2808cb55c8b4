import RowSchema.Proofs.Grammar.Printed
import RowSchema.Proofs.Grammar.Replaced
import RowSchema.Proofs.Reader.Spans
import RowSchema.Proofs.Token.Replaced

/-! # Texts with a part replaced

Where an attribute or the keyword of a field is replaced in a text that is read, the text is read
again, and the records differ by what the edit makes of that part. -/

namespace RowSchema

open Grammar Reader Token

/-! ## Edits at a span -/

/-- The edit changes only the attribute or the keyword that stands at the span. -/
structure Edit.ChangesAt (e : Edit) (s : Span) : Prop where
  revised : ∀ a : Attribute, a.span ≠ some s → e.revised a = some a
  stays : ∀ t, t ≠ s → e.staysMutable (some t) = true

namespace Grammar

/-- What may come in place of an attribute or of the keyword of a field. -/
def Nonterminal.Takes (replacement : String) : Nonterminal → Prop
  | .attributeItem => replacement = "" ∨ replacement.toList.head? = some '@'
  | .bindingKeyword => replacement = "let"
  | _ => False

/-- The replacement is the text of the part, where that can be told from what comes after it. -/
def Spells (replacement : String) {n : Nonterminal} (u : Option (Of Label n)) : Prop :=
  ∀ after, Apart replacement after → Lexes replacement (contents (leavesOf u)) after

end Grammar

/-- Putting the replacement in place of the part at the span makes the edit of it. -/
structure Edit.Performs (e : Edit) (s : Span) (replacement : String) (n : Nonterminal)
    (u : Of Label n) : Prop where
  takes : n.Takes replacement
  span : u.located.span = s
  written : ∃ u' : Option (Of Label n), Spells replacement u' ∧ e.Becomes (.part n) u.located u'

namespace Grammar

variable {e : Edit} {s : Span} {replacement : String}

theorem Nonterminal.Takes.isTarget {n : Nonterminal} (h : n.Takes replacement) :
    n.isTarget = true := by
  cases n <;> first | rfl | exact h.elim

theorem span_attributeItem (u : Of Label .attributeItem) :
    u.located.value.span = some u.located.span := by
  cases u with
  | node p children => cases p <;> rfl

theorem leaves_attributeItem (u : Of Label .attributeItem) :
    ∃ sign rest, u.leaves = ⟨.atSign, sign⟩ :: rest := by
  cases u with
  | node p children =>
    cases p with
    | attributeBare | attributeEmpty | attributeArguments =>
      match children with
      | .cons (.leaf sign) rest => exact ⟨sign, rest.leaves, rfl⟩

theorem leaves_bindingKeyword (u : Of Label .bindingKeyword) :
    ∃ k x, u.leaves = [⟨.keyword k, x⟩] := by
  cases u with
  | node p children =>
    cases p with
    | letKeyword | varKeyword =>
      match children with
      | .cons (.leaf x) .nil => exact ⟨_, x, rfl⟩

/-- Tokens before or after a part do not begin where the part does. -/
theorem hull_start_ne {f us b xs : List (Sigma Label)} (h : InOrder (f ++ (us ++ b)))
    (hus : us ≠ []) (hxs : xs ≠ []) (hsub : xs ⊆ f ++ b) : (hull xs).start ≠ (hull us).start := by
  obtain ⟨x, xs, rfl⟩ := List.exists_cons_of_ne_nil hxs
  obtain ⟨y, us, rfl⟩ := List.exists_cons_of_ne_nil hus
  obtain ⟨hfront, hlater, hbefore⟩ := h.append
  obtain ⟨hu, hback, hafter⟩ := hlater.append
  have hy := hu.proper y List.mem_cons_self
  show x.2.span.start ≠ y.2.span.start
  rcases List.mem_append.mp (hsub List.mem_cons_self) with hx | hx
  · have hstart := hfront.proper x hx
    have hstop : x.2.span.stop ≤ y.2.span.start := hbefore x hx y (by simp)
    omega
  · have hstop : y.2.span.stop ≤ x.2.span.start := hafter y List.mem_cons_self x hx
    omega

/-- An edit at the span of a part keeps what stands before the part or after it. -/
theorem keeps_of_changesAt (he : e.ChangesAt s) {n m : Nonterminal}
    {f b : List (Sigma Label)} {u : Of Label n} {v : Of Label m} (hu : u.located.span = s)
    (hn : n.isTarget = true) (horder : InOrder (f ++ (u.leaves ++ b)))
    (hv : v.leaves ⊆ f ++ b) : e.Keeps m v.located := by
  have hne : m.isTarget = true → v.located.span ≠ s := by
    intro hm hspan
    obtain ⟨huleaves, huspan⟩ := u.spread (by rintro ⟨⟩; cases hn)
    obtain ⟨hvleaves, hvspan⟩ := v.spread (by rintro ⟨⟩; cases hm)
    refine hull_start_ne horder huleaves hvleaves hv ?_
    rw [← huspan, ← hvspan, hspan, hu]
  cases m with
  | attributeItem =>
    refine he.revised _ ?_
    rw [span_attributeItem v]
    exact fun hspan => hne rfl (Option.some.inj hspan)
  | bindingKeyword => exact he.stays _ (hne rfl)
  | _ => trivial

/-- In a derivation the part at the span is replaced. -/
theorem exists_replaced {t : Of Label .declarations} (he : e.ChangesAt s)
    (horder : InOrder t.leaves)
    (h : t.Has (fun n _ u _ => e.Performs s replacement n u) [] []) :
    ∃ (t' : Of Label .declarations) (n : Nonterminal) (f : List (Sigma Label)) (u : Of Label n)
      (b : List (Sigma Label)) (u' : Option (Of Label n)),
      e.Edits (.part .declarations) t.located t'.located ∧ e.Performs s replacement n u ∧
        Calm f ∧ (n = .attributeItem → Opens b) ∧ t.leaves = f ++ (u.leaves ++ b) ∧
        Spells replacement u' ∧ t'.leaves = f ++ (leavesOf u' ++ b) := by
  have htargets : PartProp.OfTargets fun n _ u _ => e.Performs s replacement n u :=
    fun n f u b hu => hu.takes.isTarget
  have hparts := (h.between htargets (fun x hx => nomatch hx) (fun hs => nomatch hs)).leaves
  obtain ⟨t', ⟨n, f, u, b, u', ⟨⟨hu, hcalm, hopens⟩, hleaves⟩, hspells, -, -, heq⟩, hbecomes⟩ :=
    hparts.exists_substituted (R := fun n _ u' => Spells replacement u') (e := e)
      ⟨fun n f u b hu => hu.1.1.takes.isTarget, fun n f u b hu => hu.1.1.written,
        fun n f u b hu m v hv => keeps_of_changesAt he hu.1.1.span hu.1.1.takes.isTarget
          (by rw [hu.2]; simpa using horder) hv⟩
  cases t' with
  | none => exact hbecomes.elim
  | some t' =>
    refine ⟨t', n, f, u, b, u', hbecomes, hu, hcalm, hopens, ?_, hspells, ?_⟩
    · simpa using hleaves.symm
    · simpa using heq

/-! ## Texts -/

theorem contents_label (tokens : List Token) :
    contents (tokens.map label) = (tokens.map Token.lexeme).map Lexeme.content := by
  simp only [contents, List.map_map]
  rfl

theorem hull_label {x : Token} {more : List Token} {start stop : Int}
    (hstart : x.span.start = start)
    (hstop : ((x :: more).getLast?.map fun y => y.span.stop) = some stop) :
    hull ((x :: more).map label) = ⟨start, stop⟩ := by
  rw [hull, List.getLast?_map, Option.map_map]
  exact congrArg₂ Span.mk hstart (congrArg (Option.getD · 0) hstop)

theorem eq_atSign {l : Lexeme} (h : l.content.1 = .atSign) : l = .atSign := by
  cases l <;> first | rfl | cases h

theorem eq_keyword {l : Lexeme} {k : Keyword} (h : l.content.1 = .keyword k) : l = .keyword k := by
  cases l <;> cases h
  rfl

/-- The first of the tokens opens something in the text as well. -/
theorem Opens.lexeme {tokens : List Token} (h : Opens (tokens.map label)) :
    ∃ l ∈ (tokens.map Token.lexeme).head?, l.Opens := by
  obtain ⟨x, hx, hkind⟩ := h
  cases tokens with
  | nil => cases hx
  | cons t tokens =>
    obtain rfl : label t = x := Option.some.inj hx
    exact ⟨t.lexeme, rfl, hkind.imp eq_atSign fun ⟨k, hk⟩ => ⟨k, eq_keyword hk⟩⟩

theorem Calm.lexeme {tokens : List Token} (h : Calm (tokens.map label)) :
    ∀ l ∈ (tokens.map Token.lexeme).getLast?, l ≠ .equals ∧ ∀ text, l ≠ .operator text := by
  intro l hl
  rw [Option.mem_def, List.getLast?_map, Option.map_eq_some_iff] at hl
  obtain ⟨t, ht, rfl⟩ := hl
  have hkind := h (label t) (by rw [Option.mem_def, List.getLast?_map, ht]; rfl)
  constructor
  · intro heq
    exact hkind.2 (congrArg (fun l => l.content.1) heq)
  · intro text heq
    exact hkind.1 (congrArg (fun l => l.content.1) heq)

/-- The tokens of an attribute or of the keyword of a field begin with a sign or with a name. -/
theorem head_of_takes {n : Nonterminal} {u : Of Label n} (h : n.Takes replacement) {x : Token}
    {more : List Token} (hleaves : u.leaves = (x :: more).map label) {c : Char} {cs : List Char}
    (hwrites : Writes x.lexeme (c :: cs)) :
    c ≠ '\n' ∧ (n = .bindingKeyword → isNameChar c = true) := by
  have hstart (hc : isNameStart c = true) : c ≠ '\n' := (ne_of_isNameStart hc).2.2.2.1
  cases n with
  | attributeItem =>
    obtain ⟨sign, rest, hu⟩ := leaves_attributeItem u
    rw [hu] at hleaves
    have hkind : x.kind = .atSign := (congrArg Sigma.fst (List.cons.inj hleaves).1).symm
    rcases head_of_opens hwrites (.inl (eq_atSign hkind)) with ⟨-, rfl⟩ | ⟨-, hc⟩
    · exact ⟨by decide, nofun⟩
    · exact ⟨hstart hc, nofun⟩
  | bindingKeyword =>
    obtain ⟨k, y, hu⟩ := leaves_bindingKeyword u
    rw [hu] at hleaves
    have hkind : x.kind = .keyword k := (congrArg Sigma.fst (List.cons.inj hleaves).1).symm
    have hlexeme := eq_keyword hkind
    rcases head_of_opens hwrites (.inr ⟨k, hlexeme⟩) with ⟨heq, -⟩ | ⟨-, hc⟩
    · rw [hlexeme] at heq
      cases heq
    · exact ⟨hstart hc, fun _ => isNameChar_of_isNameStart hc⟩
  | _ => exact h.elim

/-- Where nothing is joined, the replacement is apart from what comes after it. -/
theorem apart_of_not_joins {source : String} (h : ¬ s.Joins source replacement) :
    Apart replacement (source.toList.drop s.stop.toNat) := by
  intro last hlast hchar
  rw [Option.mem_def] at hlast
  by_contra hafter
  refine h ⟨last, ?_, hchar, by simpa using hafter⟩
  rw [Option.mem_def, List.getLast?_append, hlast, Option.some_or]

/-- Nothing before the part goes on with the replacement, or with what comes after the part. -/
theorem resumes_of_takes {n : Nonterminal} (htakes : n.Takes replacement) {pieces : Pieces}
    {after rest : List Char} {c : Char} (hc : c ≠ '\n')
    (hname : n = .bindingKeyword → isNameChar c = true)
    (hcalm : ∀ l ∈ pieces.lexemes.getLast?, l ≠ .equals ∧ ∀ text, l ≠ .operator text)
    (hjoins : ∀ last ∈ (pieces.chars ++ replacement.toList).getLast?, isNameChar last = true →
      after.head?.any isNameChar = false)
    (hhead : n = .attributeItem → ∃ d ∈ after.head?, Text.isDigit d = false ∧ d ≠ '.') :
    Resumes pieces (c :: rest) (replacement.toList ++ after) := by
  cases n with
  | attributeItem =>
    rcases htakes with rfl | hsign
    · exact .of_opens hcalm (by simpa using hjoins) (hhead rfl) hc
    · obtain ⟨more, hmore⟩ : ∃ more, replacement.toList = '@' :: more :=
        List.head?_eq_some_iff.mp hsign
      rw [hmore, List.cons_append]
      exact .of_head (by simp [isOperatorChar_eq, Text.isDigit, Text.digitValue?])
        (fun hsign => absurd hsign (by decide)) hc
  | bindingKeyword =>
    obtain rfl : replacement = "let" := htakes
    exact .of_head (d := 'l') (by simp [isOperatorChar_eq, Text.isDigit, Text.digitValue?])
      (fun _ => hname rfl) hc
  | _ => exact htakes.elim

/-- In a text that is cut into pieces, another text comes in place of a part. -/
theorem exists_cut_replaced {source : String} {pieces : Pieces} (hcut : Cut source.toList pieces [])
    {n : Nonterminal} {u : Of Label n} {f b : List (Sigma Label)}
    (hleaves : (pieces.tokens 1 0).map label = f ++ (u.leaves ++ b)) (hspan : u.located.span = s)
    (htakes : n.Takes replacement) (hcalm : Calm f) (hopens : n = .attributeItem → Opens b)
    (hjoins : ¬ s.Joins source replacement) {u' : Option (Of Label n)}
    (hspells : Spells replacement u') :
    ∃ pieces', Cut (s.replaceIn source replacement).toList pieces' [] ∧
      pieces'.lexemes.map Lexeme.content =
        contents f ++ (contents (leavesOf u') ++ contents b) := by
  obtain ⟨front, tokens, htokens, rfl, hmiddle⟩ := List.map_eq_append_iff.mp hleaves
  obtain ⟨middle, back, rfl, humiddle, rfl⟩ := List.map_eq_append_iff.mp hmiddle
  obtain ⟨hne, hhull⟩ := u.spread (by rintro ⟨⟩; exact htakes)
  obtain ⟨x, more, rfl⟩ := List.exists_cons_of_ne_nil
    (show middle ≠ [] from fun hnil => hne (by rw [← humiddle, hnil]; rfl))
  obtain ⟨before, part, after, rfl, hfront, hback, ⟨cs, _, hhead⟩, hstart, hstop⟩ :=
    Pieces.exists_split htokens
  have hwhere : s = ⟨before.chars.length, (before.chars.length + part.chars.length : Nat)⟩ := by
    rw [Nat.zero_add] at hstart hstop
    rw [← hspan, hhull, ← humiddle, hull_label hstart hstop]
  obtain ⟨hbefore, hafter⟩ := hcut.sides hwhere
  -- the pieces before the part are cut off the new text too, since nothing goes on with them
  have hresumes : Resumes before (part.chars ++ after.chars)
      (replacement.toList ++ after.chars) := by
    obtain ⟨rest, -, hrest⟩ := hcut.split
    obtain ⟨rest', hpart, hlater⟩ := hrest.split
    obtain rfl : rest' = after.chars := by simpa using hlater.text_eq
    rw [← hpart.text_eq]
    subst hhead
    cases hpart with
    | piece hpiece _ =>
      obtain ⟨hc, hname⟩ := head_of_takes htakes humiddle.symm (writes_of_piece? hpiece)
      refine resumes_of_takes htakes hc hname ?_ ?_ fun hn => ?_
      · rw [hfront]
        exact hcalm.lexeme
      · intro y hy hchar
        by_contra hany
        refine hjoins ⟨y, by rwa [hbefore], hchar, ?_⟩
        rw [hafter]
        simpa using hany
      · obtain ⟨l, hl, hlopens⟩ := (hopens hn).lexeme
        exact hlater.head_of_opens (by rwa [hback]) hlopens
  have hlexes := hspells after.chars (by rw [← hafter]; exact apart_of_not_joins hjoins)
  obtain ⟨written, hwritten, hcontent⟩ := hcut.replaceIn hwhere hresumes hlexes
  refine ⟨written, hwritten, ?_⟩
  rw [hcontent, hfront, hback, contents_label, contents_label]

/-- Tokens that say what a derivation derives have a derivation of the same declarations. -/
theorem exists_same {t : Of Label .declarations} {xs : List (Sigma Label)}
    (h : contents t.leaves = contents xs) :
    ∃ t' : Of Label .declarations, t'.leaves = xs ∧
      t'.records.map Record.unplaced = t.records.map Record.unplaced := by
  obtain ⟨t', hbare, hleaves⟩ := Tree.exists_bare t.bare xs (by rw [t.leaves_bare, h])
  have hedits : t'.records.map Record.unplaced =
      t.records.map fun r => (({} : Edit).record r).unplaced :=
    t.edits_of_bare t' t.kept_empty hbare
  simp only [Edit.record_empty] at hedits
  exact ⟨t', hleaves, hedits⟩

end Grammar

/-- Where the replacement makes the edit of a part, and it is not joined with what comes after it,
the text with the replacement is read again: as the records after the edit, up to spans. -/
theorem Record.exists_readAll_replaced {source replacement : String} {pieces : Pieces} {e : Edit}
    {s : Span} {t : Of Label .declarations} (hcut : Cut source.toList pieces [])
    (hleaves : t.leaves = (pieces.tokens 1 0).map label) (he : e.ChangesAt s)
    (h : t.Has (fun n _ u _ => e.Performs s replacement n u) [] [])
    (hjoins : ¬ s.Joins source replacement) :
    ∃ edited, Record.readAll (s.replaceIn source replacement) = .ok edited ∧
      edited.map Record.unplaced = t.records.map fun r => (e.record r).unplaced := by
  have horder : InOrder t.leaves := hleaves ▸ (inOrder_tokens hcut).2
  obtain ⟨t', n, f, u, b, u', hedits, hu, hcalm, hopens, hparts, hspells, hnew⟩ :=
    exists_replaced he horder h
  obtain ⟨written, hwritten, hcontent⟩ := exists_cut_replaced hcut (hleaves.symm.trans hparts)
    hu.span hu.takes hcalm hopens hjoins hspells
  have hsame : contents t'.leaves = contents ((written.tokens 1 0).map label) := by
    rw [contents_label, Pieces.map_lexeme_tokens, hcontent, hnew, contents_append, contents_append]
  obtain ⟨t'', hleaves'', hrecords⟩ := exists_same hsame
  refine ⟨t''.records, (readAll_eq_ok_iff ((scan_of_cut hwritten).1 rfl)).mpr
    ⟨t'', hleaves'', rfl⟩, ?_⟩
  rw [hrecords]
  exact hedits

end RowSchema
