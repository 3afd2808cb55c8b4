import RowSchema.Grammar.Action
import RowSchema.Proofs.Token.Pieces

/-! # Where tokens stand

The tokens of a text stand one after another. The text at a word is the word, and the text at a
keyword or a sign is that keyword or sign. -/

namespace RowSchema

namespace Span

/-- The text at the span. -/
def textIn (s : Span) (source : String) : String :=
  String.ofList ((source.toList.drop s.start.toNat).take (s.stop - s.start).toNat)

/-- The span is not empty and lies in the other one. -/
structure Inside (s outer : Span) : Prop where
  start : outer.start ≤ s.start
  proper : s.start < s.stop
  stop : s.stop ≤ outer.stop

theorem Inside.trans {s middle outer : Span} (h : s.Inside middle) (h' : middle.Inside outer) :
    s.Inside outer :=
  ⟨Int.le_trans h'.start h.start, h.proper, Int.le_trans h.stop h'.stop⟩

theorem textIn_eq {source : String} {before cs after : List Char}
    (h : source.toList = before ++ (cs ++ after)) :
    textIn ⟨before.length, (before.length + cs.length : Nat)⟩ source = String.ofList cs := by
  have hlength : ((before.length + cs.length : Nat) - before.length : Int).toNat = cs.length := by
    omega
  rw [textIn, h, hlength, Int.toNat_natCast, List.drop_left, List.take_left]

/-- The span ends before the other one begins. -/
def Before (s t : Span) : Prop := s.stop ≤ t.start

end Span

namespace Token

/-- The characters that a word, a keyword or the sign of an attribute consists of. -/
def Writes : Lexeme → List Char → Prop
  | .word name, cs => String.ofList cs = name
  | .keyword k, cs => String.ofList cs = k.text
  | .atSign, cs => cs = ['@']
  | _, _ => True

theorem takeWhile_eq_of_length {p : Char → Bool} {more after : List Char}
    (h : ((more ++ after).takeWhile p).length = more.length) :
    (more ++ after).takeWhile p = more :=
  (List.prefix_of_prefix_length_le (List.takeWhile_prefix p) (List.prefix_append more after)
    (Nat.le_of_eq h)).eq_of_length h

theorem writes_number (negative : Bool) (whole rest cs : List Char) (taken : Nat) :
    Writes (number negative whole taken rest).1 cs := by
  unfold number
  dsimp only
  split_ifs <;> trivial

theorem writes_nameLexeme (cs : List Char) : Writes (nameLexeme (String.ofList cs)) cs := by
  unfold nameLexeme
  split
  · next k hk =>
    unfold Keyword.ofText? at hk
    have htext : k.text = String.ofList cs := by simpa using List.find?_some hk
    exact htext.symm
  · rfl

theorem writes_symbol? {c : Char} {more after : List Char} {l : Lexeme}
    (h : symbol? c (more ++ after) = some (l, more.length)) : Writes l (c :: more) := by
  unfold symbol? at h
  split at h
  · split at h
    all_goals
      obtain ⟨rfl, -⟩ := Prod.mk.inj (Option.some.inj h)
      trivial
  · obtain ⟨rfl, hmore⟩ := Prod.mk.inj (Option.some.inj h)
    obtain rfl := List.length_eq_zero_iff.mp hmore.symm
    rfl
  all_goals
    first
    | contradiction
    | obtain ⟨rfl, -⟩ := Prod.mk.inj (Option.some.inj h)
      trivial

theorem writes_of_lexeme? {c : Char} {more after : List Char} {l : Lexeme}
    (h : lexeme? c (more ++ after) = some (l, more.length)) : Writes l (c :: more) := by
  unfold lexeme? at h
  split_ifs at h
  · obtain ⟨hl, -⟩ := Prod.mk.inj (Option.some.inj h)
    rw [← hl]
    exact writes_number ..
  · obtain ⟨hl, -⟩ := Prod.mk.inj (Option.some.inj h)
    rw [← hl]
    exact writes_number ..
  · obtain ⟨⟨s, m⟩, -, heq⟩ := Option.map_eq_some_iff.mp h
    obtain ⟨rfl, -⟩ := Prod.mk.inj heq
    trivial
  · obtain ⟨rfl, hlength⟩ := Prod.mk.inj (Option.some.inj h)
    rw [takeWhile_eq_of_length hlength]
    exact writes_nameLexeme _
  · obtain ⟨rfl, -⟩ := Prod.mk.inj (Option.some.inj h)
    trivial
  · obtain ⟨rfl, -⟩ := Prod.mk.inj (Option.some.inj h)
    trivial
  · exact writes_symbol? h

theorem writes_of_piece? {c : Char} {more after : List Char} {l : Lexeme}
    (h : piece? c (more ++ after) = some (.lexeme l, more.length)) : Writes l (c :: more) :=
  writes_of_lexeme? (lexeme?_of_piece? h)

/-! ## The tokens of a text -/

/-- A token stands in the text from some offset on. -/
structure Stands (source : String) (offset : Nat) (t : Token) : Prop where
  start : (offset : Int) ≤ t.span.start
  proper : t.span.start < t.span.stop
  stop : t.span.stop ≤ source.toList.length
  writes : Writes t.lexeme (t.span.textIn source).toList

/-- The tokens that come after the first characters of a text stand in it, one after another. -/
theorem stands_of_cut {source : String} {before text rest : List Char} {pieces : Pieces}
    (h : Cut text pieces rest) (hsource : source.toList = before ++ text) (line : Nat) :
    (∀ t ∈ pieces.tokens line before.length, t.Stands source before.length) ∧
      (pieces.tokens line before.length).Pairwise fun t u => t.span.Before u.span := by
  induction h generalizing before line with
  | done => simp [Pieces.tokens]
  | @piece c more after rest p pieces hpiece _ ih =>
    have hlength : before.length + (c :: more).length = (before ++ c :: more).length := by simp
    have hafter : source.toList = (before ++ c :: more) ++ after := by simp [hsource]
    obtain ⟨hstands, hpairs⟩ := ih hafter (line + (c :: more).count '\n')
    rw [← hlength] at hstands hpairs
    have hlater : ∀ t ∈ Pieces.tokens (line + (c :: more).count '\n')
        (before.length + (c :: more).length) pieces, t.Stands source before.length := by
      intro t ht
      have hstart := (hstands t ht).start
      exact { hstands t ht with start := by omega }
    cases p with
    | gap => exact ⟨hlater, hpairs⟩
    | lexeme l =>
      have htext : Span.textIn ⟨before.length, (before.length + (c :: more).length : Nat)⟩ source =
          String.ofList (c :: more) := Span.textIn_eq hsource
      have hfirst : Token.Stands source before.length
          ⟨l, ⟨before.length, (before.length + (c :: more).length : Nat)⟩, line⟩ := by
        refine ⟨Int.le_refl _, ?_, ?_, ?_⟩
        · simp only [List.length_cons]
          omega
        · simp only [hsource, List.length_append, List.length_cons]
          omega
        · rw [htext, String.toList_ofList]
          exact writes_of_piece? hpiece
      constructor
      · intro t ht
        rcases List.mem_cons.mp ht with rfl | ht
        · exact hfirst
        · exact hlater t ht
      · exact List.pairwise_cons.mpr ⟨fun t ht => (hstands t ht).start, hpairs⟩

end Token

end RowSchema
