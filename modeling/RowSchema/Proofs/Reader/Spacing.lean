import RowSchema.Proofs.Reader.Fault
import RowSchema.Proofs.Reader.Replaced
import RowSchema.Proofs.Record.Respan

/-! # Texts with other spacing

Texts with the same tokens differ in what stands between the tokens, and so in where the tokens
stand. They are read alike: they declare the same records but for where these are, or they are
refused at the same token. -/

namespace RowSchema

open Grammar Reader
open RowSchema.Span (erase)

/-- The texts have the same tokens, and the same character after them that no token begins with, if
there is one. -/
structure Token.Alike (source source' : String) : Prop where
  lexemes : (scan source').1.map Token.lexeme = (scan source).1.map Token.lexeme
  illegal : (scan source').2.map Illegal.character = (scan source).2.map Illegal.character

/-- The errors name the same place of the texts: the token with the same number, the character that
no token begins with, or the end. -/
inductive SourceError.SamePlace (source source' : String) : SourceError → SourceError → Prop
  | token {i : Nat} {t t' : Token} (found : (Token.scan source).1[i]? = some t)
      (found' : (Token.scan source').1[i]? = some t') (lexeme : t'.lexeme = t.lexeme) :
      SamePlace source source' (.unexpected t.lexeme.shown t.span.start)
        (.unexpected t'.lexeme.shown t'.span.start)
  | character {x x' : Token.Illegal} (found : (Token.scan source).2 = some x)
      (found' : (Token.scan source').2 = some x') (character : x'.character = x.character) :
      SamePlace source source' (.illegal x.character x.offset) (.illegal x'.character x'.offset)
  | endOfInput : SamePlace source source' .endOfInput .endOfInput

namespace Token.Alike

variable {source source' : String}

theorem kinds {tokens tokens' : List Token}
    (h : tokens'.map Token.lexeme = tokens.map Token.lexeme) :
    tokens'.map Token.kind = tokens.map Token.kind := by
  have hkind (l : List Token) : l.map Token.kind = (l.map Token.lexeme).map (·.content.1) := by
    rw [List.map_map]
    rfl
  rw [hkind, h, hkind]

end Token.Alike

section

variable {source source' : String} {tokens tokens' : List Token}

/-- The same token is the first one that is refused. -/
theorem Reader.RecordsReader.exists_refused (h : tokens'.map Token.lexeme = tokens.map Token.lexeme)
    {t : Token} (hrun : run {} tokens = .error t) :
    ∃ (i : Nat) (t' : Token), tokens[i]? = some t ∧ tokens'[i]? = some t' ∧ t'.lexeme = t.lexeme ∧
      run {} tokens' = .error t' := by
  obtain ⟨before, after, rfl, hviable, hnot⟩ := run_eq_error_iff_viable.mp hrun
  rw [List.map_append, List.map_cons] at h
  obtain ⟨before', rest, rfl, hbefore, hrest⟩ := List.map_eq_append_iff.mp h
  obtain ⟨t', after', rfl, ht, -⟩ := List.map_eq_cons_iff.mp hrest
  have hlength : before'.length = before.length := by simpa using congrArg List.length hbefore
  have hkinds := Token.Alike.kinds hbefore
  have hkinds' : (before' ++ [t']).map Token.kind = (before ++ [t]).map Token.kind := by
    rw [List.map_append, List.map_append, hkinds]
    have hkind := Token.Alike.kinds (show [t'].map Token.lexeme = [t].map Token.lexeme by simp [ht])
    rw [hkind]
  refine ⟨before.length, t', ?_, ?_, ht, run_eq_error_iff_viable.mpr
    ⟨before', after', rfl, hkinds ▸ hviable, hkinds' ▸ hnot⟩⟩
  · simp
  · simp [← hlength]

/-- What one text declares the other one does, up to spans. -/
theorem Record.exists_readAll_alike (hscan : Token.scan source = (tokens, none))
    (hscan' : Token.scan source' = (tokens', none))
    (h : tokens'.map Token.lexeme = tokens.map Token.lexeme) {records : List Record}
    (hread : readAll source = .ok records) :
    ∃ records', readAll source' = .ok records' ∧ records'.map unplaced = records.map unplaced := by
  obtain ⟨t, hleaves, rfl⟩ := (readAll_eq_ok_iff hscan).mp hread
  have hcontents : contents t.leaves = contents (tokens'.map label) := by
    rw [hleaves, contents_label, contents_label, h]
  obtain ⟨t', hleaves', hrecords⟩ := exists_same hcontents
  exact ⟨t'.records, (readAll_eq_ok_iff hscan').mpr ⟨t', hleaves', rfl⟩, hrecords⟩

/-- Texts with the same tokens declare the same up to spans, or are refused at the same place. -/
theorem Record.readAll_alike (h : Token.Alike source source') :
    (∃ records records', readAll source = .ok records ∧ readAll source' = .ok records' ∧
        records'.map unplaced = records.map unplaced) ∨
      ∃ e e', readAll source = .error e ∧ readAll source' = .error e' ∧
        SourceError.SamePlace source source' e e' := by
  obtain ⟨hlexemes, hillegal⟩ := h
  rcases hscan : Token.scan source with ⟨tokens, illegal⟩
  rcases hscan' : Token.scan source' with ⟨tokens', illegal'⟩
  rw [hscan, hscan'] at hlexemes hillegal
  dsimp only at hlexemes hillegal
  cases hrun : RecordsReader.run {} tokens with
  | error t =>
    obtain ⟨i, t', ht, ht', hlexeme, hrun'⟩ := RecordsReader.exists_refused hlexemes hrun
    have hat : (Token.scan source).1[i]? = some t := by rw [hscan, ht]
    have hat' : (Token.scan source').1[i]? = some t' := by rw [hscan', ht']
    refine .inr ⟨_, _, ?_, ?_, .token hat hat' hlexeme⟩
    · simp only [readAll, hscan, hrun]
    · simp only [readAll, hscan', hrun']
  | ok reader =>
    have hviable : Viable (tokens.map Token.kind) :=
      viable_iff.mpr ⟨reader, RecordsReader.run_eq_ok_iff.mp hrun⟩
    obtain ⟨reader', hrun'⟩ := RecordsReader.run_eq_ok_of_viable
      (Token.Alike.kinds hlexemes ▸ hviable)
    cases illegal with
    | some x =>
      obtain ⟨x', rfl, hcharacter⟩ : ∃ x', illegal' = some x' ∧ x'.character = x.character := by
        simpa using hillegal
      refine .inr ⟨_, _, ?_, ?_, .character (congrArg Prod.snd hscan) (congrArg Prod.snd hscan')
        hcharacter⟩
      · simp only [readAll, hscan, hrun]
      · simp only [readAll, hscan', hrun']
    | none =>
      obtain rfl : illegal' = none := by simpa using hillegal
      have hend {text : String} {l : List Token} {r : RecordsReader Label} {e : SourceError}
          (hscan : Token.scan text = (l, none)) (hrun : RecordsReader.run {} l = .ok r)
          (hread : readAll text = .error e) : e = .endOfInput := by
        simp only [readAll, hscan, hrun] at hread
        split at hread
        · contradiction
        · cases hread
        · exact (Except.error.inj hread).symm
      cases hread : readAll source with
      | ok records =>
        obtain ⟨records', hread', hsame⟩ := exists_readAll_alike hscan hscan' hlexemes hread
        exact .inl ⟨records, records', rfl, hread', hsame⟩
      | error e =>
        cases hread' : readAll source' with
        | ok records' =>
          obtain ⟨records, hok, -⟩ := exists_readAll_alike hscan' hscan hlexemes.symm hread'
          rw [hread] at hok
          cases hok
        | error e' =>
          obtain rfl := hend hscan hrun hread
          obtain rfl := hend hscan' hrun' hread'
          exact .inr ⟨_, _, rfl, rfl, .endOfInput⟩

end

end RowSchema
