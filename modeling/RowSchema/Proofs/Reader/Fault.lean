import RowSchema.Proofs.Reader.Completion
import RowSchema.Proofs.Reader.Source
import RowSchema.Proofs.Token.Pieces

/-! # The first fault of a text

A text that is refused has a first fault: a token that no text has after the tokens before it, the
end of the text, or a character that no token begins with. The error names that fault, because the
reader takes a token exactly if some text goes on with it. -/

namespace RowSchema

open Grammar Reader

/-! ## Beginnings of texts -/

/-- Reading can be stopped anywhere. -/
theorem Reader.Reads.of_append {α γ : Type} {feed : α → γ → Option α} {r r'' : α} {xs ys : List γ}
    (h : Reads feed r (xs ++ ys) r'') : ∃ r', Reads feed r xs r' ∧ Reads feed r' ys r'' := by
  unfold Reads at h
  rw [List.foldlM_append] at h
  exact Option.bind_eq_some_iff.mp h

namespace Grammar

/-- Some complete text begins with tokens of these kinds. -/
def Viable (kinds : List Terminal) : Prop :=
  ∃ (d : Shape .declarations) (rest : List Terminal), d.kinds = kinds ++ rest

theorem label_nonempty (k : Terminal) : Nonempty (Label k) := by
  cases k <;> exact ⟨⟨default, default⟩⟩

/-- The reader takes tokens just as long as some complete text begins with them. -/
theorem viable_iff {tokens : List Token} :
    Viable (tokens.map Token.kind) ↔
      ∃ r, Reads RecordsReader.feed {} (tokens.map label) r := by
  let fill (k : Terminal) : Label k := Classical.choice (label_nonempty k)
  constructor
  · rintro ⟨d, rest, hd⟩
    have hkinds : d.kinds =
        (tokens.map label ++ rest.map fun k => (⟨k, fill k⟩ : Sigma Label)).map Sigma.fst := by
      rw [hd, List.map_append, List.map_map, List.map_map]
      simp [Function.comp_def, label, Token.kind]
    obtain ⟨t, -, ht⟩ := d.exists_shape _ hkinds
    obtain ⟨last, hread, -⟩ := RecordsReader.reads_iff.mpr ht
    obtain ⟨r, hr, -⟩ := hread.of_append
    exact ⟨r, hr⟩
  · rintro ⟨r, hread⟩
    have hsound : r.Sound := hread.keeps RecordsReader.sound_feed trivial
    obtain ⟨xs, last, hmore, t, ht⟩ := RecordsReader.completes fill hsound
    have hleaves : t.leaves = tokens.map label ++ xs :=
      RecordsReader.reads_iff.mp ⟨last, hread.append hmore, ht⟩
    refine ⟨t.shape, xs.map Sigma.fst, ?_⟩
    rw [t.kinds_shape, Tree.kinds, hleaves, List.map_append, List.map_map]
    rfl

end Grammar

/-! ## Faults -/

namespace Token.Pieces

theorem exists_tokens_eq {pieces : Pieces} {line offset : Nat} {before after : List Token}
    {t : Token} (h : pieces.tokens line offset = before ++ t :: after) :
    ∃ front back, pieces = front ++ back ∧ front.tokens line offset = before ++ [t] := by
  induction pieces generalizing line offset before with
  | nil => simp [tokens] at h
  | cons piece pieces ih =>
    obtain ⟨p, cs⟩ := piece
    cases p with
    | gap =>
      obtain ⟨front, back, rfl, hfront⟩ := ih (by simpa [tokens] using h)
      exact ⟨(.gap, cs) :: front, back, rfl, by simpa [tokens] using hfront⟩
    | lexeme l =>
      cases before with
      | nil =>
        obtain ⟨rfl, -⟩ := List.cons.inj h
        exact ⟨[(.lexeme l, cs)], pieces, rfl, rfl⟩
      | cons first before =>
        obtain ⟨rfl, hrest⟩ := List.cons.inj h
        obtain ⟨front, back, rfl, hfront⟩ := ih hrest
        exact ⟨(.lexeme l, cs) :: front, back, rfl, by simp [tokens, hfront]⟩

end Token.Pieces

namespace Reader.RecordsReader

variable {r r' : RecordsReader Label} {tokens before after : List Token} {t : Token}

theorem run_eq_error_iff : r.run tokens = .error t ↔
    ∃ before after r', tokens = before ++ t :: after ∧
      Reads feed r (before.map label) r' ∧ r'.feed (label t) = none := by
  constructor
  · intro h
    induction tokens generalizing r with
    | nil => cases h
    | cons first rest ih =>
      simp only [run] at h
      split at h
      · next next hnext =>
        obtain ⟨before, after, r', rfl, hread, hnone⟩ := ih h
        exact ⟨first :: before, after, r', rfl, .cons hnext hread, hnone⟩
      · next hnone =>
        cases h
        exact ⟨[], rest, r, rfl, .nil, hnone⟩
  · rintro ⟨before, after, r', rfl, hread, hnone⟩
    induction before generalizing r with
    | nil =>
      obtain rfl : r = r' := by simpa [Reads] using hread
      simp [run, hnone]
    | cons first before ih =>
      unfold Reads at hread
      rw [List.map_cons, List.foldlM_cons] at hread
      obtain ⟨next, hnext, hrest⟩ := Option.bind_eq_some_iff.mp hread
      simp only [List.cons_append, run, hnext]
      exact ih hrest

/-- The token that ends the run is the first one that no text has at its place. -/
theorem run_eq_error_iff_viable : run {} tokens = .error t ↔
    ∃ before after, tokens = before ++ t :: after ∧ Viable (before.map Token.kind) ∧
      ¬ Viable ((before ++ [t]).map Token.kind) := by
  rw [run_eq_error_iff]
  constructor
  · rintro ⟨before, after, r', rfl, hread, hnone⟩
    refine ⟨before, after, rfl, viable_iff.mpr ⟨r', hread⟩, fun hviable => ?_⟩
    obtain ⟨last, hlast⟩ := viable_iff.mp hviable
    rw [List.map_append] at hlast
    obtain ⟨middle, hmiddle, hstep⟩ := hlast.of_append
    obtain rfl := hmiddle.unique hread
    simp [Reads, hnone] at hstep
  · rintro ⟨before, after, rfl, hviable, hnot⟩
    obtain ⟨r', hread⟩ := viable_iff.mp hviable
    refine ⟨before, after, r', rfl, hread, ?_⟩
    by_contra hsome
    obtain ⟨last, hlast⟩ := Option.ne_none_iff_exists'.mp hsome
    refine hnot (viable_iff.mpr ⟨last, ?_⟩)
    rw [List.map_append]
    exact hread.snoc hlast

theorem run_eq_ok_of_viable (h : Viable (tokens.map Token.kind)) : ∃ r, run {} tokens = .ok r := by
  obtain ⟨r, hread⟩ := viable_iff.mp h
  exact ⟨r, run_eq_ok_iff.mpr hread⟩

end Reader.RecordsReader

open Token in
/-- What the error names is a fault of the text, and all that comes before it is the beginning of
some complete text. -/
def FirstFault (source : String) : SourceError → Prop
  | .unexpected shown offset => ∃ pieces rest before t, Cut source.toList pieces rest ∧
      pieces.tokens 1 0 = before ++ [t] ∧ shown = t.lexeme.shown ∧ offset = t.span.start ∧
      Viable (before.map Token.kind) ∧ ¬ Viable ((before ++ [t]).map Token.kind)
  | .illegal c offset => ∃ pieces rest, Cut source.toList pieces (c :: rest) ∧
      piece? c rest = none ∧ offset = pieces.chars.length ∧
      Viable ((pieces.tokens 1 0).map Token.kind)
  | .endOfInput => ∃ pieces, Cut source.toList pieces [] ∧
      Viable ((pieces.tokens 1 0).map Token.kind) ∧
      ¬ ∃ d : Shape .declarations, d.kinds = (pieces.tokens 1 0).map Token.kind

namespace Record

variable {source : String} {e : SourceError}

open Token

theorem firstFault_of_error (h : readAll source = .error e) : FirstFault source e := by
  obtain ⟨pieces, rest, hcut, hrest⟩ := exists_cut source.toList
  have htokens : (scan source).1 = pieces.tokens 1 0 := by
    rw [scan, scanFrom_cut hcut]
    rcases hrest with rfl | ⟨c, after, rfl, hpiece⟩
    · simp [scanFrom]
    · simp [scanFrom, hpiece]
  have hread := h
  unfold readAll at h
  simp only [htokens] at h
  split at h
  · next t hrun =>
    obtain rfl := Except.error.inj h
    obtain ⟨before, after, heq, hviable, hnot⟩ := RecordsReader.run_eq_error_iff_viable.mp hrun
    obtain ⟨front, back, rfl, hfront⟩ := Pieces.exists_tokens_eq heq
    obtain ⟨middle, hcut, -⟩ := hcut.split
    exact ⟨front, middle, before, t, hcut, hfront, rfl, rfl, hviable, hnot⟩
  · next r hrun =>
    have hviable : Viable ((pieces.tokens 1 0).map Token.kind) :=
      viable_iff.mpr ⟨r, RecordsReader.run_eq_ok_iff.mp hrun⟩
    rcases hrest with rfl | ⟨c, after, rfl, hpiece⟩
    · have hscan := (scan_of_cut hcut).1 rfl
      have hend : e = .endOfInput := by
        simp only [hscan] at h
        split at h
        · contradiction
        · cases h
        · exact (Except.error.inj h).symm
      subst hend
      refine ⟨pieces, hcut, hviable, fun hd => ?_⟩
      obtain ⟨records, hrecords⟩ := (exists_readAll_iff hscan).mpr hd
      rw [hread] at hrecords
      cases hrecords
    · simp only [(scan_of_cut hcut).2 c after rfl hpiece] at h
      obtain rfl := Except.error.inj h
      exact ⟨pieces, after, hcut, hpiece, rfl, hviable⟩

theorem error_of_firstFault (h : FirstFault source e) : readAll source = .error e := by
  cases e with
  | unexpected shown offset =>
    obtain ⟨pieces, rest, before, t, hcut, htokens, rfl, rfl, hviable, hnot⟩ := h
    have hrun : RecordsReader.run {} (scan source).1 = .error t := by
      rw [scan, scanFrom_cut hcut, htokens]
      exact RecordsReader.run_eq_error_iff_viable.mpr
        ⟨before, _, List.append_assoc before [t] _, hviable, hnot⟩
    simp [readAll, hrun]
  | illegal c offset =>
    obtain ⟨pieces, rest, hcut, hpiece, rfl, hviable⟩ := h
    obtain ⟨r, hrun⟩ := RecordsReader.run_eq_ok_of_viable hviable
    simp [readAll, (scan_of_cut hcut).2 c rest rfl hpiece, hrun]
  | endOfInput =>
    obtain ⟨pieces, hcut, hviable, hnone⟩ := h
    have hscan := (scan_of_cut hcut).1 rfl
    obtain ⟨r, hrun⟩ := RecordsReader.run_eq_ok_of_viable hviable
    cases ht : r.declarations? with
    | none => simp [readAll, hscan, hrun, ht]
    | some t =>
      have hread : readAll source = .ok t.records := by
        simp [readAll, hscan, hrun, ht]
      exact absurd ((exists_readAll_iff hscan).mp ⟨_, hread⟩) hnone

/-- A text is refused with exactly the error that names its first fault. -/
theorem readAll_eq_error_iff : readAll source = .error e ↔ FirstFault source e :=
  ⟨firstFault_of_error, error_of_firstFault⟩

-- the illegal character comes after a token that is already a fault
example : readAll "struct \x7b $" = .error (.unexpected "\x7b" 7) := by
  rw [readAll]
  conv in Token.scan _ => cbv
  rfl

end Record

end RowSchema
