import RowSchema.Proofs.Basic
import RowSchema.Proofs.Grammar.Placed
import RowSchema.Proofs.Reader.Source

/-! # The spans of records that are read

All spans of the records of a text point into the text, at what they are the spans of. -/

namespace RowSchema

open Grammar Reader Token

namespace Grammar

theorem placed_label {source : String} {t : Token} {offset : Nat} (h : t.Stands source offset) :
    Placed source (.token (label t).1) (label t).2 := by
  obtain ⟨lexeme, span, line⟩ := t
  have hwrites := h.writes
  cases lexeme with
  | atSign =>
    show span.textIn source = "@"
    exact String.toList_injective hwrites
  | word name =>
    show span.textIn source = name
    simpa [Writes] using hwrites
  | keyword k =>
    show span.textIn source = k.text
    simpa [Writes] using hwrites
  | _ => trivial

/-- Tokens that stand in a text stretch over a part of it. -/
theorem hull_inside {source : String} {tokens : List Token} (hne : tokens ≠ [])
    (hstands : ∀ t ∈ tokens, t.Stands source 0) (horder : InOrder (tokens.map label)) :
    (hull (tokens.map label)).Inside ⟨0, source.toList.length⟩ := by
  have hproper := horder.hull_proper (by simpa using hne)
  have hfirst := (hstands _ (List.head_mem hne)).start
  have hlast := (hstands _ (List.getLast_mem hne)).stop
  refine ⟨?_, hproper, ?_⟩
  · simpa [hull, List.head?_eq_some_head hne, label] using hfirst
  · simpa [hull, List.getLast?_eq_some_getLast hne, label] using hlast

/-- A whole text is empty or a list of declarations. -/
theorem declarations_eq {τ : Terminal → Type} (t : Of τ .declarations) :
    t = .node .declarationsEmpty .nil ∨ ∃ list, t = .of1 .declarations list := by
  cases t with
  | node p children =>
    cases p with
    | declarations =>
      match children with
      | .cons list .nil => exact .inr ⟨list, rfl⟩
    | declarationsEmpty =>
      match children with
      | .nil => exact .inl rfl

end Grammar

namespace Record

variable {source : String} {records : List Record}

/-- A text that is read is cut into pieces up to its end. -/
theorem exists_cut_of_readAll (h : readAll source = .ok records) :
    ∃ pieces : Pieces, Cut source.toList pieces [] ∧
      Token.scan source = (pieces.tokens 1 0, none) := by
  obtain ⟨pieces, rest, hcut, hrest⟩ := exists_cut source.toList
  rcases hrest with rfl | ⟨c, after, rfl, hpiece⟩
  · exact ⟨pieces, hcut, (scan_of_cut hcut).1 rfl⟩
  · have hscan := (scan_of_cut hcut).2 c after rfl hpiece
    unfold readAll at h
    simp only [hscan] at h
    split at h <;> cases h

/-- The tokens of a text stand in it one after another. -/
theorem inOrder_tokens {pieces : Pieces} (hcut : Cut source.toList pieces []) :
    (∀ t ∈ pieces.tokens 1 0, t.Stands source 0) ∧
      InOrder ((pieces.tokens 1 0).map label) := by
  obtain ⟨hstands, hpairs⟩ := stands_of_cut hcut (List.nil_append _).symm 1
  refine ⟨hstands, ?_, List.pairwise_map.mpr hpairs⟩
  intro x hx
  obtain ⟨t, ht, rfl⟩ := List.mem_map.mp hx
  exact (hstands t ht).proper

/-- The records of a text stand in it. -/
theorem recordsIn_of_readAll (h : readAll source = .ok records) :
    RecordsIn source ⟨0, source.toList.length⟩ records := by
  obtain ⟨pieces, hcut, hscan⟩ := exists_cut_of_readAll h
  obtain ⟨hstands, horder⟩ := inOrder_tokens hcut
  obtain ⟨t, hleaves, rfl⟩ := (readAll_eq_ok_iff hscan).mp h
  have htokens : ∀ x ∈ t.leaves, Grammar.Placed source (.token x.1) x.2 := by
    intro x hx
    rw [hleaves] at hx
    obtain ⟨u, hu, rfl⟩ := List.mem_map.mp hx
    exact placed_label (hstands u hu)
  rw [← hleaves] at horder
  have hrecords : RecordsIn source t.located.span t.records := t.placed htokens horder
  obtain ⟨spans, hplaced, hpairs, hin⟩ := hrecords
  refine ⟨spans, hplaced, hpairs, fun s hs => ?_⟩
  rcases declarations_eq t with rfl | ⟨list, rfl⟩
  · obtain rfl := List.forall₂_nil_left_iff.mp hplaced
    cases hs
  · obtain ⟨hne, hspan⟩ := list.spread (by simp)
    have htokens : list.leaves = (pieces.tokens 1 0).map label := by
      simpa using hleaves
    have hlist : pieces.tokens 1 0 ≠ [] := by
      intro hnil
      rw [hnil] at htokens
      exact hne htokens
    rw [hleaves] at horder
    have houter := hull_inside hlist hstands horder
    rw [← htokens, ← hspan] at houter
    exact (hin s hs).trans houter

theorem exists_placed_of_readAll {r : Record} (h : readAll source = .ok records)
    (hr : r ∈ records) :
    ∃ span : Span, span.Inside ⟨0, source.toList.length⟩ ∧ r.Placed source span := by
  obtain ⟨spans, hplaced, -, hinside⟩ := recordsIn_of_readAll h
  obtain ⟨span, hspan, hrecord⟩ := exists_right_of_mem hplaced hr
  exact ⟨span, hinside span hspan, hrecord⟩

/-- The records of a text stand in it one after another, and whatever they declare stands where it
is written: in the record, in the declaration, in the attribute that it is a part of. -/
theorem readAll_placed (h : readAll source = .ok records) :
    ∃ spans : List Span, List.Forall₂ (Record.Placed source) records spans ∧
      spans.Pairwise Span.Before ∧ ∀ s ∈ spans, s.Inside ⟨0, source.toList.length⟩ :=
  recordsIn_of_readAll h

/-- The text of a record with one field, whose attribute has an argument. -/
theorem readAll_placed_named :
    let records : List Record :=
      [{ name := "A", span := some ⟨0, 20⟩
         fields :=
           [{ name := "a", isMutable := false
              attributes := [{ name := "C", span := some ⟨9, 14⟩
                               arguments := [⟨none, .integer 1, some ⟨12, 13⟩⟩] }]
              span := some ⟨9, 19⟩, bindingSpan := some ⟨14, 17⟩
              nameSpan := some ⟨18, 19⟩ }] }]
    readAll "struct A\x7b@C(1)let a\x7d" = .ok records ∧
      ∃ spans : List Span,
        List.Forall₂ (Record.Placed "struct A\x7b@C(1)let a\x7d") records spans ∧
        spans.Pairwise Span.Before ∧
        ∀ s ∈ spans, s.Inside ⟨0, "struct A\x7b@C(1)let a\x7d".toList.length⟩ := by
  intro records
  have hread : readAll "struct A\x7b@C(1)let a\x7d" = .ok records := by
    rw [readAll]
    conv in Token.scan _ => cbv
    rfl
  exact ⟨hread, readAll_placed hread⟩

end Record

end RowSchema
