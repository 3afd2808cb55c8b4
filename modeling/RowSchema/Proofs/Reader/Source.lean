import Mathlib
import RowSchema.Proofs.Reader.Records

/-! # Reading a text

A text is read exactly if the kinds of its tokens have a derivation. That derivation is the only
one, and the records of the text are the values of its actions. -/

namespace RowSchema

open Grammar Reader

namespace Reader.RecordsReader

variable {r r' : RecordsReader Label} {tokens : List Token} {t : Token}

theorem run_eq_ok_iff : r.run tokens = .ok r' ↔ Reads feed r (tokens.map label) r' := by
  induction tokens generalizing r with
  | nil => simp [run, Reads]
  | cons t rest ih =>
    cases hfeed : r.feed (label t) with
    | none => simp [run, Reads, hfeed]
    | some next => simp [run, Reads, hfeed, ih]

/-- The first token that is refused ends the run. -/
theorem mem_of_run_eq_error (h : r.run tokens = .error t) : t ∈ tokens := by
  induction tokens generalizing r with
  | nil => cases h
  | cons t' rest ih =>
    simp only [run] at h
    split at h
    · exact List.mem_cons_of_mem _ (ih h)
    · cases h
      exact List.mem_cons_self

end Reader.RecordsReader

namespace Grammar

/-- Derivations with the same kinds of tokens are the same. -/
theorem derivation_unique {d d' : Shape .declarations} (h : d.kinds = d'.kinds) :
    d = d' := by
  have hinjective (x y : (_ : Terminal) × Unit) (h : x.1 = y.1) : x = y := by
    obtain ⟨k, ⟨⟩⟩ := x
    obtain ⟨k', ⟨⟩⟩ := y
    obtain rfl : k = k' := h
    rfl
  exact RecordsReader.tree_unique ((List.map_inj_right hinjective).mp h)

/-- The tokens that a derivation derives have the kinds that it derives without them. -/
theorem kinds_shape_eq {t : Of Label .declarations} {tokens : List Token}
    (h : t.leaves = tokens.map label) : t.shape.kinds = tokens.map Token.kind := by
  rw [t.kinds_shape, Tree.kinds, h, List.map_map]
  rfl

end Grammar

namespace Record

variable {source : String} {tokens : List Token} {records : List Record}

theorem readAll_eq_ok_iff (hscan : Token.scan source = (tokens, none)) :
    readAll source = .ok records ↔
      ∃ t : Of Label .declarations, t.leaves = tokens.map label ∧ t.records = records := by
  unfold readAll
  rw [hscan]
  dsimp only
  constructor
  · intro h
    split at h
    · cases h
    · next r hrun =>
      split at h
      · contradiction
      · next t _ ht =>
        cases h
        exact ⟨t, RecordsReader.reads_iff.mp ⟨r, RecordsReader.run_eq_ok_iff.mp hrun, ht⟩, rfl⟩
      · cases h
  · rintro ⟨t, ht, rfl⟩
    obtain ⟨r, hread, ht⟩ := RecordsReader.reads_iff.mpr ht
    rw [RecordsReader.run_eq_ok_iff.mpr hread]
    simp [ht]

/-- A text without illegal characters is refused at one of its tokens or at its end. -/
theorem readAll_eq_error {e : SourceError} (hscan : Token.scan source = (tokens, none))
    (h : readAll source = .error e) :
    (∃ t ∈ tokens, e = .unexpected t.lexeme.shown t.span.start) ∨ e = .endOfInput := by
  unfold readAll at h
  rw [hscan] at h
  dsimp only at h
  split at h
  · next t hrun =>
    cases h
    exact .inl ⟨t, RecordsReader.mem_of_run_eq_error hrun, rfl⟩
  · split at h
    · contradiction
    · cases h
    · cases h
      exact .inr rfl

/-- A text without illegal characters is read just if the kinds of its tokens have a derivation. -/
theorem exists_readAll_iff (hscan : Token.scan source = (tokens, none)) :
    (∃ records : List Record, readAll source = .ok records) ↔
      ∃ d : Shape .declarations, d.kinds = tokens.map Token.kind := by
  constructor
  · rintro ⟨records, h⟩
    obtain ⟨t, ht, _⟩ := (readAll_eq_ok_iff hscan).mp h
    exact ⟨t.shape, kinds_shape_eq ht⟩
  · rintro ⟨d, hd⟩
    have hkinds : d.kinds = (tokens.map label).map Sigma.fst := by
      rw [hd, List.map_map]
      rfl
    obtain ⟨t, _, ht⟩ := d.exists_shape (tokens.map label) hkinds
    exact ⟨t.records, (readAll_eq_ok_iff hscan).mpr ⟨t, ht, rfl⟩⟩

/-- Reading a text without illegal characters gives records exactly if the kinds of its tokens
have a derivation; there is only one, and the records are the values of its actions. Any other
text is refused at one of its tokens or at its end. -/
theorem readAll_iff_derivation (hscan : Token.scan source = (tokens, none)) :
    (∀ records : List Record, readAll source = .ok records ↔
      ∃ (d : Shape .declarations) (t : Of Label .declarations),
        d.kinds = tokens.map Token.kind ∧ t.shape = d ∧ t.leaves = tokens.map label ∧
          t.records = records) ∧
    ((∃ records : List Record, readAll source = .ok records) ↔
      ∃ d : Shape .declarations, d.kinds = tokens.map Token.kind) ∧
    (∀ d d' : Shape .declarations, d.kinds = tokens.map Token.kind →
      d'.kinds = tokens.map Token.kind → d = d') ∧
    ((¬ ∃ d : Shape .declarations, d.kinds = tokens.map Token.kind) →
      (∃ t ∈ tokens, readAll source = .error (.unexpected t.lexeme.shown t.span.start)) ∨
        readAll source = .error .endOfInput) := by
  refine ⟨fun records => ?_, exists_readAll_iff hscan, fun d d' hd hd' => ?_, fun hnone => ?_⟩
  · rw [readAll_eq_ok_iff hscan]
    constructor
    · rintro ⟨t, ht, hrecords⟩
      exact ⟨t.shape, t, kinds_shape_eq ht, rfl, ht, hrecords⟩
    · rintro ⟨d, t, _, _, ht, hrecords⟩
      exact ⟨t, ht, hrecords⟩
  · exact derivation_unique (hd.trans hd'.symm)
  · cases hread : readAll source with
    | ok records => exact absurd ((exists_readAll_iff hscan).mp ⟨records, hread⟩) hnone
    | error e =>
      obtain ⟨t, ht, rfl⟩ | rfl := readAll_eq_error hscan hread
      · exact .inl ⟨t, ht, rfl⟩
      · exact .inr rfl

/-- The text of a record with one field. -/
theorem readAll_optional_array :
    (Token.scan "@Table struct A \x7b var x: [Int]? \x7d").2 = none ∧
    readAll "@Table struct A \x7b var x: [Int]? \x7d" =
      .ok [{ name := "A", kind := .struct, span := some ⟨0, 33⟩,
             attributes := [{ name := "Table", span := some ⟨0, 6⟩ }],
             fields :=
               [{ name := "x", type := some { name := "Int", isOptional := true, isArray := true },
                  span := some ⟨18, 31⟩, bindingSpan := some ⟨18, 21⟩,
                  nameSpan := some ⟨22, 23⟩ }] }] := by
  have hscan : (Token.scan "@Table struct A \x7b var x: [Int]? \x7d").2 = none := by
    cbv
  refine ⟨hscan, ((readAll_iff_derivation (Prod.ext rfl hscan)).1 _).mpr ⟨_, ?_, ?_, rfl, ?_, ?_⟩⟩
  · exact .of1 .declarations (.of1 .declarationFirst (.of3 .declarationAttributed
      (.of1 .attributeFirst (.of2 .attributeBare (.leaf ⟨(), 0, 1⟩) (.leaf ⟨"Table", 1, 6⟩)))
      (.of2 .header (.of1 .structKeyword (.leaf ⟨(), 7, 13⟩)) (.leaf ⟨"A", 14, 15⟩))
      (.of3 .body (.leaf ⟨(), 16, 17⟩)
        (.of1 .memberFirst (.of1 .memberField (.of2 .field
          (.of1 .varKeyword (.leaf ⟨(), 18, 21⟩))
          (.of1 .bindingFirst (.of3 .bindingTyped (.leaf ⟨"x", 22, 23⟩) (.leaf ⟨(), 23, 24⟩)
            (.of2 .typeOptional
              (.of3 .baseArray (.leaf ⟨(), 25, 26⟩)
                (.of1 .type (.of1 .baseNamed (.of1 .dottedFirst (.leaf ⟨"Int", 26, 29⟩))))
                (.leaf ⟨(), 29, 30⟩))
              (.leaf ⟨(), 30, 31⟩)))))))
        (.leaf ⟨(), 32, 33⟩))))
  · cbv
  · cbv
  · rfl

end Record

end RowSchema
