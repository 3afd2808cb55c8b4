import RowSchema.ColumnSpec
import RowSchema.Proofs.Reader.Replaced

/-! # Arguments and attributes removed from a text

An attribute of a record that is read stands in the text, so its argument can be removed there, or
the attribute as a whole. A field that is declared with `var` can be declared with `let` there. -/

namespace RowSchema

open Grammar Reader Token

/-- The attributes of the record itself, of its fields and of its cases. -/
def Record.allAttributes (r : Record) : List Attribute :=
  r.attributes ++ (r.fields.flatMap Field.attributes ++ r.cases.flatMap Case.attributes)

/-- The replacement can be read back: no line breaks in it, it is not joined with what comes after
it, and the floats in the arguments that it is written from are read back from their texts. -/
structure Span.Rewritable (s : Span) (source replacement : String) (arguments : List Argument) :
    Prop where
  line : '\n' ∉ replacement.toList
  apart : ¬ s.Joins source replacement
  floats : ∀ token ∈ (Token.scan source).1, ∀ x, token.lexeme = .float x →
    ∀ a ∈ arguments, ∀ t, a.span = some t → token.span.Inside t → Decimal.ReadsBack x

/-! ## Edits that change something -/

namespace Edit

variable {e : Edit} {r : Record}

/-- An edit that leaves some attributes as many leaves out none. -/
theorem revised_ne_none {as : List Attribute} (h : (e.attributes as).length = as.length)
    {a : Attribute} (ha : a ∈ as) : e.revised a ≠ none := by
  intro hnone
  obtain ⟨front, back, rfl⟩ := List.mem_iff_append.mp ha
  have hfront := List.length_filterMap_le e.revised front
  have hback := List.length_filterMap_le e.revised back
  simp only [attributes, List.filterMap_append, List.filterMap_cons, hnone, List.length_append,
    List.length_cons] at h
  omega

/-- An edit that leaves a record as it is leaves out none of its attributes. -/
theorem revised_ne_none_of_record (h : r.unplaced = (e.record r).unplaced) {a : Attribute}
    (ha : a ∈ r.allAttributes) : e.revised a ≠ none := by
  have hlength {as : List Attribute}
      (has : as.map Attribute.unplaced = (e.attributes as).map Attribute.unplaced) :
      (e.attributes as).length = as.length := by
    simpa using (congrArg List.length has).symm
  rcases List.mem_append.mp ha with ha | ha
  · exact revised_ne_none (hlength (congrArg Record.attributes h)) ha
  rcases List.mem_append.mp ha with ha | ha
  · obtain ⟨f, hf, ha⟩ := List.mem_flatMap.mp ha
    have hfields : r.fields.map Field.unplaced = (r.fields.map e.field).map Field.unplaced :=
      congrArg Record.fields h
    rw [List.map_map, List.map_inj_left] at hfields
    exact revised_ne_none (hlength (congrArg Field.attributes (hfields f hf))) ha
  · obtain ⟨c, hc, ha⟩ := List.mem_flatMap.mp ha
    have hcases : r.cases.map Case.unplaced = (r.cases.map e.case).map Case.unplaced :=
      congrArg Record.cases h
    rw [List.map_map, List.map_inj_left] at hcases
    exact revised_ne_none (hlength (congrArg Case.attributes (hcases c hc))) ha

/-- An edit that leaves a record as it is leaves its mutable fields mutable. -/
theorem staysMutable_of_record (h : r.unplaced = (e.record r).unplaced) {f : Field}
    (hf : f ∈ r.fields) (hmutable : f.isMutable = true) : e.staysMutable f.bindingSpan = true := by
  have hfields : r.fields.map Field.unplaced = (r.fields.map e.field).map Field.unplaced :=
    congrArg Record.fields h
  rw [List.map_map, List.map_inj_left] at hfields
  have hsame : f.isMutable = (f.isMutable && e.staysMutable f.bindingSpan) :=
    congrArg Field.isMutable (hfields f hf)
  simpa [hmutable] using hsame.symm

theorem removeArgument_changesAt (s : Span) (i : Nat) : (removeArgument s i).ChangesAt s :=
  ⟨fun _ ha => congrArg some (if_neg ha), fun _ _ => rfl⟩

theorem removeAttribute_changesAt (s : Span) : (removeAttribute s).ChangesAt s :=
  ⟨fun _ ha => if_neg ha, fun _ _ => rfl⟩

theorem declareLet_changesAt (s : Span) : (declareLet s).ChangesAt s :=
  ⟨fun _ _ => rfl, fun _ ht => bne_iff_ne.mpr fun h => ht (Option.some.inj h)⟩

end Edit

/-! ## Where attributes and keywords stand -/

namespace Grammar

variable {t : Of Label .declarations} {r : Record}

/-- The part is that attribute. -/
def IsAttribute (a : Attribute) : (n : Nonterminal) → Of Label n → Prop
  | .attributeItem, u => u.located.value = a
  | _, _ => False

/-- The part is a keyword of fields, at that span. -/
def IsKeyword (s : Span) : (n : Nonterminal) → Of Label n → Prop
  | .bindingKeyword, u => u.located.span = s
  | _, _ => False

/-- Where an edit changes no part of a text, it leaves the records of the text as they are. -/
theorem unplaced_eq_of_not_has {e : Edit} {P : PartProp}
    (hkeeps : ∀ n f u b, ¬ P n f u b → e.Keeps n u.located) (hnot : ¬ t.Has P [] [])
    (hr : r ∈ t.records) : r.unplaced = (e.record r).unplaced := by
  have hall : t.records.map Record.unplaced = t.records.map fun r => (e.record r).unplaced :=
    t.edits_of_bare t (t.kept_of_not_has hkeeps hnot) rfl
  exact List.map_inj_left.mp hall r hr

/-- Each attribute of a record is a part of the text that the record is read from. -/
theorem has_attribute (hr : r ∈ t.records) {a : Attribute} (ha : a ∈ r.allAttributes) :
    t.Has (fun n _ u _ => IsAttribute a n u) [] [] := by
  classical
  -- otherwise an edit that leaves out this attribute alone would leave the record as it is
  by_contra hnot
  let e : Edit := { revised := fun b => if b = a then none else some b }
  have hsame : r.unplaced = (e.record r).unplaced := by
    refine unplaced_eq_of_not_has (fun n _ u _ hn => ?_) hnot hr
    cases n with
    | attributeItem => exact if_neg hn
    | bindingKeyword => rfl
    | _ => trivial
  exact Edit.revised_ne_none_of_record hsame ha (if_pos rfl)

/-- The keyword of each mutable field of a record is a part of the text. -/
theorem has_keyword (hr : r ∈ t.records) {f : Field} (hf : f ∈ r.fields)
    (hmutable : f.isMutable = true) {s : Span} (hs : f.bindingSpan = some s) :
    t.Has (fun n _ u _ => IsKeyword s n u) [] [] := by
  -- otherwise the field would be as mutable after the edit as before
  by_contra hnot
  have hsame : r.unplaced = ((Edit.declareLet s).record r).unplaced := by
    refine unplaced_eq_of_not_has (fun n _ u _ hn => ?_) hnot hr
    cases n with
    | attributeItem => rfl
    | bindingKeyword => exact (Edit.declareLet_changesAt s).stays _ hn
    | _ => trivial
  have hstays := Edit.staysMutable_of_record hsame hf hmutable
  simp [Edit.declareLet, hs] at hstays

/-! ## Edits that are carried out -/

theorem span_argument (u : Of Label .argument) : u.located.value.span = some u.located.span := by
  cases u with
  | node p children => cases p <;> rfl

section

variable {source : String} {pieces : Pieces} (hcut : Cut source.toList pieces [])

include hcut

/-- A name among the tokens of a text is a word. -/
theorem isWord_of_mem {name : Label .word}
    (h : ⟨.word, name⟩ ∈ (pieces.tokens 1 0).map label) : IsWord name.value := by
  obtain ⟨⟨l, span, line⟩, hx, heq⟩ := List.mem_map.mp h
  cases l with
  | word text =>
    cases heq
    refine hcut.isWord ?_
    rw [← Pieces.map_lexeme_tokens pieces 1 0]
    exact List.mem_map_of_mem hx
  | _ => cases heq

/-- The tokens of an argument can be written down again. -/
theorem legible_argument {v : Of Label .argument}
    (hpart : v.leaves <:+: (pieces.tokens 1 0).map label)
    (hfloats : ∀ token ∈ pieces.tokens 1 0, ∀ x, token.lexeme = .float x →
      token.span.Inside v.located.span → Decimal.ReadsBack x) :
    ∀ y ∈ v.leaves, Legible y.1 y.2.value := by
  intro y hy
  obtain ⟨hne, hspan⟩ := v.spread (by simp)
  have hinside := ((Record.inOrder_tokens hcut).2.part hpart).inside_hull hy
  rw [← hspan] at hinside
  have hmem := hpart.subset hy
  obtain ⟨token, htoken, rfl⟩ := List.mem_map.mp hmem
  obtain ⟨l, span, line⟩ := token
  cases l with
  | word name => exact isWord_of_mem hcut hmem
  | float x => exact hfloats _ htoken x rfl hinside
  | _ => trivial

/-- Without one of its arguments the attribute is written as the edit leaves it. -/
theorem performs_removeArgument {u : Of Label .attributeItem} (i : Nat)
    (hpart : u.leaves <:+: (pieces.tokens 1 0).map label)
    (h : u.located.span.Rewritable source (u.located.value.sourceWithout i)
      (u.located.value.arguments.eraseIdx i)) :
    (Edit.removeArgument u.located.span i).Performs u.located.span
      (u.located.value.sourceWithout i) .attributeItem u := by
  obtain ⟨name, hname, heq⟩ := exists_name u
  have hword : IsWord u.located.value.name := heq ▸ isWord_of_mem hcut (hpart.subset hname)
  have hargument : ∀ b ∈ u.located.value.arguments.eraseIdx i, Rereads .argument b := by
    intro b hb
    obtain ⟨v, rfl, hv⟩ := exists_of_mem_arguments u (List.mem_of_mem_eraseIdx hb)
    refine v.writable (legible_argument hcut (hv.trans hpart) fun token htoken x hx hinside => ?_)
    refine h.floats token ?_ x hx _ hb _ (span_argument v) hinside
    rwa [(scan_of_cut hcut).1 rfl]
  obtain ⟨u', hvalue, hlexes⟩ := exists_attribute hword hargument h.line
  refine ⟨.inr ?_, rfl, some u', hlexes, ?_⟩
  · unfold Attribute.sourceWithout Attribute.render
    split <;> simp
  · have hrevised : (Edit.removeArgument u.located.span i).revised u.located.value =
        some { u.located.value with arguments := u.located.value.arguments.eraseIdx i } :=
      congrArg some (if_pos (span_attributeItem u))
    show some u'.located.value.unplaced = Option.map Attribute.unplaced _
    rw [hvalue, hrevised]
    rfl

end

theorem performs_removeAttribute (u : Of Label .attributeItem) :
    (Edit.removeAttribute u.located.span).Performs u.located.span "" .attributeItem u :=
  ⟨.inl rfl, rfl, none, fun _ _ => ⟨[], .done, rfl⟩, if_pos (span_attributeItem u)⟩

theorem performs_declareLet (u : Of Label .bindingKeyword) :
    (Edit.declareLet u.located.span).Performs u.located.span "let" .bindingKeyword u := by
  refine ⟨rfl, rfl, some (.of1 .letKeyword (.leaf ⟨(), ⟨0, 0⟩⟩)), fun after hafter => ?_, ?_⟩
  · exact lexes_let (hafter 't' rfl (by decide))
  · show false = (u.located.value && (some u.located.span != some u.located.span))
    simp

end Grammar

/-! ## Texts after an edit -/

namespace Record

variable {source : String} {records : List Record} {r : Record} {s : Span}
  (hread : readAll source = .ok records) (hr : r ∈ records)

include hread hr

/-- A replacement that makes the edit of an attribute wherever it stands in the text. -/
theorem exists_readAll_attribute {a : Attribute} (ha : a ∈ r.allAttributes) (hs : a.span = some s)
    {e : Edit} {replacement : String} (he : e.ChangesAt s) (hjoins : ¬ s.Joins source replacement)
    (h : ∀ (pieces : Pieces) (u : Of Label .attributeItem), Cut source.toList pieces [] →
      u.leaves <:+: (pieces.tokens 1 0).map label → u.located.value = a → u.located.span = s →
        e.Performs s replacement .attributeItem u) :
    ∃ edited, readAll (s.replaceIn source replacement) = .ok edited ∧
      edited.map unplaced = records.map fun r => (e.record r).unplaced := by
  obtain ⟨pieces, hcut, hscan⟩ := exists_cut_of_readAll hread
  obtain ⟨t, hleaves, rfl⟩ := (readAll_eq_ok_iff hscan).mp hread
  refine exists_readAll_replaced hcut hleaves he ?_ hjoins
  refine (has_attribute hr ha).leaves.imp fun n f u b hu => ?_
  obtain ⟨hattribute, hparts⟩ := hu
  cases n with
  | attributeItem =>
    obtain rfl : u.located.value = a := hattribute
    refine h pieces u hcut ?_ rfl (Option.some.inj ((span_attributeItem u).symm.trans hs))
    rw [← hleaves]
    exact ⟨f, b, by simpa using hparts⟩
  | _ => exact hattribute.elim

/-- An argument is taken out of an attribute by writing the attribute without it. -/
theorem exists_readAll_removeArgument {a : Attribute} (ha : a ∈ r.allAttributes)
    (hs : a.span = some s) (i : Nat)
    (h : s.Rewritable source (a.sourceWithout i) (a.arguments.eraseIdx i)) :
    ∃ edited, readAll (s.replaceIn source (a.sourceWithout i)) = .ok edited ∧
      edited.map unplaced = records.map fun r => ((Edit.removeArgument s i).record r).unplaced := by
  refine exists_readAll_attribute hread hr ha hs (Edit.removeArgument_changesAt s i) h.apart ?_
  rintro pieces u hcut hpart rfl rfl
  exact performs_removeArgument hcut i hpart h

/-- An attribute is removed by writing nothing in its place. -/
theorem exists_readAll_removeAttribute {a : Attribute} (ha : a ∈ r.allAttributes)
    (hs : a.span = some s) (hjoins : ¬ s.Joins source "") :
    ∃ edited, readAll (s.replaceIn source "") = .ok edited ∧
      edited.map unplaced = records.map fun r => ((Edit.removeAttribute s).record r).unplaced := by
  refine exists_readAll_attribute hread hr ha hs (Edit.removeAttribute_changesAt s) hjoins ?_
  rintro pieces u - - - rfl
  exact performs_removeAttribute u

/-- A field is declared with `let` by writing that in place of its keyword. -/
theorem exists_readAll_declareLet {f : Field} (hf : f ∈ r.fields) (hmutable : f.isMutable = true)
    (hs : f.bindingSpan = some s) (hjoins : ¬ s.Joins source "let") :
    ∃ edited, readAll (s.replaceIn source "let") = .ok edited ∧
      edited.map unplaced = records.map fun r => ((Edit.declareLet s).record r).unplaced := by
  obtain ⟨pieces, hcut, hscan⟩ := exists_cut_of_readAll hread
  obtain ⟨t, hleaves, rfl⟩ := (readAll_eq_ok_iff hscan).mp hread
  refine exists_readAll_replaced hcut hleaves (Edit.declareLet_changesAt s) ?_ hjoins
  refine (has_keyword hr hf hmutable hs).imp fun n f u b hu => ?_
  cases n with
  | bindingKeyword =>
    obtain rfl : u.located.span = s := hu
    exact performs_declareLet u
  | _ => exact hu.elim

end Record

end RowSchema
