import RowSchema.Proofs.Reader.Expr
import RowSchema.Proofs.Reader.Lists
import RowSchema.Reader.Attribute

/-! # Attributes

The reader of attributes holds all that it has read, and it reads every list of attributes. -/

namespace RowSchema.Reader

open Grammar

variable {τ : Terminal → Type} {x : Sigma τ}

@[simp] theorem leaves_attributeOf (s : τ .atSign) (w : τ .word) (paren : τ .openParen)
    (list : Option (Of τ .argumentList)) (c : τ .closeParen) :
    (attributeOf s w paren list c).leaves =
      ⟨.atSign, s⟩ :: ⟨.word, w⟩ :: ⟨.openParen, paren⟩ ::
        (optionLeaves list ++ [⟨.closeParen, c⟩]) := by
  cases list <;> simp [attributeOf]

namespace AttributeReader

variable {r r' : AttributeReader τ}

/-- The tokens that have been read. -/
def leaves : AttributeReader τ → List (Sigma τ)
  | sign s => [⟨.atSign, s⟩]
  | name s w => [⟨.atSign, s⟩, ⟨.word, w⟩]
  | arguments s w paren reader =>
    ⟨.atSign, s⟩ :: ⟨.word, w⟩ :: ⟨.openParen, paren⟩ :: reader.leaves

theorem leaves_feed (h : r.feed x = some r') : r'.leaves = r.leaves ++ [x] := by
  unfold feed at h
  split at h
  · obtain rfl := Option.some.inj h
    simp [leaves]
  · obtain rfl := Option.some.inj h
    simp [leaves, ExprReader.arguments, ExprReader.leaves, Frame.leaves, ExprPart.leaves,
      calleeLeaves, Listed.leaves, labelLeaves]
  · obtain ⟨reader, hfeed, rfl⟩ := Option.map_eq_some_iff.mp h
    simp [leaves, ExprReader.leaves_feed hfeed]
  · cases h

theorem leaves_of_attribute? {t : Of τ .attributeItem} (h : r.attribute? = some t) :
    t.leaves = r.leaves := by
  unfold attribute? at h
  split at h
  · obtain rfl := Option.some.inj h
    simp [leaves]
  · obtain rfl := Option.some.inj h
    simp [leaves, ExprReader.leaves, ExprPart.leaves]
  · cases h

theorem feed_of_attribute? {t : Of τ .attributeItem} (h : r.attribute? = some t)
    (hx : x.1 ≠ .openParen) : r.feed x = none := by
  unfold attribute? at h
  split at h
  · unfold feed
    split <;> first | rfl | contradiction
  · rfl
  · cases h

/-- An attribute after its sign. -/
theorem reads_attribute (t : Of τ .attributeItem) :
    ∃ (s : τ .atSign) (rest : List (Sigma τ)) (r : AttributeReader τ),
      t.leaves = ⟨.atSign, s⟩ :: rest ∧ Reads feed (.sign s) rest r ∧ r.attribute? = some t := by
  have hword (s : τ .atSign) (w : τ .word) : feed (.sign s) ⟨.word, w⟩ = some (.name s w) := rfl
  have hparen (s : τ .atSign) (w : τ .word) (paren : τ .openParen) :
      feed (.name s w) ⟨.openParen, paren⟩ = some (.arguments s w paren .arguments) := rfl
  -- with parentheses, whether there are arguments in them or not
  have hlist (s : τ .atSign) (w : τ .word) (paren : τ .openParen)
      (list : Option (Of τ .argumentList)) (c : τ .closeParen) :
      Reads feed (.sign s)
        (⟨.word, w⟩ :: ⟨.openParen, paren⟩ :: (optionLeaves list ++ [⟨.closeParen, c⟩]))
        (.arguments s w paren ⟨[], .closed list c⟩) := by
    refine Reads.cons (hword s w) (Reads.cons (hparen s w paren) ?_)
    exact (ExprReader.reads_arguments list c).lift fun r x r' h => by simp [feed, h]
  cases t with
  | node p children =>
    cases p with
    | attributeBare =>
      match children with
      | .cons (.leaf s) (.cons (.leaf w) .nil) =>
        exact ⟨s, [⟨.word, w⟩], .name s w, by simp, .one rfl, rfl⟩
    | attributeEmpty =>
      match children with
      | .cons (.leaf s) (.cons (.leaf w) (.cons (.leaf paren) (.cons (.leaf c) .nil))) =>
        exact ⟨s, _, _, by simp, hlist s w paren none c, rfl⟩
    | attributeArguments =>
      match children with
      | .cons (.leaf s) (.cons (.leaf w) (.cons (.leaf paren) (.cons list
          (.cons (.leaf c) .nil)))) =>
        exact ⟨s, _, _, by simp, hlist s w paren (some list) c, rfl⟩

end AttributeReader

namespace AttributesReader

variable {r r' : AttributesReader τ}

/-- The tokens that have been read. -/
def leaves (r : AttributesReader τ) : List (Sigma τ) := optionLeaves r.done ++ r.current.leaves

theorem leaves_of_attributes? {t : Of τ .attributeList} (h : r.attributes? = some t) :
    t.leaves = r.leaves := by
  obtain ⟨a, ha, rfl⟩ := Option.map_eq_some_iff.mp h
  simp [leaves, AttributeReader.leaves_of_attribute? ha]

theorem leaves_feed (h : r.feed x = some r') : r'.leaves = r.leaves ++ [x] := by
  unfold feed at h
  split at h
  · next current hfeed =>
    obtain rfl := Option.some.inj h
    simp [leaves, AttributeReader.leaves_feed hfeed]
  · split at h
    · next hdone _ =>
      obtain rfl := Option.some.inj h
      rw [← leaves_of_attributes? hdone]
      rfl
    · cases h

theorem feed_of_attributes? {t : Of τ .attributeList} (h : r.attributes? = some t)
    (hparen : x.1 ≠ .openParen) (hsign : x.1 ≠ .atSign) : r.feed x = none := by
  obtain ⟨a, ha, rfl⟩ := Option.map_eq_some_iff.mp h
  simp only [feed, AttributeReader.feed_of_attribute? ha hparen]
  split <;> first | rfl | exact absurd rfl hsign

theorem attributeList_eq (t : Of τ .attributeList) :
    ∃ (done : Option (Of τ .attributeList)) (a : Of τ .attributeItem),
      append .attributeFirst .attributeMore done a = t := by
  cases t with
  | node p children =>
    cases p with
    | attributeFirst =>
      match children with
      | .cons a .nil => exact ⟨none, a, rfl⟩
    | attributeMore =>
      match children with
      | .cons attributes (.cons a .nil) => exact ⟨some attributes, a, rfl⟩

/-- The next token of attributes, the first of which may not have begun. -/
def feed? (r : Option (AttributesReader τ)) (x : Sigma τ) :
    Option (Option (AttributesReader τ)) :=
  match r, x with
  | none, ⟨.atSign, s⟩ => some (some { current := .sign s })
  | none, _ => none
  | some r, x => (r.feed x).map some

/-- Either the first sign is read, or the attributes go on. -/
theorem feed?_cases {r r' : Option (AttributesReader τ)} (h : feed? r x = some r') :
    (∃ s : τ .atSign, r = none ∧ x = ⟨.atSign, s⟩ ∧ r' = some { current := .sign s }) ∨
      ∃ reader reader' : AttributesReader τ, r = some reader ∧ reader.feed x = some reader' ∧
        r' = some reader' := by
  unfold feed? at h
  split at h
  · exact .inl ⟨_, rfl, rfl, (Option.some.inj h).symm⟩
  · cases h
  · obtain ⟨reader', hfeed, hr'⟩ := Option.map_eq_some_iff.mp h
    exact .inr ⟨_, reader', rfl, hfeed, hr'.symm⟩

theorem reads_attributes (t : Of τ .attributeList) : ∃ r : AttributesReader τ,
    Reads feed? none t.leaves (some r) ∧ r.attributes? = some t := by
  let state (done : Option (Of τ .attributeList)) (current : AttributeReader τ) :
      Option (AttributesReader τ) := some { done, current }
  have hcurrent (done : Option (Of τ .attributeList)) (r : AttributeReader τ) (x : Sigma τ)
      (r' : AttributeReader τ) (h : r.feed x = some r') :
      feed? (state done r) x = some (state done r') := by
    simp [state, feed?, feed, h]
  have hfirst (a : Of τ .attributeItem) : ∃ r : AttributeReader τ,
      Reads feed? none a.leaves (state none r) ∧ r.attribute? = some a := by
    obtain ⟨s, rest, r, hleaves, hread, ha⟩ := AttributeReader.reads_attribute a
    have hrest : Reads feed? (state none (.sign s)) rest (state none r) :=
      hread.lift (hcurrent none)
    rw [hleaves]
    exact ⟨r, Reads.cons rfl hrest, ha⟩
  have hmore (done : Option (Of τ .attributeList)) (last : AttributeReader τ)
      (b a : Of τ .attributeItem) (hb : last.attribute? = some b) : ∃ r : AttributeReader τ,
      Reads feed? (state done last) a.leaves
        (state (some (append .attributeFirst .attributeMore done b)) r) ∧
        r.attribute? = some a := by
    obtain ⟨s, rest, r, hleaves, hread, ha⟩ := AttributeReader.reads_attribute a
    have hnone : last.feed ⟨.atSign, s⟩ = none :=
      AttributeReader.feed_of_attribute? hb (by simp)
    have hsign : feed? (state done last) ⟨.atSign, s⟩ =
        some (state (some (append .attributeFirst .attributeMore done b)) (.sign s)) := by
      simp [state, feed?, feed, hnone, attributes?, hb]
    have hrest : Reads feed? (state (some (append .attributeFirst .attributeMore done b)) (.sign s))
        rest (state (some (append .attributeFirst .attributeMore done b)) r) :=
      hread.lift (hcurrent _)
    rw [hleaves]
    exact ⟨r, Reads.cons hsign hrest, ha⟩
  obtain ⟨done, r, a, hread, ha, rfl⟩ :=
    reads_append feed? state none AttributeReader.attribute? attributeList_eq hfirst hmore t
  exact ⟨{ done, current := r }, hread, by simp [attributes?, ha]⟩

end AttributesReader

end RowSchema.Reader
