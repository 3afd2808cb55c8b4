import RowSchema.Proofs.Reader.Attribute
import RowSchema.Proofs.Reader.Case
import RowSchema.Proofs.Reader.Field
import RowSchema.Reader.Records

/-! # Members of records

The reader of members holds all that it has read, and it reads every member. -/

namespace RowSchema.Reader

open Grammar

variable {τ : Terminal → Type} {x : Sigma τ} {shared : Option (Of τ .attributeList)}

@[simp] theorem leaves_fieldMember (d : Of τ .fieldDecl) :
    (fieldMember shared d).leaves = optionLeaves shared ++ d.leaves := by
  cases shared <;> simp [fieldMember]

@[simp] theorem leaves_caseMember (d : Of τ .caseDecl) :
    (caseMember shared d).leaves = optionLeaves shared ++ d.leaves := by
  cases shared <;> simp [caseMember]

theorem leaves_of_bindingKeyword? {k : Of τ .bindingKeyword} (h : bindingKeyword? x = some k) :
    k.leaves = [x] := by
  unfold bindingKeyword? at h
  split at h
  · obtain rfl := Option.some.inj h
    simp
  · obtain rfl := Option.some.inj h
    simp
  · cases h

namespace MemberReader

variable {r r' : MemberReader τ}

/-- The tokens that have been read. -/
def leaves : MemberReader τ → List (Sigma τ)
  | separator s => [⟨.semicolon, s⟩]
  | attributes reader => reader.leaves
  | static shared s => optionLeaves shared ++ [⟨.keyword .staticWord, s⟩]
  | field shared reader => optionLeaves shared ++ reader.leaves
  | cases shared reader => optionLeaves shared ++ reader.leaves

theorem leaves_declarationStart (h : declarationStart shared x = some r) :
    r.leaves = optionLeaves shared ++ [x] := by
  unfold declarationStart at h
  split at h
  · obtain rfl := Option.some.inj h
    rfl
  · obtain rfl := Option.some.inj h
    simp [leaves, CasesReader.leaves, Listed.leaves, ItemPart.leaves]
  · obtain ⟨k, hk, rfl⟩ := Option.map_eq_some_iff.mp h
    simp [leaves, FieldReader.leaves, staticLeaves, leaves_of_bindingKeyword? hk, Listed.leaves,
      BindingReader.leaves]

theorem leaves_memberStart (h : memberStart x = some r) : r.leaves = [x] := by
  unfold memberStart at h
  split at h
  · obtain rfl := Option.some.inj h
    rfl
  · obtain rfl := Option.some.inj h
    simp [leaves, AttributesReader.leaves, AttributeReader.leaves]
  · simpa using leaves_declarationStart h

theorem leaves_feed (h : r.feed x = some r') : r'.leaves = r.leaves ++ [x] := by
  cases r with
  | separator s => cases h
  | attributes reader =>
    simp only [feed] at h
    split at h
    · next reader' hfeed =>
      obtain rfl := Option.some.inj h
      exact AttributesReader.leaves_feed hfeed
    · obtain ⟨done, hdone, hstart⟩ := Option.bind_eq_some_iff.mp h
      rw [leaves_declarationStart hstart, leaves, ← AttributesReader.leaves_of_attributes? hdone]
      rfl
  | static shared s =>
    obtain ⟨k, hk, rfl⟩ := Option.map_eq_some_iff.mp h
    simp [leaves, FieldReader.leaves, staticLeaves, leaves_of_bindingKeyword? hk, Listed.leaves,
      BindingReader.leaves]
  | field shared reader =>
    obtain ⟨reader', hfeed, rfl⟩ := Option.map_eq_some_iff.mp h
    simp [leaves, FieldReader.leaves_feed hfeed]
  | cases shared reader =>
    obtain ⟨reader', hfeed, rfl⟩ := Option.map_eq_some_iff.mp h
    simp [leaves, CasesReader.leaves_feed hfeed]

theorem leaves_of_member? {t : Of τ .member} (h : r.member? = some t) : t.leaves = r.leaves := by
  cases r with
  | separator s =>
    obtain rfl := Option.some.inj h
    simp [leaves]
  | attributes reader => cases h
  | static shared s => cases h
  | field shared reader =>
    obtain ⟨d, hd, rfl⟩ := Option.map_eq_some_iff.mp h
    simp [leaves, FieldReader.leaves_of_field? hd]
  | cases shared reader =>
    obtain ⟨d, hd, rfl⟩ := Option.map_eq_some_iff.mp h
    simp [leaves, CasesReader.leaves_of_cases? hd]

theorem feed_of_member? {t : Of τ .member} (h : r.member? = some t)
    (hx : endsMember x.1 = true) : r.feed x = none := by
  cases r with
  | separator s => rfl
  | attributes reader => cases h
  | static shared s => cases h
  | field shared reader =>
    obtain ⟨d, hd, rfl⟩ := Option.map_eq_some_iff.mp h
    simp [feed, FieldReader.feed_of_field? hd hx]
  | cases shared reader =>
    obtain ⟨d, hd, rfl⟩ := Option.map_eq_some_iff.mp h
    simp [feed, CasesReader.feed_of_cases? hd hx]

/-! ## Declarations of fields and cases -/

theorem feed_field (r : FieldReader τ) (x : Sigma τ) (r' : FieldReader τ)
    (h : r.feed x = some r') : feed (.field shared r) x = some (.field shared r') := by
  simp [feed, h]

theorem feed_cases (r : CasesReader τ) (x : Sigma τ) (r' : CasesReader τ)
    (h : r.feed x = some r') : feed (.cases shared r) x = some (.cases shared r') := by
  simp [feed, h]

theorem member?_field {reader : FieldReader τ} {d : Of τ .fieldDecl}
    (h : reader.field? = some d) : member? (.field shared reader) = some (fieldMember shared d) := by
  simp [member?, h]

theorem member?_cases {reader : CasesReader τ} {d : Of τ .caseDecl}
    (h : reader.cases? = some d) : member? (.cases shared reader) = some (caseMember shared d) := by
  simp [member?, h]

theorem bindingKeyword_eq (k : Of τ .bindingKeyword) : ∃ (w : Keyword) (label : τ (.keyword w)),
    k.leaves = [⟨.keyword w, label⟩] ∧ bindingKeyword? ⟨.keyword w, label⟩ = some k ∧
      ∀ shared : Option (Of τ .attributeList),
        declarationStart shared ⟨.keyword w, label⟩ =
          some (.field shared { static := none, keyword := k }) := by
  cases k with
  | node p children =>
    cases p with
    | letKeyword =>
      match children with
      | .cons (.leaf label) .nil => exact ⟨.letWord, label, by simp, rfl, fun _ => rfl⟩
    | varKeyword =>
      match children with
      | .cons (.leaf label) .nil => exact ⟨.varWord, label, by simp, rfl, fun _ => rfl⟩

/-- A declaration with these attributes begins with a keyword, and its other tokens lead to the
member that it makes. -/
def Declares (shared : Option (Of τ .attributeList)) (leaves : List (Sigma τ))
    (member : Of τ .member) : Prop :=
  ∃ (w : Keyword) (label : τ (.keyword w)) (rest : List (Sigma τ)) (r r' : MemberReader τ),
    leaves = ⟨.keyword w, label⟩ :: rest ∧
      declarationStart shared ⟨.keyword w, label⟩ = some r ∧ Reads feed r rest r' ∧
        r'.member? = some member

theorem declares_field (shared : Option (Of τ .attributeList)) (d : Of τ .fieldDecl) :
    Declares shared d.leaves (fieldMember shared d) := by
  cases d with
  | node p children =>
    cases p with
    | field =>
      match children with
      | .cons k (.cons bindings .nil) =>
        obtain ⟨w, label, hleaves, _, hstart⟩ := bindingKeyword_eq k
        obtain ⟨r, hread, hfield⟩ := FieldReader.reads_bindings none k bindings
        exact ⟨w, label, bindings.leaves, .field shared { static := none, keyword := k },
          .field shared r, by simp [hleaves], hstart shared, hread.lift feed_field,
          member?_field hfield⟩
    | fieldStatic =>
      match children with
      | .cons (.leaf s) (.cons k (.cons bindings .nil)) =>
        obtain ⟨w, label, hleaves, hk, _⟩ := bindingKeyword_eq k
        obtain ⟨r, hread, hfield⟩ := FieldReader.reads_bindings (some s) k bindings
        have hkeyword : feed (.static shared s) ⟨.keyword w, label⟩ =
            some (.field shared { static := some s, keyword := k }) := by
          simp [feed, hk]
        refine ⟨.staticWord, s, k.leaves ++ bindings.leaves, .static shared s,
          .field shared r, by simp, rfl, ?_, member?_field hfield⟩
        rw [hleaves]
        exact Reads.cons hkeyword (hread.lift feed_field)

theorem declares_cases (shared : Option (Of τ .attributeList)) (d : Of τ .caseDecl) :
    Declares shared d.leaves (caseMember shared d) := by
  cases d with
  | node p children =>
    cases p with
    | cases =>
      match children with
      | .cons (.leaf k) (.cons items .nil) =>
        obtain ⟨r, hread, hcases⟩ := CasesReader.reads_cases k items
        exact ⟨.caseWord, k, items.leaves, .cases shared { keyword := k },
          .cases shared r, by simp, rfl, hread.lift feed_cases, member?_cases hcases⟩

/-! ## Complete members -/

/-- The next token of a member, which may not have begun. -/
def feed? (r : Option (MemberReader τ)) (x : Sigma τ) : Option (Option (MemberReader τ)) :=
  match r with
  | none => (memberStart x).map some
  | some r => (r.feed x).map some

theorem feed?_some (r : MemberReader τ) (x : Sigma τ) (r' : MemberReader τ)
    (h : r.feed x = some r') : feed? (some r) x = some (some r') := by
  simp [feed?, h]

theorem endsMember_of_memberStart (h : memberStart x = some r) :
    endsMember x.1 = true ∧ x.1 ≠ .closeBrace := by
  obtain ⟨k, label⟩ := x
  cases k with
  | semicolon | atSign | keyword _ => exact ⟨rfl, by simp⟩
  | _ => cases h

/-- A declaration without attributes. -/
theorem Declares.reads {leaves : List (Sigma τ)} {t : Of τ .member}
    (h : Declares none leaves t) : ∃ r : MemberReader τ,
      Reads feed? none leaves (some r) ∧ r.member? = some t := by
  obtain ⟨w, label, rest, r, r', rfl, hstart, hread, ht⟩ := h
  have hfirst : feed? none ⟨.keyword w, label⟩ = some (some r) := by
    simp only [feed?, memberStart, hstart]
    rfl
  exact ⟨r', Reads.cons hfirst (hread.lift feed?_some), ht⟩

/-- A declaration after its attributes. -/
theorem Declares.reads_attributed {list : Of τ .attributeList} {leaves : List (Sigma τ)}
    {t : Of τ .member} (h : Declares (some list) leaves t) : ∃ r : MemberReader τ,
      Reads feed? none (list.leaves ++ leaves) (some r) ∧ r.member? = some t := by
  obtain ⟨w, label, rest, r, r', rfl, hstart, hread, ht⟩ := h
  obtain ⟨reader, hattributes, hlist⟩ := AttributesReader.reads_attributes list
  have hwrap (r : Option (AttributesReader τ)) (x : Sigma τ) (r' : Option (AttributesReader τ))
      (h : AttributesReader.feed? r x = some r') :
      feed? (r.map .attributes) x = some (r'.map .attributes) := by
    obtain ⟨s, rfl, rfl, rfl⟩ | ⟨reader, reader', rfl, hfeed, rfl⟩ :=
      AttributesReader.feed?_cases h
    · rfl
    · simp [feed?, feed, hfeed]
  have hkeyword : feed? (some (.attributes reader)) ⟨.keyword w, label⟩ = some (some r) := by
    have hnone : reader.feed ⟨.keyword w, label⟩ = none :=
      AttributesReader.feed_of_attributes? hlist (by simp) (by simp)
    simp [feed?, feed, hnone, hlist, hstart]
  exact ⟨r', (hattributes.lift hwrap).append (Reads.cons hkeyword (hread.lift feed?_some)), ht⟩

theorem reads_member (t : Of τ .member) : ∃ r : MemberReader τ,
    Reads feed? none t.leaves (some r) ∧ r.member? = some t := by
  cases t with
  | node p children =>
    cases p with
    | memberSeparator =>
      match children with
      | .cons (.leaf s) .nil => exact ⟨.separator s, .one rfl, rfl⟩
    | memberField =>
      match children with
      | .cons d .nil => simpa [fieldMember] using (declares_field none d).reads
    | memberFieldAttributed =>
      match children with
      | .cons list (.cons d .nil) =>
        simpa [fieldMember] using (declares_field (some list) d).reads_attributed
    | memberCase =>
      match children with
      | .cons d .nil => simpa [caseMember] using (declares_cases none d).reads
    | memberCaseAttributed =>
      match children with
      | .cons list (.cons d .nil) =>
        simpa [caseMember] using (declares_cases (some list) d).reads_attributed

end MemberReader

end RowSchema.Reader
