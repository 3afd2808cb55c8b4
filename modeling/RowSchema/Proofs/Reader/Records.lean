import RowSchema.Proofs.Reader.Member

/-! # Declaration texts

The reader of declaration texts holds all that it has read, and it reads every derivation of
one. So there is only one derivation of a text. -/

namespace RowSchema.Reader

open Grammar

variable {τ : Terminal → Type} {x : Sigma τ}

/-! ## What has been read -/

@[simp] theorem leaves_bodyOf (brace : τ .openBrace) (members : Option (Of τ .memberList))
    (c : τ .closeBrace) :
    (bodyOf brace members c).leaves =
      ⟨.openBrace, brace⟩ :: (optionLeaves members ++ [⟨.closeBrace, c⟩]) := by
  cases members <;> simp [bodyOf]

@[simp] theorem leaves_declarationOf (shared : Option (Of τ .attributeList))
    (header : Of τ .recordHeader) (body : Of τ .recordBody) :
    (declarationOf shared header body).leaves =
      optionLeaves shared ++ (header.leaves ++ body.leaves) := by
  cases shared <;> simp [declarationOf]

theorem leaves_of_recordKeyword? {k : Of τ .recordKeyword} (h : recordKeyword? x = some k) :
    k.leaves = [x] := by
  unfold recordKeyword? at h
  split at h <;> first
    | (obtain rfl := Option.some.inj h; simp)
    | cases h

/-- The tokens of the conformances of a record and of the colon before them. -/
def conformanceLeaves : Option (τ .colon × Of τ .conformanceList) → List (Sigma τ)
  | none => []
  | some (colon, list) => ⟨.colon, colon⟩ :: list.leaves

@[simp] theorem Heading.leaves_header (h : Heading τ)
    (conformances : Option (τ .colon × Of τ .conformanceList)) :
    (h.header conformances).leaves =
      h.keyword.leaves ++ ⟨.word, h.name⟩ :: conformanceLeaves conformances := by
  cases conformances <;> simp [header, conformanceLeaves]

/-- The tokens of the attributes, the keyword and the name of a record. -/
def Heading.leaves (h : Heading τ) : List (Sigma τ) :=
  optionLeaves h.attributes ++ (h.keyword.leaves ++ [⟨.word, h.name⟩])

/-- The tokens of a member that is being read, if there is one. -/
def memberLeaves (current : Option (MemberReader τ)) : List (Sigma τ) :=
  current.elim [] MemberReader.leaves

/-- The tokens after the complete records. -/
def Place.leaves : Place τ → List (Sigma τ)
  | top => []
  | attributes reader => reader.leaves
  | keyword shared k => optionLeaves shared ++ k.leaves
  | name h => h.leaves
  | conformance h colon done => h.leaves ++ ⟨.colon, colon⟩ :: done.leaves
  | conformanceName h colon done path =>
    h.leaves ++ ⟨.colon, colon⟩ :: (done.leaves ++ path.leaves)
  | conformanceDot h colon done path d =>
    h.leaves ++ ⟨.colon, colon⟩ :: (done.leaves ++ (path.leaves ++ [⟨.dot, d⟩]))
  | body shared header brace done current =>
    optionLeaves shared ++
      (header.leaves ++ ⟨.openBrace, brace⟩ :: (optionLeaves done ++ memberLeaves current))

theorem Place.leaves_of_members? {done members : Option (Of τ .memberList)}
    {current : Option (MemberReader τ)} (h : members? done current = some members) :
    optionLeaves members = optionLeaves done ++ memberLeaves current := by
  cases current with
  | none =>
    obtain rfl := Option.some.inj h
    simp [memberLeaves]
  | some reader =>
    obtain ⟨t, ht, rfl⟩ := Option.map_eq_some_iff.mp h
    show (append _ _ done t).leaves = _
    simp [memberLeaves, MemberReader.leaves_of_member? ht]

namespace RecordsReader

variable {r r' : RecordsReader τ}

/-- The tokens that have been read. -/
def leaves (r : RecordsReader τ) : List (Sigma τ) := optionLeaves r.done ++ r.place.leaves

theorem leaves_feedBody {shared : Option (Of τ .attributeList)} {header : Of τ .recordHeader}
    {brace : τ .openBrace} {done : Option (Of τ .memberList)}
    {current : Option (MemberReader τ)}
    (h : r.feedBody shared header brace done current x = some r') :
    r'.leaves = optionLeaves r.done ++
      ((Place.body shared header brace done current).leaves ++ [x]) := by
  unfold feedBody at h
  split at h
  · next member hfeed =>
    obtain rfl := Option.some.inj h
    obtain ⟨reader, rfl, hreader⟩ := Option.bind_eq_some_iff.mp hfeed
    simp [leaves, Place.leaves, memberLeaves, MemberReader.leaves_feed hreader]
  · obtain ⟨members, hmembers, hnext⟩ := Option.bind_eq_some_iff.mp h
    have hleaves := Place.leaves_of_members? hmembers
    split at hnext
    · obtain rfl := Option.some.inj hnext
      simp [leaves, finish, Place.leaves, hleaves]
    · obtain ⟨member, hmember, rfl⟩ := Option.map_eq_some_iff.mp hnext
      simp [leaves, Place.leaves, memberLeaves, MemberReader.leaves_memberStart hmember, hleaves]

theorem leaves_feed (h : r.feed x = some r') : r'.leaves = r.leaves ++ [x] := by
  obtain ⟨done, place⟩ := r
  simp only [feed] at h
  split at h
  · obtain rfl := Option.some.inj h
    simp [leaves, Place.leaves, AttributesReader.leaves, AttributeReader.leaves]
  · obtain ⟨k, hk, rfl⟩ := Option.map_eq_some_iff.mp h
    simp [leaves, Place.leaves, leaves_of_recordKeyword? hk]
  · split at h
    · next reader hfeed =>
      obtain rfl := Option.some.inj h
      simp [leaves, Place.leaves, AttributesReader.leaves_feed hfeed]
    · split at h
      · next hlist hk =>
        obtain rfl := Option.some.inj h
        simp [leaves, Place.leaves, leaves_of_recordKeyword? hk,
          AttributesReader.leaves_of_attributes? hlist]
      · cases h
  · obtain rfl := Option.some.inj h
    simp [leaves, Place.leaves, Heading.leaves]
  · obtain rfl := Option.some.inj h
    simp [leaves, Place.leaves, Listed.leaves]
  · obtain rfl := Option.some.inj h
    simp [leaves, Place.leaves, Heading.leaves, conformanceLeaves, memberLeaves]
  · obtain rfl := Option.some.inj h
    simp [leaves, Place.leaves]
  · obtain rfl := Option.some.inj h
    simp [leaves, Place.leaves]
  · obtain rfl := Option.some.inj h
    simp [leaves, Place.leaves]
  · obtain rfl := Option.some.inj h
    simp [leaves, Place.leaves, Listed.leaves]
  · obtain rfl := Option.some.inj h
    simp [leaves, Place.leaves, Heading.leaves, conformanceLeaves, memberLeaves]
  · simpa [leaves] using leaves_feedBody h
  · cases h

theorem leaves_of_declarations? {t : Of τ .declarations} (h : r.declarations? = some t) :
    t.leaves = r.leaves := by
  obtain ⟨done, place⟩ := r
  cases place with
  | top =>
    cases done with
    | none =>
      obtain rfl := Option.some.inj h
      simp [leaves, Place.leaves]
    | some list =>
      obtain rfl := Option.some.inj h
      simp [leaves, Place.leaves]
  | _ => cases h

/-! ## Headers -/

variable {done : Option (Of τ .declarationList)}

theorem recordKeyword_eq (k : Of τ .recordKeyword) : ∃ (w : Keyword) (label : τ (.keyword w)),
    k.leaves = [⟨.keyword w, label⟩] ∧ recordKeyword? ⟨.keyword w, label⟩ = some k := by
  cases k with
  | node p children =>
    cases p with
    | structKeyword =>
      match children with
      | .cons (.leaf label) .nil => exact ⟨.structWord, label, by simp, rfl⟩
    | enumKeyword =>
      match children with
      | .cons (.leaf label) .nil => exact ⟨.enumWord, label, by simp, rfl⟩
    | classKeyword =>
      match children with
      | .cons (.leaf label) .nil => exact ⟨.classWord, label, by simp, rfl⟩

/-- The attributes and the keyword of a record. -/
theorem reads_keyword (shared : Option (Of τ .attributeList)) (k : Of τ .recordKeyword) :
    Reads feed ⟨done, .top⟩ (optionLeaves shared ++ k.leaves) ⟨done, .keyword shared k⟩ := by
  obtain ⟨w, label, hleaves, hk⟩ := recordKeyword_eq k
  rw [hleaves]
  cases shared with
  | none =>
    refine .one ?_
    show (recordKeyword? ⟨.keyword w, label⟩).map _ = _
    rw [hk]
    rfl
  | some list =>
    obtain ⟨reader, hread, hlist⟩ := AttributesReader.reads_attributes list
    let place (r : Option (AttributesReader τ)) : RecordsReader τ :=
      ⟨done, r.elim .top .attributes⟩
    have hplace (r : Option (AttributesReader τ)) (x : Sigma τ)
        (r' : Option (AttributesReader τ)) (h : AttributesReader.feed? r x = some r') :
        feed (place r) x = some (place r') := by
      obtain ⟨s, rfl, rfl, rfl⟩ | ⟨reader, reader', rfl, hfeed, rfl⟩ :=
        AttributesReader.feed?_cases h
      · rfl
      · simp [place, feed, hfeed]
    have hkeyword : feed (place (some reader)) ⟨.keyword w, label⟩ =
        some ⟨done, .keyword (some list) k⟩ := by
      have hnone : reader.feed ⟨.keyword w, label⟩ = none :=
        AttributesReader.feed_of_attributes? hlist (by simp) (by simp)
      simp [place, feed, hnone, hlist, hk]
    exact (hread.lift hplace).snoc hkeyword

/-- What the reader makes of the tokens of a name with dots, in the conformances of a record. -/
def FollowsPath : {s : Symbol} → Tree τ s → Prop
  | .part .dottedName, t => ∀ (done : Option (Of τ .declarationList)) (h : Heading τ)
      (colon : τ .colon) (before : Listed τ .conformanceList),
      Reads feed ⟨done, .conformance h colon before⟩ t.leaves
        ⟨done, .conformanceName h colon before t⟩
  | _, _ => True

theorem followsPath {s : Symbol} (t : Tree τ s) : FollowsPath t := by
  refine Tree.induct (fun _ => trivial) (fun p children ih => ?_) t
  cases p with
  | dottedFirst =>
    match children with
    | .cons (.leaf w) .nil => exact fun done h colon before => .one rfl
  | dottedMore =>
    match children, ih with
    | .cons path (.cons (.leaf d) (.cons (.leaf w) .nil)), ⟨hpath, _⟩ =>
      intro done h colon before
      have hdot : feed ⟨done, .conformanceName h colon before path⟩ ⟨.dot, d⟩ =
          some ⟨done, .conformanceDot h colon before path d⟩ := rfl
      simpa using ((hpath done h colon before).snoc hdot).snoc (x := ⟨.word, w⟩) rfl
  | _ => trivial

theorem conformanceList_eq (t : Of τ .conformanceList) :
    ∃ (before : Listed τ .conformanceList) (path : Of τ .dottedName),
      before.add .conformanceFirst .conformanceMore path = t := by
  cases t with
  | node p children =>
    cases p with
    | conformanceFirst =>
      match children with
      | .cons path .nil => exact ⟨none, path, rfl⟩
    | conformanceMore =>
      match children with
      | .cons list (.cons (.leaf c) (.cons path .nil)) => exact ⟨some (list, c), path, rfl⟩

/-- The conformances of a record, after their colon. -/
theorem reads_conformances (done : Option (Of τ .declarationList)) (h : Heading τ)
    (colon : τ .colon) (t : Of τ .conformanceList) :
    ∃ (before : Listed τ .conformanceList) (path : Of τ .dottedName),
      Reads feed ⟨done, .conformance h colon none⟩ t.leaves
        ⟨done, .conformanceName h colon before path⟩ ∧
      before.add .conformanceFirst .conformanceMore path = t := by
  let state (before : Listed τ .conformanceList) (path : Option (Of τ .dottedName)) :
      RecordsReader τ :=
    ⟨done, path.elim (.conformance h colon before) (.conformanceName h colon before)⟩
  have hitem (before : Listed τ .conformanceList) (path : Of τ .dottedName) :
      ∃ r : Option (Of τ .dottedName),
        Reads feed (state before none) path.leaves (state before r) ∧ r = some path :=
    ⟨some path, followsPath path done h colon before, rfl⟩
  have hcomma (before : Listed τ .conformanceList) (r : Option (Of τ .dottedName))
      (path : Of τ .dottedName) (c : τ .comma) (hr : r = some path) :
      feed (state before r) ⟨.comma, c⟩ =
        some (state (some (before.add .conformanceFirst .conformanceMore path, c)) none) := by
    rw [hr]
    rfl
  obtain ⟨before, r, path, hread, rfl, rfl⟩ :=
    reads_listed feed state none id conformanceList_eq hitem hcomma t
  exact ⟨before, path, hread, rfl⟩

/-- A record up to its opening brace. -/
theorem reads_header (shared : Option (Of τ .attributeList)) (header : Of τ .recordHeader)
    (brace : τ .openBrace) :
    Reads feed ⟨done, .top⟩ (optionLeaves shared ++ (header.leaves ++ [⟨.openBrace, brace⟩]))
      ⟨done, .body shared header brace none none⟩ := by
  have hname (k : Of τ .recordKeyword) (w : τ .word) :
      feed ⟨done, .keyword shared k⟩ ⟨.word, w⟩ = some ⟨done, .name ⟨shared, k, w⟩⟩ := rfl
  cases header with
  | node p children =>
    cases p with
    | header =>
      match children with
      | .cons k (.cons (.leaf w) .nil) =>
        have hbrace : feed ⟨done, .name ⟨shared, k, w⟩⟩ ⟨.openBrace, brace⟩ =
            some ⟨done, .body shared (.of2 .header k (.leaf w)) brace none none⟩ := rfl
        simpa using ((reads_keyword shared k).snoc (hname k w)).snoc hbrace
    | headerConforming =>
      match children with
      | .cons k (.cons (.leaf w) (.cons (.leaf colon) (.cons list .nil))) =>
        obtain ⟨before, path, hread, rfl⟩ :=
          reads_conformances done ⟨shared, k, w⟩ colon list
        have hcolon : feed ⟨done, .name ⟨shared, k, w⟩⟩ ⟨.colon, colon⟩ =
            some ⟨done, .conformance ⟨shared, k, w⟩ colon none⟩ := rfl
        have hbrace : feed ⟨done, .conformanceName ⟨shared, k, w⟩ colon before path⟩
            ⟨.openBrace, brace⟩ =
          some ⟨done, .body shared (.of4 .headerConforming k (.leaf w) (.leaf colon)
            (before.add .conformanceFirst .conformanceMore path)) brace none none⟩ := rfl
        simpa using
          ((((reads_keyword shared k).snoc (hname k w)).snoc hcolon).append hread).snoc hbrace

/-! ## Bodies -/

section Body

variable (done) (shared : Option (Of τ .attributeList)) (header : Of τ .recordHeader)
  (brace : τ .openBrace) {before members : Option (Of τ .memberList)}
  {current : Option (MemberReader τ)}

/-- A member after others, the last of which ends where it begins. -/
theorem reads_next (hmembers : Place.members? before current = some members)
    (hends : ∀ x : Sigma τ, endsMember x.1 = true → current.bind (·.feed x) = none)
    (t : Of τ .member) : ∃ reader : MemberReader τ,
      Reads feed ⟨done, .body shared header brace before current⟩ t.leaves
        ⟨done, .body shared header brace members (some reader)⟩ ∧ reader.member? = some t := by
  obtain ⟨reader, hread, ht⟩ := MemberReader.reads_member t
  let state (r : Option (MemberReader τ)) : RecordsReader τ :=
    ⟨done, r.elim (.body shared header brace before current)
      fun m => .body shared header brace members (some m)⟩
  have hstate (r : Option (MemberReader τ)) (x : Sigma τ) (r' : Option (MemberReader τ))
      (h : MemberReader.feed? r x = some r') : feed (state r) x = some (state r') := by
    cases r with
    | none =>
      obtain ⟨m, hm, rfl⟩ := Option.map_eq_some_iff.mp h
      obtain ⟨hend, hbrace⟩ := MemberReader.endsMember_of_memberStart hm
      show feedBody _ shared header brace before current x = _
      simp only [feedBody, hends x hend, hmembers, Option.bind_some]
      split
      · exact absurd rfl hbrace
      · simp [state, hm]
    | some m =>
      obtain ⟨m', hm, rfl⟩ := Option.map_eq_some_iff.mp h
      show feedBody _ shared header brace members (some m) x = _
      simp [state, feedBody, hm]
  have hall : Reads feed (state none) t.leaves (state (some reader)) := hread.lift hstate
  exact ⟨reader, hall, ht⟩

theorem memberList_eq (t : Of τ .memberList) :
    ∃ (before : Option (Of τ .memberList)) (m : Of τ .member),
      append .memberFirst .memberMore before m = t := by
  cases t with
  | node p children =>
    cases p with
    | memberFirst =>
      match children with
      | .cons m .nil => exact ⟨none, m, rfl⟩
    | memberMore =>
      match children with
      | .cons members (.cons m .nil) => exact ⟨some members, m, rfl⟩

theorem reads_members (t : Of τ .memberList) : ∃ (before : Option (Of τ .memberList))
    (reader : MemberReader τ) (m : Of τ .member),
      Reads feed ⟨done, .body shared header brace none none⟩ t.leaves
        ⟨done, .body shared header brace before (some reader)⟩ ∧ reader.member? = some m ∧
        append .memberFirst .memberMore before m = t := by
  let state (before : Option (Of τ .memberList)) (reader : MemberReader τ) : RecordsReader τ :=
    ⟨done, .body shared header brace before (some reader)⟩
  have hmore (before : Option (Of τ .memberList)) (last : MemberReader τ) (y m : Of τ .member)
      (hlast : last.member? = some y) : ∃ reader : MemberReader τ,
        Reads feed (state before last) m.leaves
          (state (some (append .memberFirst .memberMore before y)) reader) ∧
          reader.member? = some m := by
    have hmembers : Place.members? before (some last) =
        some (some (append .memberFirst .memberMore before y)) := by
      simp [Place.members?, hlast]
    exact reads_next done shared header brace hmembers
      (fun x hx => MemberReader.feed_of_member? hlast hx) m
  exact reads_append feed state _ MemberReader.member? memberList_eq
    (fun m => reads_next done shared header brace rfl (fun _ _ => rfl) m) hmore t

/-- The closing brace of a record. -/
theorem feed_closeBrace (hmembers : Place.members? before current = some members)
    (hends : ∀ x : Sigma τ, endsMember x.1 = true → current.bind (·.feed x) = none)
    (c : τ .closeBrace) :
    feed ⟨done, .body shared header brace before current⟩ ⟨.closeBrace, c⟩ =
      some ⟨some (append .declarationFirst .declarationMore done
        (declarationOf shared header (bodyOf brace members c))), .top⟩ := by
  show feedBody _ shared header brace before current ⟨.closeBrace, c⟩ = _
  simp [feedBody, hends ⟨.closeBrace, c⟩ rfl, hmembers, finish]

end Body

/-! ## Records -/

/-- A record, with its attributes if there are any. -/
theorem reads_record (shared : Option (Of τ .attributeList)) (header : Of τ .recordHeader)
    (body : Of τ .recordBody) :
    Reads feed ⟨done, .top⟩ (optionLeaves shared ++ (header.leaves ++ body.leaves))
      ⟨some (append .declarationFirst .declarationMore done (declarationOf shared header body)),
        .top⟩ := by
  cases body with
  | node p children =>
    cases p with
    | bodyEmpty =>
      match children with
      | .cons (.leaf brace) (.cons (.leaf c) .nil) =>
        have hends (x : Sigma τ) (_ : endsMember x.1 = true) :
            (none : Option (MemberReader τ)).bind (·.feed x) = none := rfl
        have hmembers : Place.members? (none : Option (Of τ .memberList)) none = some none := rfl
        have hclose := feed_closeBrace done shared header brace hmembers hends c
        simpa [bodyOf] using (reads_header shared header brace).snoc hclose
    | body =>
      match children with
      | .cons (.leaf brace) (.cons list (.cons (.leaf c) .nil)) =>
        obtain ⟨before, reader, m, hread, hm, rfl⟩ :=
          reads_members done shared header brace list
        have hmembers : Place.members? before (some reader) =
            some (some (append .memberFirst .memberMore before m)) := by
          simp [Place.members?, hm]
        have hclose := feed_closeBrace done shared header brace hmembers
          (fun x hx => MemberReader.feed_of_member? hm hx) c
        simpa [bodyOf] using ((reads_header shared header brace).append hread).snoc hclose

theorem reads_declaration (d : Of τ .declaration) :
    Reads feed ⟨done, .top⟩ d.leaves
      ⟨some (append .declarationFirst .declarationMore done d), .top⟩ := by
  cases d with
  | node p children =>
    cases p with
    | declarationAttributed =>
      match children with
      | .cons list (.cons header (.cons body .nil)) =>
        simpa [declarationOf] using reads_record (some list) header body
    | declarationPlain =>
      match children with
      | .cons header (.cons body .nil) =>
        simpa [declarationOf] using reads_record none header body

theorem declarationList_eq (t : Of τ .declarationList) :
    ∃ (before : Option (Of τ .declarationList)) (d : Of τ .declaration),
      append .declarationFirst .declarationMore before d = t := by
  cases t with
  | node p children =>
    cases p with
    | declarationFirst =>
      match children with
      | .cons d .nil => exact ⟨none, d, rfl⟩
    | declarationMore =>
      match children with
      | .cons list (.cons d .nil) => exact ⟨some list, d, rfl⟩

theorem finds (t : Of τ .declarations) : Finds feed declarations? {} t := by
  cases t with
  | node p children =>
    cases p with
    | declarationsEmpty =>
      match children with
      | .nil => exact ⟨{}, .nil, rfl⟩
    | declarations =>
      match children with
      | .cons list .nil =>
        -- a record is complete at its last token, so there is none to end
        let state (before : Option (Of τ .declarationList)) (d : Of τ .declaration) :
            RecordsReader τ :=
          ⟨some (append .declarationFirst .declarationMore before d), .top⟩
        obtain ⟨before, d, last, hread, hd, rfl⟩ := reads_append feed state {} some
          declarationList_eq (fun d => ⟨d, reads_declaration d, rfl⟩)
          (fun before last y d hy => ⟨d, Option.some.inj hy ▸ reads_declaration d, rfl⟩) list
        obtain rfl := Option.some.inj hd
        exact ⟨state before d, by simpa using hread, rfl⟩

/-! ## Derivations -/

/-- There is only one derivation of some tokens. -/
theorem tree_unique {t t' : Of τ .declarations} (h : t.leaves = t'.leaves) : t = t' := by
  obtain ⟨r, hread, ht⟩ := finds t
  obtain ⟨r', hread', ht'⟩ := finds t'
  rw [h] at hread
  rw [hread.unique hread', ht'] at ht
  exact (Option.some.inj ht).symm

/-- The reader reads a text to its end exactly if the text has a derivation, which it finds. -/
theorem reads_iff {xs : List (Sigma τ)} {t : Of τ .declarations} :
    (∃ r, Reads feed {} xs r ∧ r.declarations? = some t) ↔ t.leaves = xs := by
  constructor
  · rintro ⟨r, hread, ht⟩
    rw [leaves_of_declarations? ht, hread.leaves_eq fun _ _ _ => leaves_feed]
    simp [leaves, Place.leaves]
  · rintro rfl
    exact finds t

end RecordsReader

end RowSchema.Reader
