import RowSchema.Proofs.Reader.Removal

/-! # The texts of types

A type is printed as it may be declared: its text is the text of a type again, and of no other one.
The name of an array type is the text of its elements, so nothing is lost in it. -/

namespace RowSchema

open Grammar Reader Token

namespace TypeRef

/-- The type that the text says, if it is the text of a type and of nothing else. -/
def ofText? (source : String) : Option TypeRef :=
  match scan source with
  | (tokens, none) =>
    ((tokens.map label).foldlM TypeReader.feed {}).bind fun r => r.type?.map (·.located.value)
  | (_, some _) => none

variable {source : String} {t : TypeRef}

/-- The text of a type is what a derivation of a type derives. -/
theorem ofText?_eq_some_iff : ofText? source = some t ↔
    ∃ (tokens : List Token) (u : Of Label .type), scan source = (tokens, none) ∧
      u.leaves = tokens.map label ∧ u.located.value = t := by
  unfold ofText?
  rcases hscan : scan source with ⟨tokens, illegal⟩
  constructor
  · intro h
    cases illegal with
    | some i => cases h
    | none =>
      obtain ⟨r, hread, h⟩ := Option.bind_eq_some_iff.mp h
      obtain ⟨u, hu, rfl⟩ := Option.map_eq_some_iff.mp h
      refine ⟨tokens, u, rfl, ?_, rfl⟩
      rw [TypeReader.leaves_of_type? hu]
      exact Reads.leaves_eq (fun _ _ _ => TypeReader.leaves_feed) hread
  · rintro ⟨tokens', u, heq, hleaves, rfl⟩
    obtain ⟨rfl, rfl⟩ := Prod.mk.inj heq
    obtain ⟨r, hread, hu⟩ := TypeReader.finds u
    rw [hleaves] at hread
    dsimp only
    rw [show List.foldlM TypeReader.feed {} (tokens.map label) = some r from hread,
      Option.bind_some, hu, Option.map_some]

theorem text_named (name : String) : text { name } = name := by
  simp [text]

theorem text_arrayOf (t : TypeRef) : (arrayOf t).text = "[" ++ t.text ++ "]" := by
  simp [text, arrayOf]

theorem text_optional (hoptional : t.isOptional = false) (hvariadic : t.isVariadic = false) :
    t.optional.text = t.text ++ "?" := by
  simp [text, optional, hoptional, hvariadic]

theorem text_variadic (hoptional : t.isOptional = false) (hvariadic : t.isVariadic = false) :
    text { name := t.name, isArray := t.isArray, isVariadic := true } = t.text ++ "..." := by
  simp [text, hoptional, hvariadic]

end TypeRef

/-- The types that are declared for the fields of a record and for the values of its cases. -/
def Record.types (r : Record) : List TypeRef :=
  r.fields.filterMap Field.type ++ r.cases.flatMap fun c => c.payloads.map Payload.type

namespace Grammar

/-! ## Texts of derivations -/

/-- All names in the derivation are words. -/
def Tree.Named {s : Symbol} (t : Tree Label s) : Prop :=
  ∀ name : Label .word, ⟨.word, name⟩ ∈ t.leaves → IsWord name.value

/-- In front of what does not go on with a name, the text is cut into those tokens. -/
def Reprints (text : String) (xs : List (Sigma Label)) : Prop :=
  ∀ after, after.head?.any isNameChar = false → Lexes text (contents xs) after

/-- The text of a type, or of a part of a type, has the tokens that it is derived from. -/
def TypeReprints : {s : Symbol} → Tree Label s → Prop
  | .part .dottedName, t => Reprints t.located.value t.leaves
  | .part .baseType, t => Reprints t.located.value.text t.leaves ∧
      t.located.value.isOptional = false ∧ t.located.value.isVariadic = false
  | .part .type, t => Reprints t.located.value.text t.leaves
  | _, _ => True

theorem typeReprints {s : Symbol} (t : Tree Label s) : t.Named → TypeReprints t := by
  refine Tree.induct (P := fun t => t.Named → TypeReprints t) (fun _ _ => trivial)
    (fun p children ih => ?_) t
  cases p with
  | dottedFirst =>
    match children with
    | .cons (.leaf w) .nil => exact fun hnamed after => lexes_word (hnamed w (by simp))
  | dottedMore =>
    match children, ih with
    | .cons path (.cons (.leaf d) (.cons (.leaf w) .nil)), ⟨hpath, _⟩ =>
      intro hnamed after hafter
      have hbefore := hpath (fun name hname => hnamed name (by simp [hname]))
        (("." ++ w.value).toList ++ after) (by rw [String.toList_append]; rfl)
      have hall := hbefore.append (lexes_member (hnamed w (by simp)) hafter)
      have htext : (Tree.of3 .dottedMore path (.leaf d) (.leaf w)).located.value =
        path.located.value ++ ("." ++ w.value) := String.append_assoc ..
      rw [htext]
      simpa [contents] using hall
  | baseNamed =>
    match children, ih with
    | .cons path .nil, ⟨hpath, _⟩ =>
      refine fun hnamed => ⟨fun after hafter => ?_, rfl, rfl⟩
      have hall := hpath (fun name hname => hnamed name (by simp [hname])) after hafter
      have htext : (Tree.of1 .baseNamed path).located.value.text = path.located.value :=
        TypeRef.text_named _
      rw [htext]
      simpa using hall
  | baseArray =>
    match children, ih with
    | .cons (.leaf b) (.cons element (.cons (.leaf c) .nil)), ⟨_, helement, _⟩ =>
      refine fun hnamed => ⟨fun after hafter => ?_, rfl, rfl⟩
      have hinside := helement (fun name hname => hnamed name (by simp [hname]))
        ("]".toList ++ after) rfl
      have hall := (lexes_openBracket.append hinside).append lexes_closeBracket
      have htext : (Tree.of3 .baseArray (.leaf b) element (.leaf c)).located.value.text =
          "[" ++ element.located.value.text ++ "]" := TypeRef.text_arrayOf _
      rw [htext]
      simpa [contents] using hall
  | type =>
    match children, ih with
    | .cons base .nil, ⟨hbase, _⟩ =>
      intro hnamed
      have hall := (hbase fun name hname => hnamed name (by simp [hname])).1
      have hleaves : (Tree.of1 .type base).leaves = base.leaves := by simp
      show Reprints base.located.value.text _
      rwa [hleaves]
  | typeOptional =>
    match children, ih with
    | .cons base (.cons (.leaf q) .nil), ⟨hbase, _⟩ =>
      intro hnamed after hafter
      obtain ⟨hlexes, hoptional, hvariadic⟩ := hbase fun name hname => hnamed name (by simp [hname])
      have hall := (hlexes ("?".toList ++ after) rfl).append lexes_question
      have htext : (Tree.of2 .typeOptional base (.leaf q)).located.value.text =
          base.located.value.text ++ "?" := TypeRef.text_optional hoptional hvariadic
      rw [htext]
      simpa [contents] using hall
  | typeVariadic =>
    match children, ih with
    | .cons base (.cons (.leaf e) .nil), ⟨hbase, _⟩ =>
      intro hnamed after hafter
      obtain ⟨hlexes, hoptional, hvariadic⟩ := hbase fun name hname => hnamed name (by simp [hname])
      have hall := (hlexes ("...".toList ++ after) rfl).append lexes_ellipsis
      have htext : (Tree.of2 .typeVariadic base (.leaf e)).located.value.text =
          base.located.value.text ++ "..." := TypeRef.text_variadic hoptional hvariadic
      rw [htext]
      simpa [contents] using hall
  | _ => exact fun _ => trivial

variable {source : String} {pieces : Pieces}

/-- The words among the tokens of a text are words. -/
theorem Tree.named {s : Symbol} {t : Tree Label s} (hcut : Cut source.toList pieces [])
    (h : t.leaves ⊆ (pieces.tokens 1 0).map label) : t.Named :=
  fun _ hname => isWord_of_mem hcut (h hname)

/-- The text of a type that a derivation derives is the text of that type. -/
theorem ofText?_of_named (u : Of Label .type) (h : u.Named) :
    TypeRef.ofText? u.located.value.text = some u.located.value := by
  obtain ⟨pieces, hcut, hcontents⟩ := typeReprints u h [] rfl
  rw [List.append_nil] at hcut
  have hscan := (scan_of_cut hcut).1 rfl
  have hxs : contents ((pieces.tokens 1 0).map label) = u.bare.leaves := by
    rw [contents_label, Pieces.map_lexeme_tokens, hcontents, u.leaves_bare]
  obtain ⟨u', hbare, hleaves⟩ := u.bare.exists_bare _ hxs.symm
  exact TypeRef.ofText?_eq_some_iff.mpr
    ⟨_, u', hscan, hleaves, u.edits_of_bare u' u.kept_empty hbare⟩

/-- An array type is declared by the declaration of a type of its elements. -/
theorem exists_element (u : Of Label .type) (h : u.located.value.isArray = true) :
    ∃ v : Of Label .type, v.leaves ⊆ u.leaves ∧
      (TypeRef.arrayOf v.located.value).name = u.located.value.name := by
  have hbase (base : Of Label .baseType) (hbase : base.located.value.isArray = true) :
      ∃ v : Of Label .type, v.leaves ⊆ base.leaves ∧
        (TypeRef.arrayOf v.located.value).name = base.located.value.name := by
    cases base with
    | node p children =>
      cases p with
      | baseNamed => cases hbase
      | baseArray =>
        match children with
        | .cons _ (.cons element (.cons _ .nil)) => exact ⟨element, by simp, rfl⟩
  cases u with
  | node p children =>
    cases p with
    | type =>
      match children with
      | .cons base .nil =>
        obtain ⟨v, hv, hname⟩ := hbase base h
        exact ⟨v, fun x hx => by simp [hv hx], hname⟩
    | typeOptional | typeVariadic =>
      match children with
      | .cons base (.cons _ .nil) =>
        obtain ⟨v, hv, hname⟩ := hbase base h
        exact ⟨v, fun x hx => by simp [hv hx], hname⟩

/-! ## Types of declarations -/

/-- The types that a member declares. -/
def memberTypes : Field ⊕ Case → List TypeRef
  | .inl f => f.type.toList
  | .inr c => c.payloads.map Payload.type

/-- The types that are declared by what a symbol stands for. -/
def typesOf : (s : Symbol) → s.Value → List TypeRef
  | .part .declarations, records | .part .declarationList, records => records.flatMap Record.types
  | .part .declaration, r => r.types
  | .part .recordBody, groups => groups.flatten.flatMap memberTypes
  | .part .memberList, groups => groups.flatMap fun g => (g.getD []).flatMap memberTypes
  | .part .member, group => (group.getD []).flatMap memberTypes
  | .part .fieldDecl, d => d.first.type.toList
  | .part .bindingList, bindings => bindings.1.type.toList
  | .part .binding, b => b.type.toList
  | .part .caseDecl, cases | .part .caseList, cases =>
    cases.flatMap fun c => c.payloads.map Payload.type
  | .part .caseItem, c => c.payloads.map Payload.type
  | .part .payloadList, payloads => payloads.map Payload.type
  | .part .payload, x => [x.type]
  | .part .type, t => [t]
  | _, _ => []

/-- The types that are declared by what some symbols stand for. -/
def typesOfAll : {symbols : List Symbol} → Values symbols → List TypeRef
  | [], _ => []
  | s :: _, ⟨x, rest⟩ => typesOf s x.value ++ typesOfAll rest

theorem mem_types_recordOf {header : Kind × String} {attributes : List Attribute}
    {groups : List (List (Field ⊕ Case))} {span : Span} {t : TypeRef}
    (h : t ∈ (recordOf header attributes groups span).types) :
    t ∈ groups.flatten.flatMap memberTypes := by
  rcases List.mem_append.mp h with h | h
  · obtain ⟨f, hf, ht⟩ := List.mem_filterMap.mp h
    obtain ⟨m, hm, hleft⟩ := List.mem_filterMap.mp hf
    obtain ⟨rfl⟩ := Sum.getLeft?_eq_some_iff.mp hleft
    exact List.mem_flatMap.mpr ⟨_, hm, Option.mem_toList.mpr ht⟩
  · obtain ⟨c, hc, ht⟩ := List.mem_flatMap.mp h
    obtain ⟨m, hm, hright⟩ := List.mem_filterMap.mp hc
    obtain ⟨rfl⟩ := Sum.getRight?_eq_some_iff.mp hright
    exact List.mem_flatMap.mpr ⟨_, hm, ht⟩

theorem flatMap_casesWith (cases : List Case) (attributes : List Attribute) :
    (casesWith cases attributes).flatMap memberTypes =
      cases.flatMap fun c => c.payloads.map Payload.type := by
  rw [casesWith, List.flatMap_map]
  rfl

theorem flatMap_reduceOption (groups : List (Option (List (Field ⊕ Case)))) :
    groups.reduceOption.flatten.flatMap memberTypes =
      groups.flatMap fun g => (g.getD []).flatMap memberTypes := by
  induction groups with
  | nil => rfl
  | cons g groups ih => cases g <;> simp [← ih]

/-- A part declares the types that the parts of it declare, if it is no type. -/
theorem mem_typesOfAll {n : Nonterminal} {symbols : List Symbol} (p : Production n symbols)
    (xs : Values symbols) (hn : n ≠ .type) {x : TypeRef} (h : x ∈ typesOf (.part n) (action p xs)) :
    x ∈ typesOfAll xs := by
  cases p with
  | declarations | declarationFirst | memberFirst | bindingFirst | caseFirst | payloadFirst
  | payload =>
    obtain ⟨y, _⟩ := xs
    simpa [typesOf, typesOfAll, action] using h
  | declarationMore | memberMore | field | cases =>
    obtain ⟨y, z, _⟩ := xs
    simpa [typesOf, typesOfAll, action, or_assoc] using h
  | caseMore | payloadMore | fieldStatic | bindingTyped | payloadDefault | payloadLabeled =>
    obtain ⟨y, sign, z, _⟩ := xs
    simpa [typesOf, typesOfAll, action, eq_comm] using h
  | bindingMore =>
    obtain ⟨bindings, comma, b, _⟩ := xs
    exact List.mem_append_left _ h
  | bindingComputed | casePayloads =>
    obtain ⟨name, sign, y, z, _⟩ := xs
    simpa [typesOf, typesOfAll, action, eq_comm] using h
  | bindingTypedInitialized | payloadLabeledDefault =>
    obtain ⟨name, colon, y, equals, e, _⟩ := xs
    simpa [typesOf, typesOfAll, action, eq_comm] using h
  | declarationAttributed =>
    obtain ⟨attributes, header, body, _⟩ := xs
    simpa [typesOf, typesOfAll] using mem_types_recordOf h
  | declarationPlain =>
    obtain ⟨header, body, _⟩ := xs
    simpa [typesOf, typesOfAll] using mem_types_recordOf h
  | body =>
    obtain ⟨b, members, c, _⟩ := xs
    have hmembers : x ∈ members.value.reduceOption.flatten.flatMap memberTypes := h
    rw [flatMap_reduceOption] at hmembers
    simpa [typesOf, typesOfAll] using hmembers
  | memberField =>
    obtain ⟨d, _⟩ := xs
    simpa [typesOf, typesOfAll, action, memberTypes, FieldDecl.field] using h
  | memberFieldAttributed =>
    obtain ⟨attributes, d, _⟩ := xs
    simpa [typesOf, typesOfAll, action, memberTypes, FieldDecl.field] using h
  | memberCase =>
    obtain ⟨cases, _⟩ := xs
    have hcases : x ∈ (casesWith cases.value []).flatMap memberTypes := h
    rw [flatMap_casesWith] at hcases
    simpa [typesOf, typesOfAll] using hcases
  | memberCaseAttributed =>
    obtain ⟨attributes, cases, _⟩ := xs
    have hcases : x ∈ (casesWith cases.value attributes.value).flatMap memberTypes := h
    rw [flatMap_casesWith] at hcases
    simpa [typesOf, typesOfAll] using hcases
  | type | typeOptional | typeVariadic => exact absurd rfl hn
  | _ => cases h

mutual

/-- Each of the types that a part declares is derived from some of the tokens of the part. -/
theorem Tree.exists_type {x : TypeRef} : {s : Symbol} → (t : Tree Label s) →
    x ∈ typesOf s t.located.value → ∃ u : Of Label .type, u.leaves ⊆ t.leaves ∧ u.located.value = x
  | .token _, .leaf _, h => nomatch h
  | .part n, .node p children, h => by
    by_cases hn : n = .type
    · subst hn
      exact ⟨.node p children, List.Subset.refl _, (List.mem_singleton.mp h).symm⟩
    · exact children.exists_type (mem_typesOfAll p children.values hn h)

theorem Forest.exists_type {x : TypeRef} : {symbols : List Symbol} → (f : Forest Label symbols) →
    x ∈ typesOfAll f.values → ∃ u : Of Label .type, u.leaves ⊆ f.leaves ∧ u.located.value = x
  | _, .nil, h => nomatch h
  | _, .cons first rest, h => by
    rcases List.mem_append.mp h with h | h
    · obtain ⟨u, hu, hvalue⟩ := first.exists_type h
      exact ⟨u, List.subset_append_of_subset_left _ hu, hvalue⟩
    · obtain ⟨u, hu, hvalue⟩ := rest.exists_type h
      exact ⟨u, List.subset_append_of_subset_right _ hu, hvalue⟩

end

/-! ## Declarations of a type -/

/-- A record with a field of the type that the text says. -/
def carrier (text : String) : String := "struct A \x7b var a: " ++ text ++ " \x7d"

/-- The derivation of a record with a field of that type. -/
def carrierOf (u : Of Label .type) : Of Label .declarations :=
  .of1 .declarations (.of1 .declarationFirst (.of2 .declarationPlain
    (.of2 .header (.of1 .structKeyword (.leaf ⟨(), 0, 0⟩)) (.leaf ⟨"A", 0, 0⟩))
    (.of3 .body (.leaf ⟨(), 0, 0⟩)
      (.of1 .memberFirst (.of1 .memberField (.of2 .field
        (.of1 .varKeyword (.leaf ⟨(), 0, 0⟩))
        (.of1 .bindingFirst (.of3 .bindingTyped (.leaf ⟨"a", 0, 0⟩) (.leaf ⟨(), 0, 0⟩) u)))))
      (.leaf ⟨(), 0, 0⟩))))

theorem lexes_carrier {text : String} {u : Of Label .type} (h : Reprints text u.leaves) :
    Lexes (carrier text) (contents (carrierOf u).leaves) [] := by
  have hname {s : String} (hs : IsWord s) {after : List Char} :
      Lexes (s ++ " ") [⟨.word, s⟩] after := (lexes_word hs rfl).append lexes_blank
  have hkeyword (k : Keyword) {after : List Char} :
      Lexes (k.text ++ " ") [⟨.keyword k, ()⟩] after := (lexes_keyword k rfl).append lexes_blank
  have hbrace {after : List Char} : Lexes ("\x7b" ++ " ") [⟨.openBrace, ()⟩] after :=
    lexes_openBrace.append lexes_blank
  have hcolon {after : List Char} : Lexes ("a" ++ ": ") [⟨.word, "a"⟩, ⟨.colon, ()⟩] after :=
    (lexes_word ⟨⟨'a', [], rfl, rfl, nofun⟩, rfl⟩ rfl).append lexes_colon
  have hfront {after : List Char} : Lexes _ _ after := (hkeyword .structWord).append
    ((hname (s := "A") ⟨⟨'A', [], rfl, rfl, nofun⟩, rfl⟩).append (hbrace.append
      ((hkeyword .varWord).append hcolon)))
  have hback : Lexes (" " ++ "\x7d") [⟨.closeBrace, ()⟩] [] := lexes_blank.append lexes_closeBrace
  have hall := (hfront.append (h ((" " ++ "\x7d").toList ++ []) rfl)).append hback
  have hleaves : contents (carrierOf u).leaves = [⟨.keyword .structWord, ()⟩, ⟨.word, "A"⟩,
      ⟨.openBrace, ()⟩, ⟨.keyword .varWord, ()⟩, ⟨.word, "a"⟩, ⟨.colon, ()⟩] ++
        contents u.leaves ++ [⟨.closeBrace, ()⟩] := by
    simp [carrierOf, contents]
  have hbegin : "struct A \x7b var a: " = (Keyword.text .structWord ++ " ") ++ (("A" ++ " ") ++
      (("\x7b" ++ " ") ++ ((Keyword.text .varWord ++ " ") ++ ("a" ++ ": ")))) := by decide
  have hend : " \x7d" = " " ++ "\x7d" := by decide
  rw [hleaves, show carrier text = _ from congrArg₂ (fun s s' => s ++ text ++ s') hbegin hend]
  exact hall

end Grammar

namespace TypeRef

/-- The type stands in a text: alone, or as the type of a field or of a value of a case. -/
inductive Accepted (t : TypeRef) : Prop
  | alone {source : String} (text : ofText? source = some t)
  | declared {source : String} {records : List Record} {r : Record}
      (read : Record.readAll source = .ok records) (record : r ∈ records) (type : t ∈ r.types)

variable {t : TypeRef}

/-- A type is accepted if it is derived from words and signs. -/
theorem Accepted.exists_named (h : t.Accepted) :
    ∃ u : Of Label .type, u.Named ∧ u.located.value = t := by
  cases h with
  | alone h =>
    obtain ⟨tokens, u, hscan, hleaves, hvalue⟩ := ofText?_eq_some_iff.mp h
    obtain ⟨pieces, hcut, rfl⟩ := exists_cut_of_scan hscan
    exact ⟨u, Tree.named hcut (hleaves ▸ List.Subset.refl _), hvalue⟩
  | declared hread hr ht =>
    obtain ⟨pieces, hcut, hscan⟩ := Record.exists_cut_of_readAll hread
    obtain ⟨d, hleaves, rfl⟩ := (Record.readAll_eq_ok_iff hscan).mp hread
    obtain ⟨u, hu, hvalue⟩ := d.exists_type (List.mem_flatMap.mpr ⟨_, hr, ht⟩)
    exact ⟨u, Tree.named hcut (hleaves ▸ hu), hvalue⟩

/-- The text of an accepted type may be declared as the type of a field. -/
theorem exists_carrier (u : Of Label .type) (h : u.Named) :
    ∃ r, Record.readAll (carrier u.located.value.text) = .ok [r] ∧ r.types = [u.located.value] := by
  obtain ⟨pieces, hcut, hcontents⟩ := lexes_carrier (typeReprints u h)
  rw [List.append_nil] at hcut
  have hsame : contents (carrierOf u).leaves = contents ((pieces.tokens 1 0).map label) := by
    rw [contents_label, Pieces.map_lexeme_tokens, hcontents]
  obtain ⟨d, hleaves, hrecords⟩ := exists_same hsame
  obtain ⟨r, hr, hunplaced⟩ := List.map_eq_singleton_iff.mp hrecords
  refine ⟨r, (Record.readAll_eq_ok_iff ((scan_of_cut hcut).1 rfl)).mpr ⟨d, hleaves, hr⟩, ?_⟩
  have htypes (r : Record) : r.unplaced.types = r.types := by
    simp [Record.types, Record.unplaced, List.filterMap_map, List.flatMap_map, Function.comp_def,
      Field.unplaced, Case.unplaced, Payload.unplaced]
  rw [← htypes, hunplaced]
  rfl

/-- The text of an accepted type is read as that type, alone as well as in the declaration of a
field, and as the text of no other type. Of an array type no more than the text of the type of its
elements is kept, and that type is read from it. -/
theorem Accepted.reads_back (h : t.Accepted) :
    ofText? t.text = some t ∧
    (∃ r, Record.readAll (carrier t.text) = .ok [r] ∧ r.types = [t]) ∧
    (∀ t' : TypeRef, t'.Accepted → t'.text = t.text → t' = t) ∧
    (t.isArray = true → ∃ element : TypeRef, element.Accepted ∧ ofText? t.name = some element ∧
      t = { arrayOf element with isOptional := t.isOptional, isVariadic := t.isVariadic }) := by
  obtain ⟨u, hu, rfl⟩ := h.exists_named
  refine ⟨ofText?_of_named u hu, exists_carrier u hu, fun t' h' htext => ?_, fun harray => ?_⟩
  · obtain ⟨u', hu', rfl⟩ := h'.exists_named
    have hread := ofText?_of_named u' hu'
    rw [htext, ofText?_of_named u hu] at hread
    exact (Option.some.inj hread).symm
  · obtain ⟨v, hv, hname⟩ := exists_element u harray
    have helement : ofText? u.located.value.name = some v.located.value := by
      rw [← hname]
      exact ofText?_of_named v fun name hmem => hu name (hv hmem)
    refine ⟨v.located.value, .alone helement, helement, ?_⟩
    rw [arrayOf, ← harray]
    exact congrArg (fun name => { u.located.value with name }) hname.symm

/-- An optional array of any number of arrays of an optional type. -/
theorem reads_back_nested :
    let t : TypeRef := { name := "[A.B?]...", isOptional := true, isArray := true }
    t.Accepted ∧ ofText? t.text = some t ∧
      ofText? t.name = some { name := "A.B?", isArray := true, isVariadic := true } := by
  have htext : ofText? "[[A.B ?] ... ]?" =
      some { name := "[A.B?]...", isOptional := true, isArray := true } := by
    rw [ofText?]
    conv in Token.scan _ => cbv
    rfl
  have hname : ofText? "[A.B?]..." =
      some { name := "A.B?", isArray := true, isVariadic := true } := by
    rw [ofText?]
    conv in Token.scan _ => cbv
    rfl
  have haccepted := Accepted.alone htext
  exact ⟨haccepted, haccepted.reads_back.1, hname⟩

end TypeRef

end RowSchema
