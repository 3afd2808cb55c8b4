import RowSchema.Proofs.Grammar.Spans

/-! # Headings of records

A record begins with its attributes, its keyword and its name. No keyword of a record stands among
the attributes, and what stands around the keyword and the name is known as well. -/

namespace RowSchema

/-- Whether the token is the keyword of a record. -/
def Terminal.isRecordKeyword : Terminal → Bool
  | keyword .structWord | keyword .enumWord | keyword .classWord => true
  | _ => false

/-- Whether attributes or records may end with the token. -/
def Terminal.isFinal : Terminal → Bool
  | closeBrace | closeParen | word => true
  | _ => false

namespace Grammar

/-! ## Attributes -/

/-- Whether no keyword of a record is part of what the symbol stands for. -/
def Symbol.isHeadless : Symbol → Bool
  | .token k => !k.isRecordKeyword
  | .part .attributeList | .part .attributeItem | .part .argumentList | .part .argument
  | .part .expression | .part .literal | .part .postfixExpr | .part .arrayLiteral
  | .part .expressionList => true
  | _ => false

theorem all_isHeadless {n : Nonterminal} {symbols : List Symbol} (p : Production n symbols)
    (hn : (Symbol.part n).isHeadless = true) : symbols.all Symbol.isHeadless = true := by
  cases p <;> first | rfl | cases hn

mutual

theorem Tree.headless : {s : Symbol} → (t : Tree Label s) → s.isHeadless = true →
    ∀ x ∈ t.leaves, x.1.isRecordKeyword = false
  | .token k, .leaf x, hs, y, hy => by
    obtain rfl := List.mem_singleton.mp hy
    exact (Bool.not_eq_true' _).mp hs
  | .part _, .node p children, hs, y, hy => children.headless (all_isHeadless p hs) y hy

theorem Forest.headless : {symbols : List Symbol} → (f : Forest Label symbols) →
    symbols.all Symbol.isHeadless = true → ∀ x ∈ f.leaves, x.1.isRecordKeyword = false
  | _, .nil, _, _, hy => nomatch hy
  | _, .cons first rest, hs, y, hy => by
    rw [List.all_cons, Bool.and_eq_true] at hs
    rcases List.mem_append.mp hy with hy | hy
    · exact first.headless hs.1 y hy
    · exact rest.headless hs.2 y hy

end

/-! ## What stands before a record -/

/-- The last of the tokens, if there is one, may be the end of attributes or records. -/
def Closed (xs : List (Sigma Label)) : Prop := ∀ x ∈ xs.getLast?, x.1.isFinal = true

/-- Whether what the symbol stands for ends as attributes or records do. -/
def Symbol.isClosed : Symbol → Bool
  | .token k => k.isFinal
  | .part .declarationList | .part .declaration | .part .recordBody | .part .attributeList
  | .part .attributeItem => true
  | _ => false

theorem getLast?_isClosed {n : Nonterminal} {symbols : List Symbol} (p : Production n symbols)
    (hn : (Symbol.part n).isClosed = true) : symbols.getLast?.any Symbol.isClosed = true := by
  cases p <;> first | rfl | cases hn

mutual

theorem Tree.closed : {s : Symbol} → (t : Tree Label s) → s.isClosed = true → ∀ front,
    Closed (front ++ t.leaves)
  | .token k, .leaf x, hs, front => by
    intro y hy
    obtain rfl : ⟨k, x⟩ = y := by simpa using hy
    exact hs
  | .part _, .node p children, hs, front => children.closed (getLast?_isClosed p hs) front

theorem Forest.closed : {symbols : List Symbol} → (f : Forest Label symbols) →
    symbols.getLast?.any Symbol.isClosed = true → ∀ front, Closed (front ++ f.leaves)
  | _, .cons first .nil, hs, front => by
    simpa using first.closed (by simpa using hs) front
  | _, .cons first (.cons second rest), hs, front => by
    rw [Forest.leaves, ← List.append_assoc]
    exact Forest.closed (.cons second rest) (by simpa using hs) (front ++ first.leaves)

end

/-! ## Headings -/

/-- The record begins with those attributes, that keyword and that name. The first tokens come
before it, and the last one right after its name. -/
structure Heading (r : Record) (front attributes : List (Sigma Label)) (k : Keyword)
    (word : Label (.keyword k)) (name : Label .word) (next : Sigma Label) : Prop where
  keyword : (Terminal.keyword k).isRecordKeyword = true
  kind_eq : r.kind.text = k.text
  name_eq : name.value = r.name
  closed : Closed (front ++ attributes)
  headless : ∀ x ∈ attributes, x.1.isRecordKeyword = false
  next_eq : next.1 = .colon ∨ next.1 = .openBrace
  start_eq : ∃ stop, r.span = some ⟨(hull (attributes ++ [⟨.keyword k, word⟩])).start, stop⟩

/-- The record has its heading among the tokens. -/
def HasHeading (front xs : List (Sigma Label)) (r : Record) : Prop :=
  ∃ before attributes k word name next back,
    front ++ xs = before ++ (attributes ++ ⟨.keyword k, word⟩ :: ⟨.word, name⟩ :: next :: back) ∧
      Heading r before attributes k word name next

theorem exists_recordKeyword (t : Of Label .recordKeyword) : ∃ k word,
    t.leaves = [⟨.keyword k, word⟩] ∧ (Terminal.keyword k).isRecordKeyword = true ∧
      Kind.text t.located.value = k.text := by
  cases t with
  | node p children =>
    cases p with
    | structKeyword | enumKeyword | classKeyword =>
      match children with
      | .cons (.leaf word) .nil => exact ⟨_, word, rfl, rfl, rfl⟩

/-- A header begins with a keyword and a name. If anything comes after these, a colon does. -/
theorem exists_recordHeader (t : Of Label .recordHeader) : ∃ k word name more,
    t.leaves = ⟨.keyword k, word⟩ :: ⟨.word, name⟩ :: more ∧
      (Terminal.keyword k).isRecordKeyword = true ∧
      Kind.text (t.located.value : Kind × String).1 = k.text ∧
      (t.located.value : Kind × String).2 = name.value ∧
      ∀ x ∈ more.head?, x.1 = .colon := by
  cases t with
  | node p children =>
    cases p with
    | header =>
      match children with
      | .cons keyword (.cons (.leaf name) .nil) =>
        obtain ⟨k, word, hleaves, hk, htext⟩ := exists_recordKeyword keyword
        exact ⟨k, word, name, [], by simp [hleaves], hk, htext, rfl, nofun⟩
    | headerConforming =>
      match children with
      | .cons keyword (.cons (.leaf name) (.cons (.leaf colon) (.cons list .nil))) =>
        obtain ⟨k, word, hleaves, hk, htext⟩ := exists_recordKeyword keyword
        refine ⟨k, word, name, ⟨.colon, colon⟩ :: list.leaves, by simp [hleaves], hk, htext, rfl,
          ?_⟩
        intro x hx
        obtain rfl := Option.some.inj hx
        rfl

theorem exists_recordBody (t : Of Label .recordBody) :
    ∃ brace rest, t.leaves = ⟨.openBrace, brace⟩ :: rest := by
  cases t with
  | node p children =>
    cases p with
    | body =>
      match children with
      | .cons (.leaf brace) (.cons members (.cons close .nil)) => exact ⟨brace, _, rfl⟩
    | bodyEmpty =>
      match children with
      | .cons (.leaf brace) (.cons close .nil) => exact ⟨brace, _, rfl⟩

/-- A record has its heading after what comes before it. -/
theorem hasHeading_of_parts {front attributes : List (Sigma Label)}
    (hfront : Closed (front ++ attributes))
    (hheadless : ∀ x ∈ attributes, x.1.isRecordKeyword = false) (header : Of Label .recordHeader)
    (body : Of Label .recordBody) {r : Record}
    (hkind : r.kind = (header.located.value : Kind × String).1)
    (hname : r.name = (header.located.value : Kind × String).2)
    (hspan : r.span = some (hull (attributes ++ (header.leaves ++ body.leaves)))) :
    HasHeading front (attributes ++ (header.leaves ++ body.leaves)) r := by
  obtain ⟨k, word, name, more, hleaves, hk, htext, hvalue, hmore⟩ := exists_recordHeader header
  obtain ⟨brace, inner, hbody⟩ := exists_recordBody body
  obtain ⟨next, back, hnext, hcolon⟩ : ∃ next back, more ++ body.leaves = next :: back ∧
      (next.1 = .colon ∨ next.1 = .openBrace) := by
    cases more with
    | nil => exact ⟨_, inner, hbody, .inr rfl⟩
    | cons x more => exact ⟨x, more ++ body.leaves, rfl, .inl (hmore x rfl)⟩
  refine ⟨front, attributes, k, word, name, next, back, ?_, hk, ?_, ?_, hfront, hheadless, hcolon,
    ?_⟩
  · simp [hleaves, hnext]
  · rw [hkind, htext]
  · rw [hname, hvalue]
  · have hsplit : attributes ++ (header.leaves ++ body.leaves) =
        (attributes ++ [⟨.keyword k, word⟩]) ++ (⟨.word, name⟩ :: (more ++ body.leaves)) := by
      simp [hleaves]
    rw [hsplit, hull_append (by simp) (List.cons_ne_nil _ _)] at hspan
    exact ⟨_, hspan⟩

theorem hasHeading_of_declaration (t : Of Label .declaration) {front : List (Sigma Label)}
    (hfront : Closed front) : HasHeading front t.leaves (t.located.value : Record) := by
  have hspan := congrArg some (t.spread nofun).2
  cases t with
  | node p children =>
    cases p with
    | declarationAttributed =>
      match children with
      | .cons attributes (.cons header (.cons body .nil)) =>
        have hleaves : Tree.leaves (.of3 .declarationAttributed attributes header body) =
            attributes.leaves ++ (header.leaves ++ body.leaves) := by simp
        rw [hleaves] at hspan ⊢
        exact hasHeading_of_parts (attributes.closed rfl front) (attributes.headless rfl) header
          body rfl rfl hspan
    | declarationPlain =>
      match children with
      | .cons header (.cons body .nil) =>
        have hleaves : Tree.leaves (.of2 .declarationPlain header body) =
            [] ++ (header.leaves ++ body.leaves) := by simp
        rw [hleaves] at hspan ⊢
        exact hasHeading_of_parts (by rwa [List.append_nil]) (List.forall_mem_nil _) header body rfl
          rfl hspan

/-- Each record that a list of records declares has its heading. -/
def HasHeadings : {s : Symbol} → Tree Label s → Prop
  | .part .declarationList, t => ∀ r ∈ (t.located.value : List Record), HasHeading [] t.leaves r
  | _, _ => True

theorem HasHeading.append {front xs : List (Sigma Label)} {r : Record} (h : HasHeading front xs r)
    (ys : List (Sigma Label)) : HasHeading [] (front ++ xs ++ ys) r := by
  obtain ⟨before, attributes, k, word, name, next, back, heq, hheading⟩ := h
  exact ⟨before, attributes, k, word, name, next, back ++ ys, by simp [heq], hheading⟩

theorem hasHeadings {s : Symbol} (t : Tree Label s) : HasHeadings t := by
  refine Tree.induct (fun _ => trivial) (fun p children ih => ?_) t
  cases p with
  | declarationFirst =>
    match children with
    | .cons d .nil =>
      intro r hr
      obtain rfl := List.mem_singleton.mp hr
      have hheading : HasHeading [] d.leaves _ := hasHeading_of_declaration d nofun
      simpa using hheading
  | declarationMore =>
    match children, ih with
    | .cons list (.cons d .nil), ⟨hlist, _⟩ =>
      intro r hr
      rcases List.mem_append.mp hr with hr | hr
      · simpa using (hlist r hr).append d.leaves
      · obtain rfl := List.mem_singleton.mp hr
        have hclosed : Closed list.leaves := list.closed rfl []
        simpa using (hasHeading_of_declaration d hclosed).append []
  | _ => trivial

/-- Every record of a text has its heading. -/
theorem hasHeading_of_mem_records (t : Of Label .declarations) {r : Record} (hr : r ∈ t.records) :
    HasHeading [] t.leaves r := by
  cases t with
  | node p children =>
    cases p with
    | declarations =>
      match children with
      | .cons list .nil => simpa using hasHeadings list r hr
    | declarationsEmpty => cases hr

end Grammar

end RowSchema
