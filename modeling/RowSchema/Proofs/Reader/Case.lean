import RowSchema.Proofs.Reader.Expr
import RowSchema.Proofs.Reader.Lists
import RowSchema.Proofs.Reader.TypeRef
import RowSchema.Reader.Case

/-! # Case declarations

The reader of case declarations holds all that it has read, and it reads every case
declaration. -/

namespace RowSchema.Reader

open Grammar

variable {τ : Terminal → Type} {x : Sigma τ}

/-! ## Associated values -/

@[simp] theorem leaves_payloadOf (label : Option (Labelling τ)) (t : Of τ .type) :
    (payloadOf label t).leaves = labelLeaves label ++ t.leaves := by
  cases label <;> simp [payloadOf, labelLeaves]

@[simp] theorem leaves_payloadWith (label : Option (Labelling τ)) (t : Of τ .type)
    (equals : τ .equals) (e : Of τ .expression) :
    (payloadWith label t equals e).leaves =
      labelLeaves label ++ (t.leaves ++ ⟨.equals, equals⟩ :: e.leaves) := by
  cases label <;> simp [payloadWith, labelLeaves]

namespace PayloadReader

variable {r r' : PayloadReader τ} {label : Option (Labelling τ)}

/-- The tokens that have been read. -/
def leaves : PayloadReader τ → List (Sigma τ)
  | start => []
  | word w => [⟨.word, w⟩]
  | type label reader => labelLeaves label ++ reader.leaves
  | value label t equals reader =>
    labelLeaves label ++ (t.leaves ++ ⟨.equals, equals⟩ :: reader.leaves)

theorem leaves_feedType {reader : TypeReader τ} (h : feedType label reader x = some r') :
    r'.leaves = labelLeaves label ++ (reader.leaves ++ [x]) := by
  unfold feedType at h
  split at h
  · next next hfeed =>
    obtain rfl := Option.some.inj h
    simp [leaves, TypeReader.leaves_feed hfeed]
  · split at h
    · next ht _ =>
      obtain rfl := Option.some.inj h
      simp [leaves, TypeReader.leaves_of_type? ht, ExprReader.leaves, ExprPart.leaves]
    · cases h

theorem leaves_feed (h : r.feed x = some r') : r'.leaves = r.leaves ++ [x] := by
  unfold feed at h
  split at h
  · obtain rfl := Option.some.inj h
    simp [leaves]
  · simpa [leaves, labelLeaves, TypeReader.leaves, TypePart.leaves] using leaves_feedType h
  · obtain rfl := Option.some.inj h
    simp [leaves, labelLeaves, TypeReader.leaves, TypePart.leaves]
  · simpa [leaves, labelLeaves, named, TypeReader.leaves, TypePart.leaves] using
      leaves_feedType h
  · simpa [leaves] using leaves_feedType h
  · obtain ⟨reader, hfeed, rfl⟩ := Option.map_eq_some_iff.mp h
    simp [leaves, ExprReader.leaves_feed hfeed]

theorem leaves_of_payload? {t : Of τ .payload} (h : r.payload? = some t) :
    t.leaves = r.leaves := by
  cases r with
  | start => cases h
  | word w =>
    obtain rfl := Option.some.inj h
    simp [leaves, labelLeaves]
  | type label reader =>
    obtain ⟨t, ht, rfl⟩ := Option.map_eq_some_iff.mp h
    simp [leaves, TypeReader.leaves_of_type? ht]
  | value label t equals reader =>
    obtain ⟨e, he, rfl⟩ := Option.map_eq_some_iff.mp h
    simp [leaves, ExprReader.leaves_of_expr? he]

/-- Whether an associated value ends where such a token follows. -/
def ends : Terminal → Bool
  | .comma | .closeParen => true
  | _ => false

theorem refuses_of_ends {k : Terminal} (h : ends k = true) : TypeReader.refuses k = true := by
  cases k <;> first | rfl | cases h

theorem exprEnds_of_ends {k : Terminal} (h : ends k = true) : ExprReader.ends k = true := by
  cases k <;> first | rfl | cases h

theorem feedType_of_ends {reader : TypeReader τ} (hx : ends x.1 = true) :
    feedType label reader x = none := by
  have hnone : reader.feed x = none := TypeReader.feed_of_refuses (refuses_of_ends hx)
  simp only [feedType, hnone]
  split <;> first | rfl | cases hx

theorem feed_of_payload? {t : Of τ .payload} (h : r.payload? = some t)
    (hx : ends x.1 = true) : r.feed x = none := by
  cases r with
  | start => cases h
  | word w =>
    unfold feed
    split <;> first | exact feedType_of_ends hx | contradiction
  | type label reader => exact feedType_of_ends hx
  | value label t equals reader =>
    obtain ⟨e, he, rfl⟩ := Option.map_eq_some_iff.mp h
    exact congrArg (Option.map _) (ExprReader.feed_of_expr? he (exprEnds_of_ends hx))

/-- The states for a type without a label. A single name is kept as a word. -/
inductive Holds : TypeReader τ → PayloadReader τ → Prop where
  | start : Holds {} .start
  | word (w : τ .word) : Holds (named w) (.word w)
  | type (reader : TypeReader τ) : Holds reader (.type none reader)

theorem feedType_of_feed {reader reader' : TypeReader τ} (h : reader.feed x = some reader') :
    feedType label reader x = some (.type label reader') := by
  simp [feedType, h]

/-- After a type nothing may follow but a default. -/
theorem feedType_equals {reader : TypeReader τ} {t : Of τ .type} (h : reader.type? = some t)
    (equals : τ .equals) :
    feedType label reader ⟨.equals, equals⟩ = some (.value label t equals {}) := by
  have hnone : reader.feed ⟨.equals, equals⟩ = none := TypeReader.feed_of_refuses rfl
  simp [feedType, hnone, h]

theorem holds_feed (reader : TypeReader τ) (p : PayloadReader τ) (x : Sigma τ)
    (reader' : TypeReader τ) (h : Holds reader p) (hfeed : reader.feed x = some reader') :
    ∃ p', feed p x = some p' ∧ Holds reader' p' := by
  cases h with
  | start =>
    by_cases hword : x.1 = .word
    · obtain ⟨k, w⟩ := x
      obtain rfl : k = .word := hword
      obtain rfl := Option.some.inj hfeed
      exact ⟨.word w, rfl, .word w⟩
    · refine ⟨.type none reader', ?_, .type reader'⟩
      unfold feed
      split <;> first | exact feedType_of_feed hfeed | contradiction
  | word w =>
    refine ⟨.type none reader', ?_, .type reader'⟩
    obtain ⟨k, l⟩ := x
    cases k with
    | colon => cases hfeed
    | _ => exact feedType_of_feed hfeed
  | type reader => exact ⟨.type none reader', feedType_of_feed hfeed, .type reader'⟩

theorem feed_equals {reader : TypeReader τ} {p : PayloadReader τ} {t : Of τ .type}
    (h : Holds reader p) (ht : reader.type? = some t) (equals : τ .equals) :
    feed p ⟨.equals, equals⟩ = some (.value none t equals {}) := by
  cases h with
  | start => cases ht
  | word w =>
    obtain rfl := Option.some.inj ht
    rfl
  | type reader => exact feedType_equals ht equals

theorem payload?_of_holds {reader : TypeReader τ} {p : PayloadReader τ} {t : Of τ .type}
    (h : Holds reader p) (ht : reader.type? = some t) :
    p.payload? = some (payloadOf none t) := by
  cases h with
  | start => cases ht
  | word w => simp [payload?, ht]
  | type reader => simp [payload?, ht]

theorem feed_type (r : TypeReader τ) (x : Sigma τ) (r' : TypeReader τ)
    (h : r.feed x = some r') : feed (.type label r) x = some (.type label r') :=
  feedType_of_feed h

theorem feed_value {t : Of τ .type} {equals : τ .equals} (r : ExprReader τ) (x : Sigma τ)
    (r' : ExprReader τ) (h : r.feed x = some r') :
    feed (.value label t equals r) x = some (.value label t equals r') :=
  congrArg (Option.map _) h

/-- The label, the colon and the type of an associated value. -/
theorem reads_labeled (w : τ .word) (colon : τ .colon) (t : Of τ .type) : ∃ r : TypeReader τ,
    Reads feed .start (⟨.word, w⟩ :: ⟨.colon, colon⟩ :: t.leaves) (.type (some (w, colon)) r) ∧
      r.type? = some t := by
  obtain ⟨r, hread, ht⟩ := TypeReader.finds t
  have hword : feed .start ⟨.word, w⟩ = some (.word w) := rfl
  have hcolon : feed (.word w) ⟨.colon, colon⟩ = some (.type (some (w, colon)) {}) := rfl
  exact ⟨r, Reads.cons hword (Reads.cons hcolon (hread.lift feed_type)), ht⟩

theorem finds (t : Of τ .payload) : Finds feed payload? .start t := by
  cases t with
  | node p children =>
    cases p with
    | payload =>
      match children with
      | .cons t .nil =>
        obtain ⟨r, hread, ht⟩ := TypeReader.finds t
        obtain ⟨p, hread', hp⟩ := hread.simulate holds_feed .start
        exact ⟨p, by simpa using hread', payload?_of_holds hp ht⟩
    | payloadDefault =>
      match children with
      | .cons t (.cons (.leaf equals) (.cons e .nil)) =>
        obtain ⟨r, hread, ht⟩ := TypeReader.finds t
        obtain ⟨p, hread', hp⟩ := hread.simulate holds_feed .start
        obtain ⟨r', hvalue, he⟩ := ExprReader.finds e
        refine ⟨.value none t equals r', ?_, by simp [payload?, he, payloadWith]⟩
        simpa using (hread'.snoc (feed_equals hp ht equals)).append (hvalue.lift feed_value)
    | payloadLabeled =>
      match children with
      | .cons (.leaf w) (.cons (.leaf colon) (.cons t .nil)) =>
        obtain ⟨r, hread, ht⟩ := reads_labeled w colon t
        exact ⟨.type (some (w, colon)) r, by simpa using hread,
          by simp [payload?, ht, payloadOf]⟩
    | payloadLabeledDefault =>
      match children with
      | .cons (.leaf w) (.cons (.leaf colon) (.cons t (.cons (.leaf equals) (.cons e .nil)))) =>
        obtain ⟨r, hread, ht⟩ := reads_labeled w colon t
        obtain ⟨r', hvalue, he⟩ := ExprReader.finds e
        have hequals : feed (.type (some (w, colon)) r) ⟨.equals, equals⟩ =
            some (.value (some (w, colon)) t equals {}) := feedType_equals ht equals
        refine ⟨.value (some (w, colon)) t equals r', ?_, by simp [payload?, he, payloadWith]⟩
        simpa using (hread.snoc hequals).append (hvalue.lift feed_value)

end PayloadReader

/-! ## Cases -/

theorem payloadList_eq (t : Of τ .payloadList) :
    ∃ (done : Listed τ .payloadList) (p : Of τ .payload),
      done.add .payloadFirst .payloadMore p = t := by
  cases t with
  | node p children =>
    cases p with
    | payloadFirst =>
      match children with
      | .cons p .nil => exact ⟨none, p, rfl⟩
    | payloadMore =>
      match children with
      | .cons payloads (.cons (.leaf c) (.cons p .nil)) => exact ⟨some (payloads, c), p, rfl⟩

namespace ItemPart

variable {r r' : ItemPart τ}

/-- The tokens that have been read. -/
def leaves : ItemPart τ → List (Sigma τ)
  | start => []
  | name w => [⟨.word, w⟩]
  | payloads w paren done current =>
    ⟨.word, w⟩ :: ⟨.openParen, paren⟩ :: (done.leaves ++ current.leaves)
  | closed item => item.leaves

theorem leaves_feedPayloads {w : τ .word} {paren : τ .openParen} {done : Listed τ .payloadList}
    {current : PayloadReader τ} (h : feedPayloads w paren done current x = some r') :
    r'.leaves =
      ⟨.word, w⟩ :: ⟨.openParen, paren⟩ :: (done.leaves ++ (current.leaves ++ [x])) := by
  unfold feedPayloads at h
  split at h
  · next current' hfeed =>
    obtain rfl := Option.some.inj h
    simp [leaves, PayloadReader.leaves_feed hfeed]
  · split at h
    · obtain rfl := Option.some.inj h
      simp [leaves, Listed.leaves, PayloadReader.leaves]
    · next hlast _ =>
      obtain rfl := Option.some.inj h
      simp [leaves, PayloadReader.leaves_of_payload? hlast]
    · next hlast _ =>
      obtain rfl := Option.some.inj h
      simp [leaves, Listed.leaves, PayloadReader.leaves, PayloadReader.leaves_of_payload? hlast]
    · cases h

theorem leaves_feed (h : r.feed x = some r') : r'.leaves = r.leaves ++ [x] := by
  unfold feed at h
  split at h
  · obtain rfl := Option.some.inj h
    simp [leaves]
  · obtain rfl := Option.some.inj h
    simp [leaves, Listed.leaves, PayloadReader.leaves]
  · simpa [leaves] using leaves_feedPayloads h
  · cases h

theorem leaves_of_item? {t : Of τ .caseItem} (h : r.item? = some t) : t.leaves = r.leaves := by
  cases r with
  | name w =>
    obtain rfl := Option.some.inj h
    simp [leaves]
  | closed item =>
    obtain rfl := Option.some.inj h
    rfl
  | _ => cases h

theorem feed_of_item? {t : Of τ .caseItem} (h : r.item? = some t) (hx : x.1 ≠ .openParen) :
    r.feed x = none := by
  cases r with
  | name w =>
    unfold feed
    split <;> first | rfl | contradiction
  | closed item => rfl
  | _ => cases h

theorem feed_payloads {w : τ .word} {paren : τ .openParen} {done : Listed τ .payloadList}
    (r : PayloadReader τ) (x : Sigma τ) (r' : PayloadReader τ) (h : r.feed x = some r') :
    feed (.payloads w paren done r) x = some (.payloads w paren done r') := by
  show feedPayloads w paren done r x = _
  simp [feedPayloads, h]

theorem feed_comma {w : τ .word} {paren : τ .openParen} {done : Listed τ .payloadList}
    {r : PayloadReader τ} {p : Of τ .payload} (h : r.payload? = some p) (c : τ .comma) :
    feed (.payloads w paren done r) ⟨.comma, c⟩ =
      some (.payloads w paren (some (done.add .payloadFirst .payloadMore p, c)) .start) := by
  have hnone : r.feed ⟨.comma, c⟩ = none := PayloadReader.feed_of_payload? h rfl
  show feedPayloads w paren done r ⟨.comma, c⟩ = _
  simp [feedPayloads, hnone, h]

theorem feed_closeParen {w : τ .word} {paren : τ .openParen} {done : Listed τ .payloadList}
    {r : PayloadReader τ} {p : Of τ .payload} (h : r.payload? = some p) (c : τ .closeParen) :
    feed (.payloads w paren done r) ⟨.closeParen, c⟩ =
      some (.closed (.of4 .casePayloads (.leaf w) (.leaf paren)
        (done.add .payloadFirst .payloadMore p) (.leaf c))) := by
  have hnone : r.feed ⟨.closeParen, c⟩ = none := PayloadReader.feed_of_payload? h rfl
  show feedPayloads w paren done r ⟨.closeParen, c⟩ = _
  cases r with
  | start => cases h
  | _ => simp [feedPayloads, hnone, h]

/-- The associated values of a case, after their opening parenthesis. -/
theorem reads_payloads (w : τ .word) (paren : τ .openParen) (t : Of τ .payloadList)
    (c : τ .closeParen) :
    Reads feed (.payloads w paren none .start) (t.leaves ++ [⟨.closeParen, c⟩])
      (.closed (.of4 .casePayloads (.leaf w) (.leaf paren) t (.leaf c))) := by
  have hitem (done : Listed τ .payloadList) (p : Of τ .payload) : ∃ current : PayloadReader τ,
      Reads feed (.payloads w paren done .start) p.leaves (.payloads w paren done current) ∧
        current.payload? = some p := by
    obtain ⟨current, hread, hp⟩ := PayloadReader.finds p
    exact ⟨current, hread.lift feed_payloads, hp⟩
  obtain ⟨done, current, p, hread, hp, rfl⟩ :=
    reads_listed feed (.payloads w paren) .start PayloadReader.payload? payloadList_eq hitem
      (fun done current p c hp => feed_comma hp c) t
  exact hread.snoc (feed_closeParen hp c)

theorem finds (t : Of τ .caseItem) : Finds feed item? .start t := by
  cases t with
  | node p children =>
    cases p with
    | caseBare =>
      match children with
      | .cons (.leaf w) .nil => exact ⟨.name w, .one rfl, rfl⟩
    | caseEmpty =>
      match children with
      | .cons (.leaf w) (.cons (.leaf paren) (.cons (.leaf c) .nil)) =>
        have hname : feed .start ⟨.word, w⟩ = some (.name w) := rfl
        have hopen : feed (.name w) ⟨.openParen, paren⟩ =
            some (.payloads w paren none .start) := rfl
        have hclose : feed (.payloads w paren none .start) ⟨.closeParen, c⟩ =
            some (.closed (.of3 .caseEmpty (.leaf w) (.leaf paren) (.leaf c))) := rfl
        refine ⟨.closed (.of3 .caseEmpty (.leaf w) (.leaf paren) (.leaf c)), ?_, rfl⟩
        simpa using Reads.cons hname (Reads.cons hopen (.one hclose))
    | casePayloads =>
      match children with
      | .cons (.leaf w) (.cons (.leaf paren) (.cons list (.cons (.leaf c) .nil))) =>
        have hname : feed .start ⟨.word, w⟩ = some (.name w) := rfl
        have hopen : feed (.name w) ⟨.openParen, paren⟩ =
            some (.payloads w paren none .start) := rfl
        refine ⟨.closed (.of4 .casePayloads (.leaf w) (.leaf paren) list (.leaf c)), ?_, rfl⟩
        simpa using Reads.cons hname (Reads.cons hopen (reads_payloads w paren list c))

end ItemPart

/-! ## Declarations -/

namespace CasesReader

variable {r r' : CasesReader τ}

/-- The tokens that have been read. -/
def leaves (r : CasesReader τ) : List (Sigma τ) :=
  ⟨.keyword .caseWord, r.keyword⟩ :: (r.done.leaves ++ r.part.leaves)

theorem leaves_of_items? {t : Of τ .caseList} (h : r.items? = some t) :
    t.leaves = r.done.leaves ++ r.part.leaves := by
  obtain ⟨item, hitem, rfl⟩ := Option.map_eq_some_iff.mp h
  simp [ItemPart.leaves_of_item? hitem]

theorem leaves_feed (h : r.feed x = some r') : r'.leaves = r.leaves ++ [x] := by
  unfold feed at h
  split at h
  · next part hfeed =>
    obtain rfl := Option.some.inj h
    simp [leaves, ItemPart.leaves_feed hfeed]
  · split at h
    · next hitems _ =>
      obtain rfl := Option.some.inj h
      simp [leaves, Listed.leaves, ItemPart.leaves, leaves_of_items? hitems]
    · cases h

theorem leaves_of_cases? {t : Of τ .caseDecl} (h : r.cases? = some t) : t.leaves = r.leaves := by
  obtain ⟨items, hitems, rfl⟩ := Option.map_eq_some_iff.mp h
  simp [leaves, leaves_of_items? hitems]

theorem feed_of_cases? {t : Of τ .caseDecl} (h : r.cases? = some t)
    (hx : endsMember x.1 = true) : r.feed x = none := by
  obtain ⟨items, hitems, rfl⟩ := Option.map_eq_some_iff.mp h
  obtain ⟨item, hitem, rfl⟩ := Option.map_eq_some_iff.mp hitems
  have hparen : x.1 ≠ .openParen := by
    intro hparen
    rw [hparen] at hx
    cases hx
  simp only [feed, ItemPart.feed_of_item? hitem hparen]
  split <;> first | rfl | cases hx

theorem caseList_eq (t : Of τ .caseList) :
    ∃ (done : Listed τ .caseList) (item : Of τ .caseItem),
      done.add .caseFirst .caseMore item = t := by
  cases t with
  | node p children =>
    cases p with
    | caseFirst =>
      match children with
      | .cons item .nil => exact ⟨none, item, rfl⟩
    | caseMore =>
      match children with
      | .cons items (.cons (.leaf c) (.cons item .nil)) => exact ⟨some (items, c), item, rfl⟩

/-- The cases of a declaration, after its keyword. -/
theorem reads_cases (keyword : τ (.keyword .caseWord)) (t : Of τ .caseList) :
    ∃ r : CasesReader τ, Reads feed { keyword } t.leaves r ∧
      r.cases? = some (.of2 .cases (.leaf keyword) t) := by
  let state (done : Listed τ .caseList) (part : ItemPart τ) : CasesReader τ :=
    { keyword, done, part }
  have hitem (done : Listed τ .caseList) (item : Of τ .caseItem) : ∃ part : ItemPart τ,
      Reads feed (state done .start) item.leaves (state done part) ∧ part.item? = some item := by
    obtain ⟨part, hread, hpart⟩ := ItemPart.finds item
    exact ⟨part, hread.lift fun r x r' h => by simp [state, feed, h], hpart⟩
  have hcomma (done : Listed τ .caseList) (part : ItemPart τ) (item : Of τ .caseItem)
      (c : τ .comma) (hpart : part.item? = some item) :
      feed (state done part) ⟨.comma, c⟩ =
        some (state (some (done.add .caseFirst .caseMore item, c)) .start) := by
    have hnone : part.feed ⟨.comma, c⟩ = none := ItemPart.feed_of_item? hpart (by simp)
    simp [state, feed, hnone, items?, hpart]
  obtain ⟨done, part, item, hread, hpart, rfl⟩ :=
    reads_listed feed state .start ItemPart.item? caseList_eq hitem hcomma t
  exact ⟨state done part, hread, by simp [state, cases?, items?, hpart]⟩

end CasesReader

end RowSchema.Reader
