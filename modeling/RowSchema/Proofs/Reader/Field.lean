import RowSchema.Proofs.Reader.Block
import RowSchema.Proofs.Reader.Expr
import RowSchema.Proofs.Reader.Lists
import RowSchema.Proofs.Reader.TypeRef
import RowSchema.Reader.Field

/-! # Field declarations

The reader of field declarations holds all that it has read, and it reads every field
declaration. -/

namespace RowSchema.Reader

open Grammar

variable {τ : Terminal → Type} {x : Sigma τ}

/-! ## Bindings -/

theorem TypeReader.refuses_of_endsItem {k : Terminal} (h : endsItem k = true) :
    TypeReader.refuses k = true := by
  cases k <;> first | rfl | cases h

theorem ExprReader.ends_of_endsItem {k : Terminal} (h : endsItem k = true) :
    ExprReader.ends k = true := by
  cases k <;> first | rfl | cases h

/-- The tokens of the type of a binding and of the colon before it. -/
def typedLeaves : Option (τ .colon × Of τ .type) → List (Sigma τ)
  | none => []
  | some (colon, t) => ⟨.colon, colon⟩ :: t.leaves

@[simp] theorem leaves_initialized (w : τ .word) (type : Option (τ .colon × Of τ .type))
    (equals : τ .equals) (e : Of τ .expression) :
    (initialized w type equals e).leaves =
      ⟨.word, w⟩ :: (typedLeaves type ++ ⟨.equals, equals⟩ :: e.leaves) := by
  cases type <;> simp [initialized, typedLeaves]

namespace BindingReader

variable {r r' : BindingReader τ}

/-- The tokens that have been read. -/
def leaves : BindingReader τ → List (Sigma τ)
  | start => []
  | name w => [⟨.word, w⟩]
  | type w colon reader => ⟨.word, w⟩ :: ⟨.colon, colon⟩ :: reader.leaves
  | value w declared equals reader =>
    ⟨.word, w⟩ :: (typedLeaves declared ++ ⟨.equals, equals⟩ :: reader.leaves)
  | block w colon t reader => ⟨.word, w⟩ :: ⟨.colon, colon⟩ :: (t.leaves ++ reader.leaves)

theorem leaves_feed (h : r.feed x = some r') : r'.leaves = r.leaves ++ [x] := by
  unfold feed at h
  split at h
  · obtain rfl := Option.some.inj h
    simp [leaves]
  · obtain rfl := Option.some.inj h
    simp [leaves, TypeReader.leaves, TypePart.leaves]
  · obtain rfl := Option.some.inj h
    simp [leaves, typedLeaves, ExprReader.leaves, ExprPart.leaves]
  · split at h
    · next reader hfeed =>
      obtain rfl := Option.some.inj h
      simp [leaves, TypeReader.leaves_feed hfeed]
    · split at h
      · next ht _ =>
        obtain rfl := Option.some.inj h
        simp [leaves, typedLeaves, TypeReader.leaves_of_type? ht, ExprReader.leaves,
          ExprPart.leaves]
      · next ht _ =>
        obtain rfl := Option.some.inj h
        simp [leaves, TypeReader.leaves_of_type? ht, BlockReader.leaves, OpenBlock.leaves]
      · cases h
  · obtain ⟨reader, hfeed, rfl⟩ := Option.map_eq_some_iff.mp h
    simp [leaves, ExprReader.leaves_feed hfeed]
  · obtain ⟨reader, hfeed, rfl⟩ := Option.map_eq_some_iff.mp h
    simp [leaves, BlockReader.leaves_feed hfeed]
  · cases h

theorem leaves_of_binding? {b : Of τ .binding} (h : r.binding? = some b) :
    b.leaves = r.leaves := by
  cases r with
  | start => cases h
  | name w =>
    obtain rfl := Option.some.inj h
    simp [leaves]
  | type w colon reader =>
    obtain ⟨t, ht, rfl⟩ := Option.map_eq_some_iff.mp h
    simp [leaves, TypeReader.leaves_of_type? ht]
  | value w declared equals reader =>
    obtain ⟨e, he, rfl⟩ := Option.map_eq_some_iff.mp h
    simp [leaves, ExprReader.leaves_of_expr? he]
  | block w colon t reader =>
    obtain ⟨b, hb, rfl⟩ := Option.map_eq_some_iff.mp h
    simp [leaves, BlockReader.leaves_of_block? hb]

theorem feed_of_binding? {b : Of τ .binding} (h : r.binding? = some b)
    (hx : endsItem x.1 = true) : r.feed x = none := by
  cases r with
  | start => cases h
  | name w =>
    unfold feed
    split <;> first | rfl | contradiction
  | type w colon reader =>
    have hnone : reader.feed x = none :=
      TypeReader.feed_of_refuses (TypeReader.refuses_of_endsItem hx)
    unfold feed
    simp only [hnone]
    split <;> first | rfl | cases hx
  | value w declared equals reader =>
    obtain ⟨e, he, rfl⟩ := Option.map_eq_some_iff.mp h
    exact congrArg (Option.map _) (ExprReader.feed_of_expr? he (ExprReader.ends_of_endsItem hx))
  | block w colon t reader =>
    obtain ⟨b, hb, rfl⟩ := Option.map_eq_some_iff.mp h
    exact congrArg (Option.map _) (BlockReader.feed_of_block? hb)

section Steps

variable {w : τ .word} {colon : τ .colon} {declared : Option (τ .colon × Of τ .type)}
  {equals : τ .equals} {t : Of τ .type}

theorem feed_type (r : TypeReader τ) (x : Sigma τ) (r' : TypeReader τ)
    (h : r.feed x = some r') : feed (.type w colon r) x = some (.type w colon r') := by
  unfold feed
  simp only [h]

theorem feed_value (r : ExprReader τ) (x : Sigma τ) (r' : ExprReader τ)
    (h : r.feed x = some r') :
    feed (.value w declared equals r) x = some (.value w declared equals r') :=
  congrArg (Option.map _) h

theorem feed_block (r : BlockReader τ) (x : Sigma τ) (r' : BlockReader τ)
    (h : r.feed x = some r') : feed (.block w colon t r) x = some (.block w colon t r') :=
  congrArg (Option.map _) h

theorem feed_type_equals {r : TypeReader τ} (h : r.type? = some t) :
    feed (.type w colon r) ⟨.equals, equals⟩ = some (.value w (some (colon, t)) equals {}) := by
  have hnone : r.feed ⟨.equals, equals⟩ = none := TypeReader.feed_of_refuses rfl
  unfold feed
  simp only [hnone, h]

theorem feed_type_openBrace {r : TypeReader τ} (h : r.type? = some t) (b : τ .openBrace) :
    feed (.type w colon r) ⟨.openBrace, b⟩ = some (.block w colon t (.inside (b, none) [])) := by
  have hnone : r.feed ⟨.openBrace, b⟩ = none := TypeReader.feed_of_refuses rfl
  unfold feed
  simp only [hnone, h]

end Steps

/-- The name, the colon and the type of a binding. -/
theorem reads_type (w : τ .word) (colon : τ .colon) (t : Of τ .type) : ∃ r : TypeReader τ,
    Reads feed .start (⟨.word, w⟩ :: ⟨.colon, colon⟩ :: t.leaves) (.type w colon r) ∧
      r.type? = some t := by
  obtain ⟨r, hread, ht⟩ := TypeReader.finds t
  have hname : feed .start ⟨.word, w⟩ = some (.name w) := rfl
  have hcolon : feed (.name w) ⟨.colon, colon⟩ = some (.type w colon {}) := rfl
  exact ⟨r, Reads.cons hname (Reads.cons hcolon (hread.lift feed_type)), ht⟩

theorem finds (b : Of τ .binding) : Finds feed binding? .start b := by
  cases b with
  | node p children =>
    cases p with
    | bindingName =>
      match children with
      | .cons (.leaf w) .nil => exact ⟨.name w, .one rfl, rfl⟩
    | bindingTyped =>
      match children with
      | .cons (.leaf w) (.cons (.leaf colon) (.cons t .nil)) =>
        obtain ⟨r, hread, ht⟩ := reads_type w colon t
        exact ⟨.type w colon r, by simpa using hread, by simp [binding?, ht]⟩
    | bindingInitialized =>
      match children with
      | .cons (.leaf w) (.cons (.leaf equals) (.cons e .nil)) =>
        obtain ⟨r, hread, he⟩ := ExprReader.finds e
        have hname : feed .start ⟨.word, w⟩ = some (.name w) := rfl
        have hequals : feed (.name w) ⟨.equals, equals⟩ = some (.value w none equals {}) := rfl
        refine ⟨.value w none equals r, ?_, by simp [binding?, he, initialized]⟩
        simpa using Reads.cons hname (Reads.cons hequals (hread.lift feed_value))
    | bindingTypedInitialized =>
      match children with
      | .cons (.leaf w) (.cons (.leaf colon) (.cons t (.cons (.leaf equals) (.cons e .nil)))) =>
        obtain ⟨r, hread, ht⟩ := reads_type w colon t
        obtain ⟨r', hread', he⟩ := ExprReader.finds e
        refine ⟨.value w (some (colon, t)) equals r', ?_, by simp [binding?, he, initialized]⟩
        simpa using (hread.snoc (feed_type_equals ht)).append (hread'.lift feed_value)
    | bindingComputed =>
      match children with
      | .cons (.leaf w) (.cons (.leaf colon) (.cons t (.cons body .nil))) =>
        obtain ⟨r, hread, ht⟩ := reads_type w colon t
        obtain ⟨b, rest, hleaves, hblock⟩ := BlockReader.reads_block body
        refine ⟨.block w colon t (.closed body), ?_, rfl⟩
        simpa [hleaves] using
          (hread.snoc (feed_type_openBrace ht b)).append (hblock.lift feed_block)

end BindingReader

/-! ## Declarations -/

/-- The word `static`, if it is there. -/
def staticLeaves : Option (τ (.keyword .staticWord)) → List (Sigma τ)
  | none => []
  | some s => [⟨.keyword .staticWord, s⟩]

@[simp] theorem leaves_fieldOf (static : Option (τ (.keyword .staticWord)))
    (keyword : Of τ .bindingKeyword) (bindings : Of τ .bindingList) :
    (fieldOf static keyword bindings).leaves =
      staticLeaves static ++ (keyword.leaves ++ bindings.leaves) := by
  cases static <;> simp [fieldOf, staticLeaves]

namespace FieldReader

variable {r r' : FieldReader τ}

/-- The tokens that have been read. -/
def leaves (r : FieldReader τ) : List (Sigma τ) :=
  staticLeaves r.static ++ (r.keyword.leaves ++ (r.done.leaves ++ r.current.leaves))

theorem leaves_of_bindings? {t : Of τ .bindingList} (h : r.bindings? = some t) :
    t.leaves = r.done.leaves ++ r.current.leaves := by
  obtain ⟨b, hb, rfl⟩ := Option.map_eq_some_iff.mp h
  simp [BindingReader.leaves_of_binding? hb]

theorem leaves_feed (h : r.feed x = some r') : r'.leaves = r.leaves ++ [x] := by
  unfold feed at h
  split at h
  · next current hfeed =>
    obtain rfl := Option.some.inj h
    simp [leaves, BindingReader.leaves_feed hfeed]
  · split at h
    · next hbindings _ =>
      obtain rfl := Option.some.inj h
      simp [leaves, Listed.leaves, BindingReader.leaves, leaves_of_bindings? hbindings]
    · cases h

theorem leaves_of_field? {t : Of τ .fieldDecl} (h : r.field? = some t) : t.leaves = r.leaves := by
  obtain ⟨bindings, hbindings, rfl⟩ := Option.map_eq_some_iff.mp h
  simp [leaves, leaves_of_bindings? hbindings]

theorem feed_of_field? {t : Of τ .fieldDecl} (h : r.field? = some t)
    (hx : endsMember x.1 = true) : r.feed x = none := by
  obtain ⟨bindings, hbindings, rfl⟩ := Option.map_eq_some_iff.mp h
  obtain ⟨b, hb, rfl⟩ := Option.map_eq_some_iff.mp hbindings
  simp only [feed, BindingReader.feed_of_binding? hb (endsItem_of_endsMember hx)]
  split <;> first | rfl | cases hx

theorem bindingList_eq (t : Of τ .bindingList) :
    ∃ (done : Listed τ .bindingList) (b : Of τ .binding),
      done.add .bindingFirst .bindingMore b = t := by
  cases t with
  | node p children =>
    cases p with
    | bindingFirst =>
      match children with
      | .cons b .nil => exact ⟨none, b, rfl⟩
    | bindingMore =>
      match children with
      | .cons bindings (.cons (.leaf c) (.cons b .nil)) => exact ⟨some (bindings, c), b, rfl⟩

/-- The bindings of a declaration, after its keyword. -/
theorem reads_bindings (static : Option (τ (.keyword .staticWord)))
    (keyword : Of τ .bindingKeyword) (t : Of τ .bindingList) : ∃ r : FieldReader τ,
      Reads feed { static, keyword } t.leaves r ∧ r.field? = some (fieldOf static keyword t) := by
  let state (done : Listed τ .bindingList) (current : BindingReader τ) : FieldReader τ :=
    { static, keyword, done, current }
  have hitem (done : Listed τ .bindingList) (b : Of τ .binding) : ∃ current : BindingReader τ,
      Reads feed (state done .start) b.leaves (state done current) ∧
        current.binding? = some b := by
    obtain ⟨current, hread, hb⟩ := BindingReader.finds b
    exact ⟨current, hread.lift fun r x r' h => by simp [state, feed, h], hb⟩
  have hcomma (done : Listed τ .bindingList) (current : BindingReader τ) (b : Of τ .binding)
      (c : τ .comma) (hb : current.binding? = some b) :
      feed (state done current) ⟨.comma, c⟩ =
        some (state (some (done.add .bindingFirst .bindingMore b, c)) .start) := by
    have hnone : current.feed ⟨.comma, c⟩ = none := BindingReader.feed_of_binding? hb rfl
    simp [state, feed, hnone, bindings?, hb]
  obtain ⟨done, current, b, hread, hb, rfl⟩ :=
    reads_listed feed state .start BindingReader.binding? bindingList_eq hitem hcomma t
  exact ⟨state done current, hread, by simp [state, field?, bindings?, hb]⟩

end FieldReader

end RowSchema.Reader
