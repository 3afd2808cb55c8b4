import RowSchema.Proofs.Reader.Reads
import RowSchema.Reader.TypeRef

/-! # Types

The reader of types holds all that it has read, and it reads every type. -/

namespace RowSchema.Reader

open Grammar

variable {τ : Terminal → Type}

namespace TypePart

/-- The tokens that the part consists of. -/
def leaves : TypePart τ → List (Sigma τ)
  | start => []
  | name path => path.leaves
  | dot path d => path.leaves ++ [⟨.dot, d⟩]
  | array t => t.leaves
  | suffixed t => t.leaves

theorem leaves_of_base? {part : TypePart τ} {t : Of τ .baseType} (h : part.base? = some t) :
    t.leaves = part.leaves := by
  cases part with
  | name path =>
    obtain rfl := Option.some.inj h
    simp [leaves]
  | array base =>
    obtain rfl := Option.some.inj h
    rfl
  | _ => cases h

theorem leaves_of_type? {part : TypePart τ} {t : Of τ .type} (h : part.type? = some t) :
    t.leaves = part.leaves := by
  unfold type? at h
  split at h
  · obtain rfl := Option.some.inj h
    rfl
  · obtain ⟨base, hbase, rfl⟩ := Option.map_eq_some_iff.mp h
    simp [leaves_of_base? hbase]

end TypePart

namespace TypeReader

variable {r r' : TypeReader τ} {x : Sigma τ} {brackets : List (τ .openBracket)}
  {part : TypePart τ}

/-- The tokens that have been read. -/
def leaves (r : TypeReader τ) : List (Sigma τ) :=
  r.brackets.reverse.map (Sigma.mk .openBracket) ++ r.part.leaves

theorem leaves_feed (h : r.feed x = some r') : r'.leaves = r.leaves ++ [x] := by
  obtain ⟨brackets, part⟩ := r
  simp only [feed] at h
  split at h
  · obtain rfl := Option.some.inj h
    simp [leaves, TypePart.leaves]
  · obtain rfl := Option.some.inj h
    simp [leaves, TypePart.leaves]
  · obtain rfl := Option.some.inj h
    simp [leaves, TypePart.leaves]
  · obtain rfl := Option.some.inj h
    simp [leaves, TypePart.leaves]
  · split at h
    · next b outer element helement =>
      obtain rfl := Option.some.inj h
      simp [leaves, TypePart.leaves, TypePart.leaves_of_type? helement]
    · cases h
  · obtain ⟨t, ht, rfl⟩ := Option.map_eq_some_iff.mp h
    simp [leaves, TypePart.leaves, TypePart.leaves_of_base? ht]
  · obtain ⟨t, ht, rfl⟩ := Option.map_eq_some_iff.mp h
    simp [leaves, TypePart.leaves, TypePart.leaves_of_base? ht]
  · cases h

theorem leaves_of_type? {t : Of τ .type} (h : r.type? = some t) : t.leaves = r.leaves := by
  obtain ⟨brackets, part⟩ := r
  cases brackets with
  | nil => exact TypePart.leaves_of_type? h
  | cons b outer => cases h

/-- No type consists of such tokens. -/
def refuses : Terminal → Bool
  | .word | .dot | .openBracket | .closeBracket | .question | .ellipsis => false
  | _ => true

theorem feed_of_refuses (h : refuses x.1 = true) : r.feed x = none := by
  obtain ⟨terminal, value⟩ := x
  cases terminal <;> first | rfl | cases h

theorem feed_question {t : Of τ .baseType} (h : part.base? = some t) (q : τ .question) :
    feed ⟨brackets, part⟩ ⟨.question, q⟩ =
      some ⟨brackets, .suffixed (.of2 .typeOptional t (.leaf q))⟩ :=
  congrArg (Option.map _) h

theorem feed_ellipsis {t : Of τ .baseType} (h : part.base? = some t) (e : τ .ellipsis) :
    feed ⟨brackets, part⟩ ⟨.ellipsis, e⟩ =
      some ⟨brackets, .suffixed (.of2 .typeVariadic t (.leaf e))⟩ :=
  congrArg (Option.map _) h

theorem feed_closeBracket {t : Of τ .type} (h : part.type? = some t) (b : τ .openBracket)
    (c : τ .closeBracket) :
    feed ⟨b :: brackets, part⟩ ⟨.closeBracket, c⟩ =
      some ⟨brackets, .array (.of3 .baseArray (.leaf b) t (.leaf c))⟩ := by
  unfold feed
  simp only [h]

theorem type?_of_base? {t : Of τ .baseType} (h : part.base? = some t) :
    part.type? = some (.of1 .type t) := by
  cases part with
  | suffixed whole => cases h
  | _ => simp [TypePart.type?, h]

/-- What the reader makes of the tokens of a type, or of one of the parts of a type. -/
def Follows : {s : Symbol} → Tree τ s → Prop
  | .part .dottedName, t => ∀ brackets : List (τ .openBracket),
      Reads feed ⟨brackets, .start⟩ t.leaves ⟨brackets, .name t⟩
  | .part .baseType, t => ∀ brackets : List (τ .openBracket), ∃ part : TypePart τ,
      Reads feed ⟨brackets, .start⟩ t.leaves ⟨brackets, part⟩ ∧ part.base? = some t
  | .part .type, t => ∀ brackets : List (τ .openBracket), ∃ part : TypePart τ,
      Reads feed ⟨brackets, .start⟩ t.leaves ⟨brackets, part⟩ ∧ part.type? = some t
  | _, _ => True

theorem follows {s : Symbol} (t : Tree τ s) : Follows t := by
  refine Tree.induct (fun _ => trivial) (fun p children ih => ?_) t
  cases p with
  | dottedFirst =>
    match children with
    | .cons (.leaf w) .nil => exact fun brackets => Reads.one rfl
  | dottedMore =>
    match children, ih with
    | .cons path (.cons (.leaf d) (.cons (.leaf w) .nil)), ⟨hpath, _⟩ =>
      intro brackets
      simpa using ((hpath brackets).snoc (x := ⟨.dot, d⟩) rfl).snoc (x := ⟨.word, w⟩) rfl
  | baseNamed =>
    match children, ih with
    | .cons path .nil, ⟨hpath, _⟩ =>
      exact fun brackets => ⟨.name path, by simpa using hpath brackets, rfl⟩
  | baseArray =>
    match children, ih with
    | .cons (.leaf b) (.cons t (.cons (.leaf c) .nil)), ⟨_, ht, _⟩ =>
      intro brackets
      obtain ⟨part, hread, htype⟩ := ht (b :: brackets)
      refine ⟨.array (.of3 .baseArray (.leaf b) t (.leaf c)), ?_, rfl⟩
      simpa using Reads.cons (x := ⟨.openBracket, b⟩) rfl
        (hread.snoc (feed_closeBracket htype b c))
  | type =>
    match children, ih with
    | .cons t .nil, ⟨ht, _⟩ =>
      intro brackets
      obtain ⟨part, hread, hbase⟩ := ht brackets
      exact ⟨part, by simpa using hread, type?_of_base? hbase⟩
  | typeOptional =>
    match children, ih with
    | .cons t (.cons (.leaf q) .nil), ⟨ht, _⟩ =>
      intro brackets
      obtain ⟨part, hread, hbase⟩ := ht brackets
      exact ⟨_, by simpa using hread.snoc (feed_question hbase q), rfl⟩
  | typeVariadic =>
    match children, ih with
    | .cons t (.cons (.leaf e) .nil), ⟨ht, _⟩ =>
      intro brackets
      obtain ⟨part, hread, hbase⟩ := ht brackets
      exact ⟨_, by simpa using hread.snoc (feed_ellipsis hbase e), rfl⟩
  | _ => trivial

theorem finds (t : Of τ .type) : Finds feed type? ({} : TypeReader τ) t := by
  obtain ⟨part, hread, htype⟩ := follows t []
  exact ⟨⟨[], part⟩, hread, htype⟩

end TypeReader

end RowSchema.Reader
