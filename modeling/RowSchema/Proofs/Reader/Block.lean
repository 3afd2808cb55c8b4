import RowSchema.Proofs.Reader.Reads
import RowSchema.Reader.Block

/-! # Accessor blocks

The reader of blocks holds all that it has read, and it reads every block. -/

namespace RowSchema.Reader

open Grammar

variable {τ : Terminal → Type}

/-- The tokens of a block that is still open. -/
def OpenBlock.leaves (block : OpenBlock τ) : List (Sigma τ) :=
  ⟨.openBrace, block.1⟩ :: optionLeaves block.2

@[simp] theorem OpenBlock.leaves_add (block : OpenBlock τ) (item : Of τ .blockItem) :
    (block.add item).leaves = block.leaves ++ item.leaves := by
  simp [add, leaves]

@[simp] theorem OpenBlock.leaves_close (block : OpenBlock τ) (c : τ .closeBrace) :
    (block.close c).leaves = block.leaves ++ [⟨.closeBrace, c⟩] := by
  obtain ⟨b, items⟩ := block
  cases items <;> simp [close, leaves]

theorem OpenBlock.add_none (b : τ .openBrace) (item : Of τ .blockItem) :
    add (b, none) item = (b, some (.of1 .blockFirst item)) := rfl

theorem OpenBlock.add_some (b : τ .openBrace) (items : Of τ .blockItems)
    (item : Of τ .blockItem) :
    add (b, some items) item = (b, some (.of2 .blockMore items item)) := rfl

namespace BlockReader

variable {r r' : BlockReader τ} {x : Sigma τ}

/-- The tokens that have been read. -/
def leaves : BlockReader τ → List (Sigma τ)
  | inside block outer => outer.reverse.flatMap OpenBlock.leaves ++ block.leaves
  | closed block => block.leaves

theorem leaves_feed (h : r.feed x = some r') : r'.leaves = r.leaves ++ [x] := by
  unfold feed at h
  split at h
  · cases h
  · obtain rfl := Option.some.inj h
    simp [leaves, OpenBlock.leaves]
  · obtain rfl := Option.some.inj h
    simp [leaves]
  · obtain rfl := Option.some.inj h
    simp [leaves]
  · split at h
    · obtain rfl := Option.some.inj h
      simp [leaves]
    · cases h

theorem leaves_of_block? {t : Of τ .block} (h : r.block? = some t) : t.leaves = r.leaves := by
  cases r with
  | closed block =>
    obtain rfl := Option.some.inj h
    rfl
  | inside block outer => cases h

theorem feed_of_block? {t : Of τ .block} (h : r.block? = some t) : r.feed x = none := by
  cases r with
  | closed block => rfl
  | inside block outer => cases h

/-- A block keeps every token between its braces. -/
theorem feed_token (block : OpenBlock τ) (outer : List (OpenBlock τ)) {k : Terminal}
    (h : k.isBrace = false) (label : τ k) :
    feed (.inside block outer) ⟨k, label⟩ =
      some (.inside (block.add (.of1 (.blockToken k h) (.leaf label))) outer) := by
  cases k with
  | openBrace | closeBrace => cases h
  | _ => rfl

/-- What the reader makes of the tokens of a block, after its opening brace, and of the items of
a block. -/
def Follows : {s : Symbol} → Tree τ s → Prop
  | .part .blockItem, t => ∀ (block : OpenBlock τ) (outer : List (OpenBlock τ)),
      Reads feed (.inside block outer) t.leaves (.inside (block.add t) outer)
  | .part .blockItems, t => ∀ (b : τ .openBrace) (outer : List (OpenBlock τ)),
      Reads feed (.inside (b, none) outer) t.leaves (.inside (b, some t) outer)
  | .part .block, t => ∃ (b : τ .openBrace) (rest : List (Sigma τ)),
      t.leaves = ⟨.openBrace, b⟩ :: rest ∧
      Reads feed (.inside (b, none) []) rest (.closed t) ∧
      ∀ (around : OpenBlock τ) (outer : List (OpenBlock τ)),
        Reads feed (.inside (b, none) (around :: outer)) rest
          (.inside (around.add (.of1 .blockNested t)) outer)
  | _, _ => True

theorem follows {s : Symbol} (t : Tree τ s) : Follows t := by
  refine Tree.induct (fun _ => trivial) (fun p children ih => ?_) t
  cases p with
  | blockEmpty =>
    match children with
    | .cons (.leaf b) (.cons (.leaf c) .nil) =>
      exact ⟨b, [⟨.closeBrace, c⟩], by simp, .one rfl, fun _ _ => .one rfl⟩
  | block =>
    match children, ih with
    | .cons (.leaf b) (.cons items (.cons (.leaf c) .nil)), ⟨_, hitems, _⟩ =>
      refine ⟨b, items.leaves ++ [⟨.closeBrace, c⟩], by simp, ?_, fun around outer => ?_⟩
      · exact (hitems b []).snoc rfl
      · exact (hitems b (around :: outer)).snoc rfl
  | blockFirst =>
    match children, ih with
    | .cons item .nil, ⟨hitem, _⟩ =>
      exact fun b outer => by simpa [OpenBlock.add_none] using hitem (b, none) outer
  | blockMore =>
    match children, ih with
    | .cons items (.cons item .nil), ⟨hitems, hitem, _⟩ =>
      intro b outer
      simpa [OpenBlock.add_some] using
        (hitems b outer).append (hitem (b, some items) outer)
  | blockNested =>
    match children, ih with
    | .cons inner .nil, ⟨⟨b, rest, hleaves, _, hread⟩, _⟩ =>
      intro block outer
      have hopen : feed (.inside block outer) ⟨.openBrace, b⟩ =
          some (.inside (b, none) (block :: outer)) := rfl
      simpa [hleaves] using Reads.cons hopen (hread block outer)
  | blockToken k h =>
    match children with
    | .cons (.leaf label) .nil => exact fun block outer => .one (feed_token block outer h label)
  | _ => trivial

/-- A block after its opening brace. -/
theorem reads_block (t : Of τ .block) : ∃ (b : τ .openBrace) (rest : List (Sigma τ)),
    t.leaves = ⟨.openBrace, b⟩ :: rest ∧
      Reads feed (.inside (b, none) []) rest (.closed t) := by
  obtain ⟨b, rest, hleaves, hread, _⟩ := follows t
  exact ⟨b, rest, hleaves, hread⟩

end BlockReader

end RowSchema.Reader
