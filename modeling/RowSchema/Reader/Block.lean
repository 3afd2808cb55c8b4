import RowSchema.Grammar

/-! Accessor blocks, read one token at a time. -/

namespace RowSchema.Reader

open Grammar

variable {τ : Terminal → Type}

/-- The brace that opens a block, and what has been read of the block after it. -/
abbrev OpenBlock (τ : Terminal → Type) := τ .openBrace × Option (Of τ .blockItems)

/-- A block that is being read. -/
inductive BlockReader (τ : Terminal → Type) where
  /-- the innermost block that is open, and those around it -/
  | inside (block : OpenBlock τ) (outer : List (OpenBlock τ))
  | closed (block : Of τ .block)

/-- One item more in a block. -/
def OpenBlock.add (block : OpenBlock τ) (item : Of τ .blockItem) : OpenBlock τ :=
  (block.1, some (append .blockFirst .blockMore block.2 item))

/-- The block with its closing brace. -/
def OpenBlock.close (block : OpenBlock τ) (brace : τ .closeBrace) : Of τ .block :=
  match block with
  | (opening, none) => .of2 .blockEmpty (.leaf opening) (.leaf brace)
  | (opening, some items) => .of3 .block (.leaf opening) items (.leaf brace)

namespace BlockReader

/-- The next token, if it goes on with the block. -/
def feed (r : BlockReader τ) (x : Sigma τ) : Option (BlockReader τ) :=
  match r, x with
  | .closed _, _ => none
  | .inside block outer, ⟨.openBrace, b⟩ => some (.inside (b, none) (block :: outer))
  | .inside block [], ⟨.closeBrace, c⟩ => some (.closed (block.close c))
  | .inside block (around :: outer), ⟨.closeBrace, c⟩ =>
    some (.inside (around.add (.of1 .blockNested (block.close c))) outer)
  | .inside block outer, ⟨k, x⟩ =>
    if h : k.isBrace = false then
      some (.inside (block.add (.of1 (.blockToken k h) (.leaf x))) outer)
    else none

/-- The block, if it ends here. -/
def block? : BlockReader τ → Option (Of τ .block)
  | closed block => some block
  | inside _ _ => none

end BlockReader

end RowSchema.Reader
