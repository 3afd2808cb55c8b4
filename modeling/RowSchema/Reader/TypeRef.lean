import RowSchema.Grammar

/-! Types, read one token at a time. -/

namespace RowSchema.Reader

open Grammar

variable {τ : Terminal → Type}

/-- How far the innermost type has been read. -/
inductive TypePart (τ : Terminal → Type) where
  | start
  | name (path : Of τ .dottedName)
  /-- a path and the dot after it -/
  | dot (path : Of τ .dottedName) (dot : τ .dot)
  /-- an array type, which may still get a suffix -/
  | array (t : Of τ .baseType)
  /-- a type with its suffix -/
  | suffixed (t : Of τ .type)

namespace TypePart

/-- The type that may get a suffix. -/
def base? : TypePart τ → Option (Of τ .baseType)
  | name path => some (.of1 .baseNamed path)
  | array t => some t
  | _ => none

/-- The type, if it may end here. -/
def type? : TypePart τ → Option (Of τ .type)
  | suffixed t => some t
  | part => part.base?.map (.of1 .type)

end TypePart

/-- A type that is being read, inside brackets that are still open, the innermost first. -/
structure TypeReader (τ : Terminal → Type) where
  brackets : List (τ .openBracket) := []
  part : TypePart τ := .start

namespace TypeReader

/-- The next token, if it goes on with the type. -/
def feed (r : TypeReader τ) (x : Sigma τ) : Option (TypeReader τ) :=
  match x, r.part with
  | ⟨.word, w⟩, .start => some { r with part := .name (.of1 .dottedFirst (.leaf w)) }
  | ⟨.word, w⟩, .dot path d =>
    some { r with part := .name (.of3 .dottedMore path (.leaf d) (.leaf w)) }
  | ⟨.dot, d⟩, .name path => some { r with part := .dot path d }
  | ⟨.openBracket, b⟩, .start => some { r with brackets := b :: r.brackets }
  | ⟨.closeBracket, c⟩, part =>
    match r.brackets, part.type? with
    | b :: outer, some element =>
      some ⟨outer, .array (.of3 .baseArray (.leaf b) element (.leaf c))⟩
    | _, _ => none
  | ⟨.question, q⟩, part =>
    part.base?.map fun t => { r with part := .suffixed (.of2 .typeOptional t (.leaf q)) }
  | ⟨.ellipsis, e⟩, part =>
    part.base?.map fun t => { r with part := .suffixed (.of2 .typeVariadic t (.leaf e)) }
  | _, _ => none

/-- The type, if it may end here. -/
def type? (r : TypeReader τ) : Option (Of τ .type) :=
  if r.brackets.isEmpty then r.part.type? else none

end TypeReader

end RowSchema.Reader
