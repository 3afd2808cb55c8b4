import RowSchema.Reader.Expr

/-! Attributes, read one token at a time. -/

namespace RowSchema.Reader

open Grammar

variable {τ : Terminal → Type}

/-- An attribute that is being read. -/
inductive AttributeReader (τ : Terminal → Type) where
  | sign (sign : τ .atSign)
  | name (sign : τ .atSign) (word : τ .word)
  | arguments (sign : τ .atSign) (word : τ .word) (paren : τ .openParen) (reader : ExprReader τ)

/-- The attribute with those arguments in its parentheses. -/
def attributeOf (sign : τ .atSign) (word : τ .word) (paren : τ .openParen)
    (arguments : Option (Of τ .argumentList)) (close : τ .closeParen) : Of τ .attributeItem :=
  match arguments with
  | none => .of4 .attributeEmpty (.leaf sign) (.leaf word) (.leaf paren) (.leaf close)
  | some arguments =>
    .of5 .attributeArguments (.leaf sign) (.leaf word) (.leaf paren) arguments (.leaf close)

namespace AttributeReader

/-- The next token, if it goes on with the attribute. -/
def feed (r : AttributeReader τ) (x : Sigma τ) : Option (AttributeReader τ) :=
  match r, x with
  | .sign s, ⟨.word, w⟩ => some (.name s w)
  | .name s w, ⟨.openParen, p⟩ => some (.arguments s w p .arguments)
  | .arguments s w p reader, x => (reader.feed x).map (.arguments s w p)
  | _, _ => none

/-- The attribute, if it may end here. -/
def attribute? : AttributeReader τ → Option (Of τ .attributeItem)
  | .name s w => some (.of2 .attributeBare (.leaf s) (.leaf w))
  | .arguments s w p ⟨[], .closed list close⟩ => some (attributeOf s w p list close)
  | _ => none

end AttributeReader

/-- The attributes in front of a declaration. -/
structure AttributesReader (τ : Terminal → Type) where
  done : Option (Of τ .attributeList) := none
  current : AttributeReader τ

namespace AttributesReader

/-- The attributes, if they may end here. -/
def attributes? (r : AttributesReader τ) : Option (Of τ .attributeList) :=
  r.current.attribute?.map (append .attributeFirst .attributeMore r.done)

/-- The next token, if it goes on with the attributes. -/
def feed (r : AttributesReader τ) (x : Sigma τ) : Option (AttributesReader τ) :=
  match r.current.feed x with
  | some current => some { r with current }
  | none =>
    match x, r.attributes? with
    | ⟨.atSign, s⟩, some done => some { done := some done, current := .sign s }
    | _, _ => none

end AttributesReader

end RowSchema.Reader
