import RowSchema.Reader.Block
import RowSchema.Reader.Expr
import RowSchema.Reader.TypeRef

/-! Field declarations, read one token at a time. -/

namespace RowSchema.Reader

open Grammar

variable {τ : Terminal → Type}

/-- A binding `name: Type = default` that is being read. -/
inductive BindingReader (τ : Terminal → Type) where
  | start
  | name (word : τ .word)
  | type (word : τ .word) (colon : τ .colon) (reader : TypeReader τ)
  | value (word : τ .word) (type : Option (τ .colon × Of τ .type)) (equals : τ .equals)
      (reader : ExprReader τ)
  /-- an accessor block -/
  | block (word : τ .word) (colon : τ .colon) (type : Of τ .type) (reader : BlockReader τ)

/-- The binding with that default. -/
def initialized (word : τ .word) (type : Option (τ .colon × Of τ .type)) (equals : τ .equals)
    (e : Of τ .expression) : Of τ .binding :=
  match type with
  | none => .of3 .bindingInitialized (.leaf word) (.leaf equals) e
  | some (colon, t) =>
    .of5 .bindingTypedInitialized (.leaf word) (.leaf colon) t (.leaf equals) e

namespace BindingReader

/-- The next token, if it goes on with the binding. -/
def feed (r : BindingReader τ) (x : Sigma τ) : Option (BindingReader τ) :=
  match r, x with
  | .start, ⟨.word, w⟩ => some (.name w)
  | .name w, ⟨.colon, c⟩ => some (.type w c {})
  | .name w, ⟨.equals, e⟩ => some (.value w none e {})
  | .type w colon reader, x =>
    match reader.feed x with
    | some reader => some (.type w colon reader)
    | none =>
      match x, reader.type? with
      | ⟨.equals, e⟩, some t => some (.value w (some (colon, t)) e {})
      | ⟨.openBrace, b⟩, some t => some (.block w colon t (.inside (b, none) []))
      | _, _ => none
  | .value w declared equals reader, x => (reader.feed x).map (.value w declared equals)
  | .block w colon t reader, x => (reader.feed x).map (.block w colon t)
  | _, _ => none

/-- The binding, if it may end here. -/
def binding? : BindingReader τ → Option (Of τ .binding)
  | .start => none
  | .name w => some (.of1 .bindingName (.leaf w))
  | .type w colon reader => reader.type?.map (.of3 .bindingTyped (.leaf w) (.leaf colon))
  | .value w declared equals reader => reader.expr?.map (initialized w declared equals)
  | .block w colon t reader =>
    reader.block?.map (.of4 .bindingComputed (.leaf w) (.leaf colon) t)

end BindingReader

/-- A field declaration that is being read. -/
structure FieldReader (τ : Terminal → Type) where
  static : Option (τ (.keyword .staticWord))
  keyword : Of τ .bindingKeyword
  done : Listed τ .bindingList := none
  current : BindingReader τ := .start

/-- The declaration of those bindings. -/
def fieldOf (static : Option (τ (.keyword .staticWord))) (keyword : Of τ .bindingKeyword)
    (bindings : Of τ .bindingList) : Of τ .fieldDecl :=
  match static with
  | none => .of2 .field keyword bindings
  | some s => .of3 .fieldStatic (.leaf s) keyword bindings

namespace FieldReader

/-- The bindings, if the declaration may end here. -/
def bindings? (r : FieldReader τ) : Option (Of τ .bindingList) :=
  r.current.binding?.map (r.done.add .bindingFirst .bindingMore)

/-- The next token, if it goes on with the declaration. -/
def feed (r : FieldReader τ) (x : Sigma τ) : Option (FieldReader τ) :=
  match r.current.feed x with
  | some current => some { r with current }
  | none =>
    match x, r.bindings? with
    | ⟨.comma, c⟩, some bindings =>
      some { r with done := some (bindings, c), current := .start }
    | _, _ => none

/-- The declaration, if it may end here. -/
def field? (r : FieldReader τ) : Option (Of τ .fieldDecl) :=
  r.bindings?.map (fieldOf r.static r.keyword)

end FieldReader

end RowSchema.Reader
