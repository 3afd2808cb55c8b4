import RowSchema.Reader.Expr
import RowSchema.Reader.TypeRef

/-! Case declarations, read one token at a time. -/

namespace RowSchema.Reader

open Grammar

variable {τ : Terminal → Type}

/-- An associated value that is being read. -/
inductive PayloadReader (τ : Terminal → Type) where
  | start
  /-- a single name, which may turn out to be a label -/
  | word (word : τ .word)
  | type (label : Option (Labelling τ)) (reader : TypeReader τ)
  | value (label : Option (Labelling τ)) (type : Of τ .type) (equals : τ .equals)
      (reader : ExprReader τ)

/-- The associated value of that type. -/
def payloadOf (label : Option (Labelling τ)) (type : Of τ .type) : Of τ .payload :=
  match label with
  | none => .of1 .payload type
  | some (w, colon) => .of3 .payloadLabeled (.leaf w) (.leaf colon) type

/-- The associated value of that type and default. -/
def payloadWith (label : Option (Labelling τ)) (type : Of τ .type) (equals : τ .equals)
    (e : Of τ .expression) : Of τ .payload :=
  match label with
  | none => .of3 .payloadDefault type (.leaf equals) e
  | some (w, colon) =>
    .of5 .payloadLabeledDefault (.leaf w) (.leaf colon) type (.leaf equals) e

namespace PayloadReader

/-- A token after a type that may go on. -/
def feedType (label : Option (Labelling τ)) (reader : TypeReader τ) (x : Sigma τ) :
    Option (PayloadReader τ) :=
  match reader.feed x with
  | some reader => some (.type label reader)
  | none =>
    match x, reader.type? with
    | ⟨.equals, e⟩, some t => some (.value label t e {})
    | _, _ => none

/-- The type that begins with a single name. -/
def named (w : τ .word) : TypeReader τ := { part := .name (.of1 .dottedFirst (.leaf w)) }

/-- The next token, if it goes on with the associated value. -/
def feed (r : PayloadReader τ) (x : Sigma τ) : Option (PayloadReader τ) :=
  match r, x with
  | .start, ⟨.word, w⟩ => some (.word w)
  | .start, x => feedType none {} x
  | .word w, ⟨.colon, c⟩ => some (.type (some (w, c)) {})
  | .word w, x => feedType none (named w) x
  | .type label reader, x => feedType label reader x
  | .value label t equals reader, x => (reader.feed x).map (.value label t equals)

/-- The associated value, if it may end here. -/
def payload? : PayloadReader τ → Option (Of τ .payload)
  | .start => none
  | .word w => (named w).type?.map (payloadOf none)
  | .type label reader => reader.type?.map (payloadOf label)
  | .value label t equals reader => reader.expr?.map (payloadWith label t equals)

end PayloadReader

/-- A single case that is being read. -/
inductive ItemPart (τ : Terminal → Type) where
  | start
  | name (word : τ .word)
  | payloads (word : τ .word) (paren : τ .openParen) (done : Listed τ .payloadList)
      (current : PayloadReader τ)
  | closed (item : Of τ .caseItem)

/-- A case declaration that is being read. -/
structure CasesReader (τ : Terminal → Type) where
  keyword : τ (.keyword .caseWord)
  done : Listed τ .caseList := none
  part : ItemPart τ := .start

namespace ItemPart

/-- The case, if it may end here. -/
def item? : ItemPart τ → Option (Of τ .caseItem)
  | .name w => some (.of1 .caseBare (.leaf w))
  | .closed item => some item
  | _ => none

/-- A token among the associated values. -/
def feedPayloads (word : τ .word) (paren : τ .openParen) (done : Listed τ .payloadList)
    (current : PayloadReader τ) (x : Sigma τ) : Option (ItemPart τ) :=
  match current.feed x with
  | some current => some (.payloads word paren done current)
  | none =>
    match x, current, done, current.payload? with
    | ⟨.closeParen, c⟩, .start, none, _ =>
      some (.closed (.of3 .caseEmpty (.leaf word) (.leaf paren) (.leaf c)))
    | ⟨.closeParen, c⟩, _, done, some last =>
      let payloads := done.add .payloadFirst .payloadMore last
      some (.closed (.of4 .casePayloads (.leaf word) (.leaf paren) payloads (.leaf c)))
    | ⟨.comma, c⟩, _, done, some last =>
      some (.payloads word paren (some (done.add .payloadFirst .payloadMore last, c)) .start)
    | _, _, _, _ => none

/-- The next token, if it goes on with the case. -/
def feed (r : ItemPart τ) (x : Sigma τ) : Option (ItemPart τ) :=
  match r, x with
  | .start, ⟨.word, w⟩ => some (.name w)
  | .name w, ⟨.openParen, p⟩ => some (.payloads w p none .start)
  | .payloads w p done current, x => feedPayloads w p done current x
  | _, _ => none

end ItemPart

namespace CasesReader

/-- The cases, if the declaration may end here. -/
def items? (r : CasesReader τ) : Option (Of τ .caseList) :=
  r.part.item?.map (r.done.add .caseFirst .caseMore)

/-- The next token, if it goes on with the declaration. -/
def feed (r : CasesReader τ) (x : Sigma τ) : Option (CasesReader τ) :=
  match r.part.feed x with
  | some part => some { r with part }
  | none =>
    match x, r.items? with
    | ⟨.comma, c⟩, some items => some { r with done := some (items, c), part := .start }
    | _, _ => none

/-- The declaration, if it may end here. -/
def cases? (r : CasesReader τ) : Option (Of τ .caseDecl) :=
  r.items?.map (.of2 .cases (.leaf r.keyword))

end CasesReader

end RowSchema.Reader
