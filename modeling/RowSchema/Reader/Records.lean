import RowSchema.Grammar.Action
import RowSchema.Reader.Attribute
import RowSchema.Reader.Case
import RowSchema.Reader.Field
import RowSchema.Token.Scan

/-! Declaration texts. The reader takes one token at a time, so the first token that it refuses is
the first that no declaration text has at that place. -/

namespace RowSchema.Reader

open Grammar

variable {τ : Terminal → Type}

/-- A member of a record that is being read. -/
inductive MemberReader (τ : Terminal → Type) where
  | separator (semicolon : τ .semicolon)
  | attributes (reader : AttributesReader τ)
  /-- after the word `static` -/
  | static (attributes : Option (Of τ .attributeList)) (word : τ (.keyword .staticWord))
  | field (attributes : Option (Of τ .attributeList)) (reader : FieldReader τ)
  | cases (attributes : Option (Of τ .attributeList)) (reader : CasesReader τ)

/-- The word `let` or `var`. -/
def bindingKeyword? : Sigma τ → Option (Of τ .bindingKeyword)
  | ⟨.keyword .letWord, k⟩ => some (.of1 .letKeyword (.leaf k))
  | ⟨.keyword .varWord, k⟩ => some (.of1 .varKeyword (.leaf k))
  | _ => none

/-- The first token of a declaration with these attributes. -/
def declarationStart (attributes : Option (Of τ .attributeList)) (x : Sigma τ) :
    Option (MemberReader τ) :=
  match x with
  | ⟨.keyword .staticWord, s⟩ => some (.static attributes s)
  | ⟨.keyword .caseWord, k⟩ => some (.cases attributes { keyword := k })
  | x => (bindingKeyword? x).map fun keyword => .field attributes { static := none, keyword }

/-- The first token of a member. -/
def memberStart (x : Sigma τ) : Option (MemberReader τ) :=
  match x with
  | ⟨.semicolon, s⟩ => some (.separator s)
  | ⟨.atSign, s⟩ => some (.attributes { current := .sign s })
  | x => declarationStart none x

/-- The member that declares a field. -/
def fieldMember (attributes : Option (Of τ .attributeList)) (d : Of τ .fieldDecl) :
    Of τ .member :=
  match attributes with
  | none => .of1 .memberField d
  | some attributes => .of2 .memberFieldAttributed attributes d

/-- The member that declares cases. -/
def caseMember (attributes : Option (Of τ .attributeList)) (d : Of τ .caseDecl) : Of τ .member :=
  match attributes with
  | none => .of1 .memberCase d
  | some attributes => .of2 .memberCaseAttributed attributes d

namespace MemberReader

/-- The next token, if it goes on with the member. -/
def feed (r : MemberReader τ) (x : Sigma τ) : Option (MemberReader τ) :=
  match r with
  | .separator _ => none
  | .attributes reader =>
    match reader.feed x with
    | some reader => some (.attributes reader)
    | none => reader.attributes?.bind fun done => declarationStart (some done) x
  | .static shared s =>
    (bindingKeyword? x).map fun keyword => .field shared { static := some s, keyword }
  | .field shared reader => (reader.feed x).map (.field shared)
  | .cases shared reader => (reader.feed x).map (.cases shared)

/-- The member, if it may end here. -/
def member? : MemberReader τ → Option (Of τ .member)
  | .separator s => some (.of1 .memberSeparator (.leaf s))
  | .attributes _ | .static _ _ => none
  | .field shared reader => reader.field?.map (fieldMember shared)
  | .cases shared reader => reader.cases?.map (caseMember shared)

end MemberReader

/-- The attributes, the keyword and the name of a record. -/
structure Heading (τ : Terminal → Type) where
  attributes : Option (Of τ .attributeList)
  keyword : Of τ .recordKeyword
  name : τ .word

/-- The header of a record, with its conformances if there are any. -/
def Heading.header (h : Heading τ) (conformances : Option (τ .colon × Of τ .conformanceList)) :
    Of τ .recordHeader :=
  match conformances with
  | none => .of2 .header h.keyword (.leaf h.name)
  | some (colon, list) => .of4 .headerConforming h.keyword (.leaf h.name) (.leaf colon) list

/-- What is being read. -/
inductive Place (τ : Terminal → Type) where
  /-- between two records -/
  | top
  | attributes (reader : AttributesReader τ)
  /-- after the keyword of a record -/
  | keyword (attributes : Option (Of τ .attributeList)) (keyword : Of τ .recordKeyword)
  | name (heading : Heading τ)
  /-- at the beginning of the name of a conformance -/
  | conformance (heading : Heading τ) (colon : τ .colon) (done : Listed τ .conformanceList)
  | conformanceName (heading : Heading τ) (colon : τ .colon) (done : Listed τ .conformanceList)
      (path : Of τ .dottedName)
  | conformanceDot (heading : Heading τ) (colon : τ .colon) (done : Listed τ .conformanceList)
      (path : Of τ .dottedName) (dot : τ .dot)
  /-- inside the braces of a record; no member is being read right after the first brace -/
  | body (attributes : Option (Of τ .attributeList)) (header : Of τ .recordHeader)
      (brace : τ .openBrace) (done : Option (Of τ .memberList))
      (current : Option (MemberReader τ))

/-- The complete records, and what comes after them. -/
structure RecordsReader (τ : Terminal → Type) where
  done : Option (Of τ .declarationList) := none
  place : Place τ := .top

def recordKeyword? : Sigma τ → Option (Of τ .recordKeyword)
  | ⟨.keyword .structWord, k⟩ => some (.of1 .structKeyword (.leaf k))
  | ⟨.keyword .enumWord, k⟩ => some (.of1 .enumKeyword (.leaf k))
  | ⟨.keyword .classWord, k⟩ => some (.of1 .classKeyword (.leaf k))
  | _ => none

/-- The braces of a record and the members between them. -/
def bodyOf (brace : τ .openBrace) (members : Option (Of τ .memberList)) (close : τ .closeBrace) :
    Of τ .recordBody :=
  match members with
  | none => .of2 .bodyEmpty (.leaf brace) (.leaf close)
  | some members => .of3 .body (.leaf brace) members (.leaf close)

/-- A record with its attributes, if there are any. -/
def declarationOf (attributes : Option (Of τ .attributeList)) (header : Of τ .recordHeader)
    (body : Of τ .recordBody) : Of τ .declaration :=
  match attributes with
  | none => .of2 .declarationPlain header body
  | some attributes => .of3 .declarationAttributed attributes header body

namespace Place

/-- The members that are complete if the current one ends here. -/
def members? (done : Option (Of τ .memberList)) (current : Option (MemberReader τ)) :
    Option (Option (Of τ .memberList)) :=
  match current with
  | none => some done
  | some reader =>
    reader.member?.map fun member => some (append .memberFirst .memberMore done member)

end Place

namespace RecordsReader

/-- One record more. -/
def finish (r : RecordsReader τ) (d : Of τ .declaration) : RecordsReader τ :=
  { done := some (append .declarationFirst .declarationMore r.done d), place := .top }

/-- A token inside the braces of a record. -/
def feedBody (r : RecordsReader τ) (attributes : Option (Of τ .attributeList))
    (header : Of τ .recordHeader) (brace : τ .openBrace) (done : Option (Of τ .memberList))
    (current : Option (MemberReader τ)) (x : Sigma τ) : Option (RecordsReader τ) :=
  match current.bind (·.feed x) with
  | some member => some { r with place := .body attributes header brace done (some member) }
  | none =>
    (Place.members? done current).bind fun done =>
      match x with
      | ⟨.closeBrace, c⟩ =>
        some (r.finish (declarationOf attributes header (bodyOf brace done c)))
      | x =>
        (memberStart x).map fun member =>
          { r with place := .body attributes header brace done (some member) }

/-- The next token, if some declaration text goes on with it. -/
def feed (r : RecordsReader τ) (x : Sigma τ) : Option (RecordsReader τ) :=
  match r.place, x with
  | .top, ⟨.atSign, s⟩ => some { r with place := .attributes { current := .sign s } }
  | .top, x => (recordKeyword? x).map fun keyword => { r with place := .keyword none keyword }
  | .attributes reader, x =>
    match reader.feed x with
    | some reader => some { r with place := .attributes reader }
    | none =>
      match reader.attributes?, recordKeyword? x with
      | some done, some keyword => some { r with place := .keyword (some done) keyword }
      | _, _ => none
  | .keyword attributes keyword, ⟨.word, name⟩ =>
    some { r with place := .name { attributes, keyword, name } }
  | .name h, ⟨.colon, c⟩ => some { r with place := .conformance h c none }
  | .name h, ⟨.openBrace, b⟩ =>
    some { r with place := .body h.attributes (h.header none) b none none }
  | .conformance h colon done, ⟨.word, w⟩ =>
    some { r with place := .conformanceName h colon done (.of1 .dottedFirst (.leaf w)) }
  | .conformanceName h colon done path, ⟨.dot, d⟩ =>
    some { r with place := .conformanceDot h colon done path d }
  | .conformanceDot h colon done path d, ⟨.word, w⟩ =>
    let longer := .of3 .dottedMore path (.leaf d) (.leaf w)
    some { r with place := .conformanceName h colon done longer }
  | .conformanceName h colon done path, ⟨.comma, c⟩ =>
    let list := done.add .conformanceFirst .conformanceMore path
    some { r with place := .conformance h colon (some (list, c)) }
  | .conformanceName h colon done path, ⟨.openBrace, b⟩ =>
    let list := done.add .conformanceFirst .conformanceMore path
    some { r with place := .body h.attributes (h.header (some (colon, list))) b none none }
  | .body attributes header brace done current, x =>
    r.feedBody attributes header brace done current x
  | _, _ => none

/-- The derivation of the text, if it may end here. -/
def declarations? (r : RecordsReader τ) : Option (Of τ .declarations) :=
  match r.place with
  | .top =>
    match r.done with
    | none => some (.node .declarationsEmpty .nil)
    | some list => some (.of1 .declarations list)
  | _ => none

/-- The reader after some tokens, or the first token that it refuses. -/
def run (r : RecordsReader Label) : List Token → Except Token (RecordsReader Label)
  | [] => .ok r
  | t :: rest =>
    match r.feed (label t) with
    | some r => r.run rest
    | none => .error t

end RecordsReader

end RowSchema.Reader

namespace RowSchema

/-- Why a text is no declaration text. -/
inductive SourceError where
  | illegal (character : Char) (offset : Int)
  | unexpected (shown : String) (offset : Int)
  | endOfInput
deriving DecidableEq, Repr

def SourceError.message : SourceError → String
  | illegal c offset => "Illegal character '" ++ toString c ++ "' at position " ++ toString offset
  | unexpected shown offset =>
    "Syntax error at '" ++ shown ++ "' (position " ++ toString offset ++ ")"
  | endOfInput => "Syntax error at end of input"

/-- The records that a text declares. Of several faults the first one counts. -/
def Record.readAll (source : String) : Except SourceError (List Record) :=
  let (tokens, illegal) := Token.scan source
  match Reader.RecordsReader.run {} tokens with
  | .error t => .error (.unexpected t.lexeme.shown t.span.start)
  | .ok reader =>
    match illegal, reader.declarations? with
    | some i, _ => .error (.illegal i.character i.offset)
    | none, some t => .ok t.records
    | none, none => .error .endOfInput

end RowSchema
