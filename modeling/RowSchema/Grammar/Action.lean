import RowSchema.Grammar
import RowSchema.Record

/-! What declaration texts declare: each production puts the value of a part together from the
values of the symbols that the part consists of. -/

namespace RowSchema

/-- A value and where it stands. -/
structure Located (α : Type) where
  value : α
  span : Span

/-- What a token says besides its kind. -/
abbrev Terminal.Content : Terminal → Type
  | operator | word | string => String
  | integer => Int
  | float => Float
  | _ => Unit

/-- The kind of a token that says that, and what it says besides. -/
def Lexeme.content : Lexeme → Sigma Terminal.Content
  | atSign => ⟨.atSign, ()⟩
  | openBrace => ⟨.openBrace, ()⟩
  | closeBrace => ⟨.closeBrace, ()⟩
  | openBracket => ⟨.openBracket, ()⟩
  | closeBracket => ⟨.closeBracket, ()⟩
  | openParen => ⟨.openParen, ()⟩
  | closeParen => ⟨.closeParen, ()⟩
  | colon => ⟨.colon, ()⟩
  | comma => ⟨.comma, ()⟩
  | equals => ⟨.equals, ()⟩
  | ellipsis => ⟨.ellipsis, ()⟩
  | dot => ⟨.dot, ()⟩
  | question => ⟨.question, ()⟩
  | semicolon => ⟨.semicolon, ()⟩
  | operator text => ⟨.operator, text⟩
  | word name => ⟨.word, name⟩
  | keyword k => ⟨.keyword k, ()⟩
  | string s => ⟨.string, s⟩
  | integer n => ⟨.integer, n⟩
  | float x => ⟨.float, x⟩

/-- The kind of a token. -/
def Token.kind (t : Token) : Terminal := t.lexeme.content.1

namespace Grammar

/-- What a derivation of a text says of each token. -/
abbrev Label (k : Terminal) := Located k.Content

/-- A token as it stands in a derivation. -/
def label (t : Token) : Sigma Label := ⟨t.kind, t.lexeme.content.2, t.span⟩

/-- A binding `name: Type = default`. -/
structure Binding where
  name : String
  nameSpan : Span
  type : Option TypeRef := none
  default : Option Expr := none
  isComputed : Bool := false

/-- The bindings after one word `let` or `var`. -/
structure FieldDecl where
  first : Binding
  more : List Binding
  isMutable : Bool
  keyword : Span
  isStatic : Bool := false

/-- What a part of a declaration text declares. -/
abbrev Nonterminal.Value : Nonterminal → Type
  | declarations | declarationList => List Record
  | declaration => Record
  | recordHeader => Kind × String
  | recordKeyword => Kind
  | recordBody => List (List (Field ⊕ Case))
  | memberList => List (Option (List (Field ⊕ Case)))
  | member => Option (List (Field ⊕ Case))
  | attributeList => List Attribute
  | attributeItem => Attribute
  | argumentList => List Argument
  | argument => Argument
  | fieldDecl => FieldDecl
  | bindingKeyword => Bool
  | bindingList => Binding × List Binding
  | binding => Binding
  | caseDecl | caseList => List Case
  | caseItem => Case
  | payloadList => List Payload
  | payload => Payload
  | type | baseType => TypeRef
  | dottedName => String
  | expression | literal | postfixExpr | arrayLiteral => Expr
  | expressionList => List Expr
  | conformanceList | block | blockItems | blockItem => Unit

abbrev Symbol.Value : Symbol → Type
  | token k => k.Content
  | part n => n.Value

/-- Values of symbols that stand one after another. -/
def Values : List Symbol → Type
  | [] => Unit
  | s :: symbols => Located s.Value × Values symbols

/-- From the start of the first value to the end of the last one. -/
def Values.span : {symbols : List Symbol} → Values symbols → Span
  | [], _ => default
  | [_], ⟨x, _⟩ => x.span
  | _ :: _ :: _, ⟨x, rest⟩ => ⟨x.span.start, (Values.span rest).stop⟩

/-- The expression `base.name`. The member `self` of a name is the type of that name. -/
def memberOf (base : Expr) (name : String) : Expr :=
  match base with
  | .reference path =>
    if name == "self" then .type { name := path } else .reference (path ++ "." ++ name)
  | _ => .reference (base.source ++ "." ++ name)

/-- The expression `base?.name`. -/
def optionalMemberOf (base : Expr) (name : String) : Expr :=
  match base with
  | .reference path =>
    if name == "self" then .type { name := path, isOptional := true }
    else .reference (path ++ "?." ++ name)
  | _ => .reference (base.source ++ "?." ++ name)

/-- The field of a declaration that stands at `span`: its first binding. -/
def FieldDecl.field (d : FieldDecl) (attributes : List Attribute) (span : Span) : Field :=
  { name := d.first.name
    type := d.first.type
    attributes
    default := d.first.default
    isMutable := d.isMutable
    isStatic := d.isStatic
    isComputed := d.first.isComputed
    bindings := d.more.length + 1
    span := some span
    bindingSpan := some d.keyword
    nameSpan := some d.first.nameSpan }

/-- The cases of a declaration. They share its attributes. -/
def casesWith (cases : List Case) (attributes : List Attribute) : List (Field ⊕ Case) :=
  cases.map fun c => .inr { c with attributes }

/-- The record with those groups of members. -/
def recordOf (header : Kind × String) (attributes : List Attribute)
    (groups : List (List (Field ⊕ Case))) (span : Span) : Record :=
  { name := header.2
    kind := header.1
    attributes
    fields := groups.flatten.filterMap Sum.getLeft?
    cases := groups.flatten.filterMap Sum.getRight?
    span := some span }

/-- The value of a part, from the values of the symbols that it consists of. -/
def action {n : Nonterminal} {symbols : List Symbol} (p : Production n symbols)
    (xs : Values symbols) : n.Value :=
  let span := xs.span
  match n, symbols, p, xs with
  | _, _, .declarations, ⟨records, _⟩ => records.value
  | _, _, .declarationsEmpty, _ => []
  | _, _, .declarationFirst, ⟨r, _⟩ => [r.value]
  | _, _, .declarationMore, ⟨records, r, _⟩ => records.value ++ [r.value]
  | _, _, .declarationAttributed, ⟨attributes, header, body, _⟩ =>
    recordOf header.value attributes.value body.value span
  | _, _, .declarationPlain, ⟨header, body, _⟩ => recordOf header.value [] body.value span
  | _, _, .header, ⟨kind, name, _⟩ => (kind.value, name.value)
  | _, _, .headerConforming, ⟨kind, name, _⟩ => (kind.value, name.value)
  | _, _, .structKeyword, _ => Kind.struct
  | _, _, .enumKeyword, _ => Kind.enum
  | _, _, .classKeyword, _ => Kind.classType
  | _, _, .conformanceFirst, _ => ()
  | _, _, .conformanceMore, _ => ()
  | _, _, .body, ⟨_, members, _⟩ => List.reduceOption members.value
  | _, _, .bodyEmpty, _ => []
  | _, _, .memberFirst, ⟨m, _⟩ => [m.value]
  | _, _, .memberMore, ⟨members, m, _⟩ => members.value ++ [m.value]
  | _, _, .memberSeparator, _ => none
  | _, _, .memberField, ⟨d, _⟩ => some [.inl (d.value.field [] span)]
  | _, _, .memberFieldAttributed, ⟨attributes, d, _⟩ =>
    some [.inl (d.value.field attributes.value span)]
  | _, _, .memberCase, ⟨cases, _⟩ => some (casesWith cases.value [])
  | _, _, .memberCaseAttributed, ⟨attributes, cases, _⟩ =>
    some (casesWith cases.value attributes.value)
  | _, _, .attributeFirst, ⟨a, _⟩ => [a.value]
  | _, _, .attributeMore, ⟨attributes, a, _⟩ => attributes.value ++ [a.value]
  | _, _, .attributeBare, ⟨_, name, _⟩ => { name := name.value, span := some span }
  | _, _, .attributeEmpty, ⟨_, name, _⟩ => { name := name.value, span := some span }
  | _, _, .attributeArguments, ⟨_, name, _, arguments, _⟩ =>
    { name := name.value, arguments := arguments.value, span := some span }
  | _, _, .argumentFirst, ⟨a, _⟩ => [a.value]
  | _, _, .argumentMore, ⟨arguments, _, a, _⟩ => arguments.value ++ [a.value]
  | _, _, .argumentPositional, ⟨e, _⟩ => { label := none, value := e.value, span := some span }
  | _, _, .argumentLabeled, ⟨label, _, e, _⟩ =>
    { label := some label.value, value := e.value, span := some span }
  | _, _, .field, ⟨keyword, bindings, _⟩ =>
    { first := bindings.value.1, more := bindings.value.2, isMutable := keyword.value,
      keyword := keyword.span }
  | _, _, .fieldStatic, ⟨_, keyword, bindings, _⟩ =>
    { first := bindings.value.1, more := bindings.value.2, isMutable := keyword.value,
      keyword := keyword.span, isStatic := true }
  | _, _, .letKeyword, _ => false
  | _, _, .varKeyword, _ => true
  | _, _, .bindingFirst, ⟨b, _⟩ => (b.value, [])
  | _, _, .bindingMore, ⟨bindings, _, b, _⟩ => (bindings.value.1, bindings.value.2 ++ [b.value])
  | _, _, .bindingName, ⟨name, _⟩ => { name := name.value, nameSpan := name.span }
  | _, _, .bindingTyped, ⟨name, _, t, _⟩ =>
    { name := name.value, nameSpan := name.span, type := some t.value }
  | _, _, .bindingInitialized, ⟨name, _, e, _⟩ =>
    { name := name.value, nameSpan := name.span, default := some e.value }
  | _, _, .bindingTypedInitialized, ⟨name, _, t, _, e, _⟩ =>
    { name := name.value, nameSpan := name.span, type := some t.value, default := some e.value }
  | _, _, .bindingComputed, ⟨name, _, t, _⟩ =>
    { name := name.value, nameSpan := name.span, type := some t.value, isComputed := true }
  | _, _, .cases, ⟨_, cases, _⟩ => cases.value
  | _, _, .caseFirst, ⟨c, _⟩ => [c.value]
  | _, _, .caseMore, ⟨cases, _, c, _⟩ => cases.value ++ [c.value]
  | _, _, .caseBare, ⟨name, _⟩ => { name := name.value, span := some span }
  | _, _, .caseEmpty, ⟨name, _⟩ => { name := name.value, span := some span }
  | _, _, .casePayloads, ⟨name, _, payloads, _⟩ =>
    { name := name.value, payloads := payloads.value, span := some span }
  | _, _, .payloadFirst, ⟨x, _⟩ => [x.value]
  | _, _, .payloadMore, ⟨payloads, _, x, _⟩ => payloads.value ++ [x.value]
  | _, _, .payload, ⟨t, _⟩ => { type := t.value, span := some span }
  | _, _, .payloadDefault, ⟨t, _, e, _⟩ =>
    { type := t.value, default := some e.value, span := some span }
  | _, _, .payloadLabeled, ⟨label, _, t, _⟩ =>
    { type := t.value, label := some label.value, span := some span }
  | _, _, .payloadLabeledDefault, ⟨label, _, t, _, e, _⟩ =>
    { type := t.value, label := some label.value, default := some e.value, span := some span }
  | _, _, .type, ⟨t, _⟩ => t.value
  | _, _, .typeOptional, ⟨t, _⟩ => TypeRef.optional t.value
  | _, _, .typeVariadic, ⟨t, _⟩ =>
    { name := t.value.name, isArray := t.value.isArray, isVariadic := true }
  | _, _, .baseNamed, ⟨name, _⟩ => { name := name.value }
  | _, _, .baseArray, ⟨_, t, _⟩ => TypeRef.arrayOf t.value
  | _, _, .dottedFirst, ⟨name, _⟩ => name.value
  | _, _, .dottedMore, ⟨path, _, name, _⟩ => path.value ++ "." ++ name.value
  | _, _, .expressionLiteral, ⟨e, _⟩ => e.value
  | _, _, .expressionPostfix, ⟨e, _⟩ => e.value
  | _, _, .expressionArray, ⟨e, _⟩ => e.value
  | _, _, .expressionMember, ⟨_, name, _⟩ => Expr.member name.value
  | _, _, .literalString, ⟨s, _⟩ => Expr.string s.value
  | _, _, .literalInteger, ⟨n, _⟩ => Expr.integer n.value
  | _, _, .literalFloat, ⟨x, _⟩ => Expr.float x.value
  | _, _, .literalTrue, _ => Expr.boolean true
  | _, _, .literalFalse, _ => Expr.boolean false
  | _, _, .literalNil, _ => Expr.nil
  | _, _, .postfixName, ⟨name, _⟩ => Expr.reference name.value
  | _, _, .postfixMember, ⟨base, _, name, _⟩ => memberOf base.value name.value
  | _, _, .postfixOptional, ⟨base, _, _, name, _⟩ => optionalMemberOf base.value name.value
  | _, _, .postfixCall, ⟨base, _⟩ => Expr.call (Expr.source base.value) []
  | _, _, .postfixCallArguments, ⟨base, _, arguments, _⟩ =>
    Expr.call (Expr.source base.value) arguments.value
  | _, _, .arrayEmpty, _ => Expr.array []
  | _, _, .array, ⟨_, elements, _⟩ => Expr.array elements.value
  | _, _, .arrayTrailing, ⟨_, elements, _⟩ => Expr.array elements.value
  | _, _, .expressionFirst, ⟨e, _⟩ => [e.value]
  | _, _, .expressionMore, ⟨elements, _, e, _⟩ => elements.value ++ [e.value]
  | _, _, .blockEmpty, _ => ()
  | _, _, .block, _ => ()
  | _, _, .blockFirst, _ => ()
  | _, _, .blockMore, _ => ()
  | _, _, .blockNested, _ => ()
  | _, _, .blockToken _ _, _ => ()

mutual

/-- What a derivation declares, and where it stands. -/
def Tree.located : {s : Symbol} → Tree Label s → Located s.Value
  | _, .leaf x => x
  | _, .node p children =>
    let xs := children.values
    ⟨action p xs, xs.span⟩

def Forest.values : {symbols : List Symbol} → Forest Label symbols → Values symbols
  | _, .nil => ()
  | _, .cons first rest => ⟨first.located, rest.values⟩

end

/-- The records that a derivation of a whole text declares. -/
def Tree.records (t : Of Label .declarations) : List Record := t.located.value

end Grammar

end RowSchema
