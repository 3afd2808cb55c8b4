import RowSchema.Token

/-! The grammar of declaration texts: its productions, and the trees that derive texts by them. -/

namespace RowSchema

/-- A kind of token. -/
inductive Terminal where
  | atSign
  | openBrace
  | closeBrace
  | openBracket
  | closeBracket
  | openParen
  | closeParen
  | colon
  | comma
  | equals
  | ellipsis
  | dot
  | question
  | semicolon
  | operator
  | word
  | string
  | integer
  | float
  | keyword (k : Keyword)
deriving DecidableEq, Repr

/-- Whether a token of this kind opens or closes a block. -/
def Terminal.isBrace : Terminal → Bool
  | openBrace | closeBrace => true
  | _ => false

namespace Grammar

/-- A part of a declaration text. -/
inductive Nonterminal where
  | declarations
  | declarationList
  | declaration
  | recordHeader
  | recordKeyword
  | conformanceList
  | recordBody
  | memberList
  | member
  | attributeList
  | attributeItem
  | argumentList
  | argument
  | fieldDecl
  | bindingKeyword
  | bindingList
  | binding
  | caseDecl
  | caseList
  | caseItem
  | payloadList
  | payload
  | type
  | baseType
  | dottedName
  | expression
  | literal
  | postfixExpr
  | arrayLiteral
  | expressionList
  | block
  | blockItems
  | blockItem
deriving DecidableEq, Repr

inductive Symbol where
  | token (k : Terminal)
  | part (n : Nonterminal)
deriving DecidableEq, Repr

/-- The productions, each with the part that it derives and the symbols that the part consists
of. -/
inductive Production : Nonterminal → List Symbol → Type where
  | declarations : Production .declarations [.part .declarationList]
  | declarationsEmpty : Production .declarations []
  | declarationFirst : Production .declarationList [.part .declaration]
  | declarationMore : Production .declarationList [.part .declarationList, .part .declaration]
  | declarationAttributed :
      Production .declaration [.part .attributeList, .part .recordHeader, .part .recordBody]
  | declarationPlain : Production .declaration [.part .recordHeader, .part .recordBody]
  | header : Production .recordHeader [.part .recordKeyword, .token .word]
  | headerConforming :
      Production .recordHeader
        [.part .recordKeyword, .token .word, .token .colon, .part .conformanceList]
  | structKeyword : Production .recordKeyword [.token (.keyword .structWord)]
  | enumKeyword : Production .recordKeyword [.token (.keyword .enumWord)]
  | classKeyword : Production .recordKeyword [.token (.keyword .classWord)]
  | conformanceFirst : Production .conformanceList [.part .dottedName]
  | conformanceMore :
      Production .conformanceList [.part .conformanceList, .token .comma, .part .dottedName]
  | body : Production .recordBody [.token .openBrace, .part .memberList, .token .closeBrace]
  | bodyEmpty : Production .recordBody [.token .openBrace, .token .closeBrace]
  | memberFirst : Production .memberList [.part .member]
  | memberMore : Production .memberList [.part .memberList, .part .member]
  | memberSeparator : Production .member [.token .semicolon]
  | memberField : Production .member [.part .fieldDecl]
  | memberFieldAttributed : Production .member [.part .attributeList, .part .fieldDecl]
  | memberCase : Production .member [.part .caseDecl]
  | memberCaseAttributed : Production .member [.part .attributeList, .part .caseDecl]
  | attributeFirst : Production .attributeList [.part .attributeItem]
  | attributeMore : Production .attributeList [.part .attributeList, .part .attributeItem]
  | attributeBare : Production .attributeItem [.token .atSign, .token .word]
  | attributeEmpty :
      Production .attributeItem
        [.token .atSign, .token .word, .token .openParen, .token .closeParen]
  | attributeArguments :
      Production .attributeItem
        [.token .atSign, .token .word, .token .openParen, .part .argumentList, .token .closeParen]
  | argumentFirst : Production .argumentList [.part .argument]
  | argumentMore : Production .argumentList [.part .argumentList, .token .comma, .part .argument]
  | argumentPositional : Production .argument [.part .expression]
  | argumentLabeled : Production .argument [.token .word, .token .colon, .part .expression]
  | field : Production .fieldDecl [.part .bindingKeyword, .part .bindingList]
  | fieldStatic :
      Production .fieldDecl
        [.token (.keyword .staticWord), .part .bindingKeyword, .part .bindingList]
  | letKeyword : Production .bindingKeyword [.token (.keyword .letWord)]
  | varKeyword : Production .bindingKeyword [.token (.keyword .varWord)]
  | bindingFirst : Production .bindingList [.part .binding]
  | bindingMore : Production .bindingList [.part .bindingList, .token .comma, .part .binding]
  | bindingName : Production .binding [.token .word]
  | bindingTyped : Production .binding [.token .word, .token .colon, .part .type]
  | bindingInitialized : Production .binding [.token .word, .token .equals, .part .expression]
  | bindingTypedInitialized :
      Production .binding
        [.token .word, .token .colon, .part .type, .token .equals, .part .expression]
  | bindingComputed : Production .binding [.token .word, .token .colon, .part .type, .part .block]
  | cases : Production .caseDecl [.token (.keyword .caseWord), .part .caseList]
  | caseFirst : Production .caseList [.part .caseItem]
  | caseMore : Production .caseList [.part .caseList, .token .comma, .part .caseItem]
  | caseBare : Production .caseItem [.token .word]
  | caseEmpty : Production .caseItem [.token .word, .token .openParen, .token .closeParen]
  | casePayloads :
      Production .caseItem [.token .word, .token .openParen, .part .payloadList, .token .closeParen]
  | payloadFirst : Production .payloadList [.part .payload]
  | payloadMore : Production .payloadList [.part .payloadList, .token .comma, .part .payload]
  | payload : Production .payload [.part .type]
  | payloadDefault : Production .payload [.part .type, .token .equals, .part .expression]
  | payloadLabeled : Production .payload [.token .word, .token .colon, .part .type]
  | payloadLabeledDefault :
      Production .payload
        [.token .word, .token .colon, .part .type, .token .equals, .part .expression]
  | type : Production .type [.part .baseType]
  | typeOptional : Production .type [.part .baseType, .token .question]
  | typeVariadic : Production .type [.part .baseType, .token .ellipsis]
  | baseNamed : Production .baseType [.part .dottedName]
  | baseArray : Production .baseType [.token .openBracket, .part .type, .token .closeBracket]
  | dottedFirst : Production .dottedName [.token .word]
  | dottedMore : Production .dottedName [.part .dottedName, .token .dot, .token .word]
  | expressionLiteral : Production .expression [.part .literal]
  | expressionPostfix : Production .expression [.part .postfixExpr]
  | expressionArray : Production .expression [.part .arrayLiteral]
  | expressionMember : Production .expression [.token .dot, .token .word]
  | literalString : Production .literal [.token .string]
  | literalInteger : Production .literal [.token .integer]
  | literalFloat : Production .literal [.token .float]
  | literalTrue : Production .literal [.token (.keyword .trueWord)]
  | literalFalse : Production .literal [.token (.keyword .falseWord)]
  | literalNil : Production .literal [.token (.keyword .nilWord)]
  | postfixName : Production .postfixExpr [.token .word]
  | postfixMember : Production .postfixExpr [.part .postfixExpr, .token .dot, .token .word]
  | postfixOptional :
      Production .postfixExpr [.part .postfixExpr, .token .question, .token .dot, .token .word]
  | postfixCall :
      Production .postfixExpr [.part .postfixExpr, .token .openParen, .token .closeParen]
  | postfixCallArguments :
      Production .postfixExpr
        [.part .postfixExpr, .token .openParen, .part .argumentList, .token .closeParen]
  | arrayEmpty : Production .arrayLiteral [.token .openBracket, .token .closeBracket]
  | array :
      Production .arrayLiteral [.token .openBracket, .part .expressionList, .token .closeBracket]
  | arrayTrailing :
      Production .arrayLiteral
        [.token .openBracket, .part .expressionList, .token .comma, .token .closeBracket]
  | expressionFirst : Production .expressionList [.part .expression]
  | expressionMore :
      Production .expressionList [.part .expressionList, .token .comma, .part .expression]
  | blockEmpty : Production .block [.token .openBrace, .token .closeBrace]
  | block : Production .block [.token .openBrace, .part .blockItems, .token .closeBrace]
  | blockFirst : Production .blockItems [.part .blockItem]
  | blockMore : Production .blockItems [.part .blockItems, .part .blockItem]
  | blockNested : Production .blockItem [.part .block]
  /-- inside a block any token is skipped but a brace -/
  | blockToken (k : Terminal) (h : k.isBrace = false) : Production .blockItem [.token k]

/-! ## Trees -/

mutual

/-- A derivation of a symbol, where a token of kind `k` carries a label of `τ k`. -/
inductive Tree (τ : Terminal → Type) : Symbol → Type where
  | leaf {k : Terminal} (x : τ k) : Tree τ (.token k)
  | node {n : Nonterminal} {symbols : List Symbol} (p : Production n symbols)
      (children : Forest τ symbols) : Tree τ (.part n)

/-- Derivations of symbols that stand one after another. -/
inductive Forest (τ : Terminal → Type) : List Symbol → Type where
  | nil : Forest τ []
  | cons {s : Symbol} {symbols : List Symbol} (first : Tree τ s) (rest : Forest τ symbols) :
      Forest τ (s :: symbols)

end

/-- A derivation of a part. -/
abbrev Of (τ : Terminal → Type) (n : Nonterminal) := Tree τ (.part n)

variable {τ : Terminal → Type}

mutual

/-- The labelled tokens that are derived, in order. -/
def Tree.leaves : {s : Symbol} → Tree τ s → List (Sigma τ)
  | _, .leaf x => [⟨_, x⟩]
  | _, .node _ children => children.leaves

def Forest.leaves : {symbols : List Symbol} → Forest τ symbols → List (Sigma τ)
  | _, .nil => []
  | _, .cons first rest => first.leaves ++ rest.leaves

end

namespace Tree

variable {n : Nonterminal} {a b c d e : Symbol}

/-- A production with one symbol on its right. -/
abbrev of1 (p : Production n [a]) (x : Tree τ a) : Of τ n := .node p (.cons x .nil)

abbrev of2 (p : Production n [a, b]) (x : Tree τ a) (y : Tree τ b) : Of τ n :=
  .node p (.cons x (.cons y .nil))

abbrev of3 (p : Production n [a, b, c]) (x : Tree τ a) (y : Tree τ b) (z : Tree τ c) : Of τ n :=
  .node p (.cons x (.cons y (.cons z .nil)))

abbrev of4 (p : Production n [a, b, c, d]) (x : Tree τ a) (y : Tree τ b) (z : Tree τ c)
    (u : Tree τ d) : Of τ n :=
  .node p (.cons x (.cons y (.cons z (.cons u .nil))))

abbrev of5 (p : Production n [a, b, c, d, e]) (x : Tree τ a) (y : Tree τ b) (z : Tree τ c)
    (u : Tree τ d) (v : Tree τ e) : Of τ n :=
  .node p (.cons x (.cons y (.cons z (.cons u (.cons v .nil)))))

end Tree

/-! ## Lists -/

/-- What has been read of a list: nothing yet, or some items and the comma after them. -/
abbrev Listed (τ : Terminal → Type) (list : Nonterminal) :=
  Option (Of τ list × τ .comma)

/-- One item more, in a list with commas. -/
def Listed.add {list item : Nonterminal} (first : Production list [.part item])
    (more : Production list [.part list, .token .comma, .part item]) (done : Listed τ list)
    (x : Of τ item) : Of τ list :=
  match done with
  | none => .of1 first x
  | some (items, separator) => .of3 more items (.leaf separator) x

/-- One item more, in a list without commas that may have begun. -/
def append {list item : Nonterminal} (first : Production list [.part item])
    (more : Production list [.part list, .part item]) (done : Option (Of τ list)) (x : Of τ item) :
    Of τ list :=
  match done with
  | none => .of1 first x
  | some items => .of2 more items x

end Grammar

end RowSchema
