import RowSchema.Grammar

/-! Expressions and argument lists, read one token at a time. -/

namespace RowSchema.Reader

open Grammar

variable {τ : Terminal → Type}

/-- The label of an argument or of an associated value, and its colon. -/
abbrev Labelling (τ : Terminal → Type) := τ .word × τ .colon

/-- What an unfinished expression stands in. -/
inductive Frame (τ : Terminal → Type) where
  | array (bracket : τ .openBracket) (done : Listed τ .expressionList)
  /-- the arguments of a call, or of an attribute if there is no callee, and the label of the
  argument that is being read -/
  | arguments (callee : Option (Of τ .postfixExpr × τ .openParen))
      (done : Listed τ .argumentList) (label : Option (Labelling τ))

/-- How far the innermost expression has been read. -/
inductive ExprPart (τ : Terminal → Type) where
  | start
  /-- the dot of an implicit member -/
  | member (dot : τ .dot)
  /-- a single name, which may turn out to be a label -/
  | name (word : τ .word)
  /-- an expression that members and calls may follow -/
  | path (base : Of τ .postfixExpr)
  | dot (base : Of τ .postfixExpr) (dot : τ .dot)
  | question (base : Of τ .postfixExpr) (question : τ .question)
  | questionDot (base : Of τ .postfixExpr) (question : τ .question) (dot : τ .dot)
  /-- an expression that nothing may follow -/
  | whole (e : Of τ .expression)
  /-- the complete arguments of an attribute and their closing parenthesis -/
  | closed (arguments : Option (Of τ .argumentList)) (paren : τ .closeParen)

namespace ExprPart

/-- The expression that members and calls may follow. -/
def base? : ExprPart τ → Option (Of τ .postfixExpr)
  | name w => some (.of1 .postfixName (.leaf w))
  | path base => some base
  | _ => none

/-- The expression, if it may end here. -/
def expr? : ExprPart τ → Option (Of τ .expression)
  | whole e => some e
  | part => part.base?.map (.of1 .expressionPostfix)

end ExprPart

/-- An expression that is being read, and what it stands in, the innermost first. -/
structure ExprReader (τ : Terminal → Type) where
  frames : List (Frame τ) := []
  part : ExprPart τ := .start

/-- The literal that a single token makes. -/
def literal? : Sigma τ → Option (Of τ .literal)
  | ⟨.string, s⟩ => some (.of1 .literalString (.leaf s))
  | ⟨.integer, n⟩ => some (.of1 .literalInteger (.leaf n))
  | ⟨.float, x⟩ => some (.of1 .literalFloat (.leaf x))
  | ⟨.keyword .trueWord, k⟩ => some (.of1 .literalTrue (.leaf k))
  | ⟨.keyword .falseWord, k⟩ => some (.of1 .literalFalse (.leaf k))
  | ⟨.keyword .nilWord, k⟩ => some (.of1 .literalNil (.leaf k))
  | _ => none

/-- The argument with that label. -/
def argumentOf (label : Option (Labelling τ)) (e : Of τ .expression) : Of τ .argument :=
  match label with
  | none => .of1 .argumentPositional e
  | some (w, colon) => .of3 .argumentLabeled (.leaf w) (.leaf colon) e

/-- The array literal with those elements, which a comma may follow. -/
def arrayOf (bracket : τ .openBracket) (done : Listed τ .expressionList)
    (close : τ .closeBracket) : Of τ .arrayLiteral :=
  match done with
  | none => .of2 .arrayEmpty (.leaf bracket) (.leaf close)
  | some (elements, separator) =>
    .of4 .arrayTrailing (.leaf bracket) elements (.leaf separator) (.leaf close)

/-- A call with those arguments. -/
def callOf (callee : Of τ .postfixExpr) (paren : τ .openParen)
    (arguments : Option (Of τ .argumentList)) (close : τ .closeParen) : Of τ .postfixExpr :=
  match arguments with
  | none => .of3 .postfixCall callee (.leaf paren) (.leaf close)
  | some arguments =>
    .of4 .postfixCallArguments callee (.leaf paren) arguments (.leaf close)

namespace ExprReader

/-- The arguments of an attribute, after their opening parenthesis. -/
def arguments : ExprReader τ := { frames := [.arguments none none none] }

/-- What an argument list leads to when it ends. -/
def close (callee : Option (Of τ .postfixExpr × τ .openParen))
    (arguments : Option (Of τ .argumentList)) (paren : τ .closeParen) : ExprPart τ :=
  match callee with
  | some (callee, opening) => .path (callOf callee opening arguments paren)
  | none => .closed arguments paren

/-- A token at a place where an expression may begin. -/
def feedStart (frames : List (Frame τ)) (x : Sigma τ) : Option (ExprReader τ) :=
  match x with
  | ⟨.word, w⟩ => some ⟨frames, .name w⟩
  | ⟨.dot, d⟩ => some ⟨frames, .member d⟩
  | ⟨.openBracket, b⟩ => some ⟨.array b none :: frames, .start⟩
  | ⟨.closeBracket, c⟩ =>
    match frames with
    | .array b done :: outer =>
      some ⟨outer, .whole (.of1 .expressionArray (arrayOf b done c))⟩
    | _ => none
  | ⟨.closeParen, c⟩ =>
    match frames with
    | .arguments callee none none :: outer => some ⟨outer, close callee none c⟩
    | _ => none
  | x => (literal? x).map fun l => ⟨frames, .whole (.of1 .expressionLiteral l)⟩

/-- A token after an expression that ends the place where it stands. -/
def feedEnd (frames : List (Frame τ)) (e : Of τ .expression) (x : Sigma τ) :
    Option (ExprReader τ) :=
  match x, frames with
  | ⟨.comma, c⟩, .array b done :: outer =>
    some ⟨.array b (some (done.add .expressionFirst .expressionMore e, c)) :: outer, .start⟩
  | ⟨.closeBracket, c⟩, .array b done :: outer =>
    let elements := done.add .expressionFirst .expressionMore e
    some ⟨outer, .whole (.of1 .expressionArray (.of3 .array (.leaf b) elements (.leaf c)))⟩
  | ⟨.comma, c⟩, .arguments callee done label :: outer =>
    let arguments := done.add .argumentFirst .argumentMore (argumentOf label e)
    some ⟨.arguments callee (some (arguments, c)) none :: outer, .start⟩
  | ⟨.closeParen, c⟩, .arguments callee done label :: outer =>
    let arguments := done.add .argumentFirst .argumentMore (argumentOf label e)
    some ⟨outer, close callee (some arguments) c⟩
  | _, _ => none

/-- A token after an expression that members and calls may follow. -/
def feedPath (frames : List (Frame τ)) (base : Of τ .postfixExpr) (x : Sigma τ) :
    Option (ExprReader τ) :=
  match x with
  | ⟨.dot, d⟩ => some ⟨frames, .dot base d⟩
  | ⟨.question, q⟩ => some ⟨frames, .question base q⟩
  | ⟨.openParen, p⟩ => some ⟨.arguments (some (base, p)) none none :: frames, .start⟩
  | x => feedEnd frames (.of1 .expressionPostfix base) x

/-- A token after a single name. A colon makes it the label of an argument that has none. -/
def feedName (frames : List (Frame τ)) (w : τ .word) (x : Sigma τ) : Option (ExprReader τ) :=
  match x, frames with
  | ⟨.colon, c⟩, .arguments callee done none :: outer =>
    some ⟨.arguments callee done (some (w, c)) :: outer, .start⟩
  | x, frames => feedPath frames (.of1 .postfixName (.leaf w)) x

/-- The next token, if it goes on with the expression. -/
def feed (r : ExprReader τ) (x : Sigma τ) : Option (ExprReader τ) :=
  match r.part, x with
  | .start, x => feedStart r.frames x
  | .member d, ⟨.word, w⟩ =>
    some { r with part := .whole (.of2 .expressionMember (.leaf d) (.leaf w)) }
  | .name w, x => feedName r.frames w x
  | .path base, x => feedPath r.frames base x
  | .dot base d, ⟨.word, w⟩ =>
    some { r with part := .path (.of3 .postfixMember base (.leaf d) (.leaf w)) }
  | .question base q, ⟨.dot, d⟩ => some { r with part := .questionDot base q d }
  | .questionDot base q d, ⟨.word, w⟩ =>
    some { r with part := .path (.of4 .postfixOptional base (.leaf q) (.leaf d) (.leaf w)) }
  | .whole e, x => feedEnd r.frames e x
  | _, _ => none

/-- The expression, if it may end here. -/
def expr? (r : ExprReader τ) : Option (Of τ .expression) :=
  if r.frames.isEmpty then r.part.expr? else none

end ExprReader

end RowSchema.Reader
