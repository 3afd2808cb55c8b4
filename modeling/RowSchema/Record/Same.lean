import RowSchema.Record
import RowSchema.Value.Same

/-! When two declarations are the same. How values are made takes no part in it. -/

namespace RowSchema

mutual

def Expr.same : Expr → Expr → Bool
  | .string s, .string t => s == t
  | .boolean a, .boolean b => a == b
  | .integer m, .integer n => m == n
  | .float x, .float y => x == y
  | .nil, .nil => true
  | .array xs, .array ys => Expr.sameAll xs ys
  | .member m, .member n => m == n
  | .type t, .type u => t == u
  | .reference p, .reference q => p == q
  | .call f xs, .call g ys => f == g && Argument.sameAll xs ys
  | .constant v, .constant w => v.same w
  | .supplied a, .supplied b => a.number == b.number
  | _, _ => false
termination_by structural e => e

def Expr.sameAll : List Expr → List Expr → Bool
  | [], [] => true
  | x :: xs, y :: ys => x.same y && Expr.sameAll xs ys
  | _, _ => false
termination_by structural es => es

def Argument.same : Argument → Argument → Bool
  | ⟨l, v, s⟩, ⟨m, w, t⟩ => l == m && v.same w && s == t
termination_by structural a => a

def Argument.sameAll : List Argument → List Argument → Bool
  | [], [] => true
  | x :: xs, y :: ys => x.same y && Argument.sameAll xs ys
  | _, _ => false
termination_by structural arguments => arguments

end

/-- Whether two lists have the same length and agree place by place. -/
def sameList {α : Type} (same : α → α → Bool) : List α → List α → Bool
  | [], [] => true
  | x :: xs, y :: ys => same x y && sameList same xs ys
  | _, _ => false

/-- Whether both are absent, or both present and agree. -/
def sameOption {α : Type} (same : α → α → Bool) : Option α → Option α → Bool
  | none, none => true
  | some x, some y => same x y
  | _, _ => false

def Attribute.same (a b : Attribute) : Bool :=
  a.name == b.name && Argument.sameAll a.arguments b.arguments && a.span == b.span

def Field.same (a b : Field) : Bool :=
  a.name == b.name && a.type == b.type && sameList Attribute.same a.attributes b.attributes
    && sameOption Expr.same a.default b.default && a.isMutable == b.isMutable
    && a.isStatic == b.isStatic && a.isComputed == b.isComputed && a.bindings == b.bindings
    && a.span == b.span && a.bindingSpan == b.bindingSpan && a.nameSpan == b.nameSpan

def Payload.same (a b : Payload) : Bool :=
  a.type == b.type && a.label == b.label && sameOption Expr.same a.default b.default
    && a.span == b.span

def Case.same (a b : Case) : Bool :=
  a.name == b.name && sameList Payload.same a.payloads b.payloads
    && sameList Attribute.same a.attributes b.attributes && a.span == b.span

def Record.same (a b : Record) : Bool :=
  a.name == b.name && a.kind == b.kind && sameList Attribute.same a.attributes b.attributes
    && sameList Field.same a.fields b.fields && sameList Case.same a.cases b.cases
    && a.span == b.span

end RowSchema
