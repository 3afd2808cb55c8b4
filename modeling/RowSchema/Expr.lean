import RowSchema.Span
import RowSchema.Text.Quoted
import RowSchema.TypeRef
import RowSchema.Value.Text

/-! Expressions of declarations: arguments of attributes, and defaults. -/

namespace RowSchema

/-- A callable without arguments that supplies a fresh default each time, and the same one. Two
callables are the same when they have the same number. -/
structure Supplier where
  number : Nat
  /-- the name that the callable has, or `factory` when it has none -/
  name : String
  supply : Value

namespace Supplier

def list : Supplier := ⟨0, "list", .list []⟩

def dict : Supplier := ⟨1, "dict", .dict []⟩

def string : Supplier := ⟨2, "str", .text ""⟩

def integer : Supplier := ⟨3, "int", .int 0⟩

/-- The built-in constructors. -/
def builtins : List Supplier := [list, dict, string, integer]

/-- The built-in constructor of that name. -/
def ofName? (s : String) : Option Supplier := builtins.find? (·.name == s)

theorem ofName?_name {s : Supplier} (h : s ∈ builtins) : ofName? s.name = some s := by
  simp only [builtins, List.mem_cons, List.not_mem_nil, or_false] at h
  obtain rfl | rfl | rfl | rfl := h <;> rfl

end Supplier

mutual

inductive Expr where
  | string (s : String)
  | boolean (b : Bool)
  | integer (n : Int)
  | float (x : Float)
  | nil
  | array (elements : List Expr)
  /-- an implicit member such as `.stored` -/
  | member (name : String)
  /-- a type itself, such as `ISO8601.self` -/
  | type (t : TypeRef)
  /-- any other name, such as `Defaults.timeout` -/
  | reference (path : String)
  | call (callee : String) (arguments : List Argument)
  /-- a value that has no declaration text -/
  | constant (value : Value)
  | supplied (supplier : Supplier)

/-- An argument of an attribute or of a call. -/
structure Argument where
  label : Option String
  value : Expr
  span : Option Span

end

instance : Inhabited Expr := ⟨.nil⟩

namespace Expr

/-- The type that a literal has when none is declared. -/
def literalType? : Expr → Option TypeRef
  | string _ => some .string
  | boolean _ => some .boolean
  | integer _ => some .integer
  | float _ => some .double
  | constant (.bool _) => some .boolean
  | constant (.int _) => some .integer
  | constant (.float _) => some .double
  | constant (.text _) => some .string
  | _ => none

end Expr

mutual

/-- The declaration text of an expression. -/
def Expr.source : Expr → String
  | .string s => Text.declared s
  | .boolean b => if b then "true" else "false"
  | .integer n => toString n
  | .float x => Decimal.numbers.render x
  | .nil => "nil"
  | .array elements => "[" ++ ", ".intercalate (Expr.sources elements) ++ "]"
  | .member name => "." ++ name
  | .type t => t.text ++ ".self"
  | .reference path => path
  | .call callee arguments => callee ++ "(" ++ ", ".intercalate (Argument.sources arguments) ++ ")"
  | .constant value => value.repr
  | .supplied supplier => supplier.name ++ "()"

def Expr.sources : List Expr → List String
  | [] => []
  | e :: rest => e.source :: Expr.sources rest

def Argument.source : Argument → String
  | ⟨none, value, _⟩ => value.source
  | ⟨some label, value, _⟩ => label ++ ": " ++ value.source

def Argument.sources : List Argument → List String
  | [] => []
  | a :: rest => a.source :: Argument.sources rest

end

mutual

/-- Whether an expression has a value. -/
def Expr.isEvaluable : Expr → Bool
  | .string _ | .boolean _ | .integer _ | .float _ | .nil | .constant _ | .supplied _ => true
  | .array elements => Expr.areEvaluable elements
  | .member _ | .type _ | .reference _ | .call _ _ => false

def Expr.areEvaluable : List Expr → Bool
  | [] => true
  | e :: rest => e.isEvaluable && Expr.areEvaluable rest

end

mutual

/-- The value of an expression, or the part of it that has none. -/
def Expr.evaluate : Expr → Except Expr Value
  | .string s => .ok (.text s)
  | .boolean b => .ok (.bool b)
  | .integer n => .ok (.int n)
  | .float x => .ok (.float x)
  | .nil => .ok .null
  | .array elements => (Expr.evaluateAll elements).map .list
  | .constant value => .ok value
  | .supplied supplier => .ok supplier.supply
  | .member name => .error (.member name)
  | .type t => .error (.type t)
  | .reference path => .error (.reference path)
  | .call callee arguments => .error (.call callee arguments)

/-- The values in order; the first part without a value decides the failure. -/
def Expr.evaluateAll : List Expr → Except Expr (List Value)
  | [] => .ok []
  | e :: rest =>
    match e.evaluate with
    | .error part => .error part
    | .ok value => (Expr.evaluateAll rest).map (value :: ·)

end

/-- Why an expression cannot be evaluated, given the part that has no value. -/
def Expr.notEvaluable (part : Expr) : String :=
  "Expression '" ++ part.source ++ "' cannot be evaluated"

end RowSchema
