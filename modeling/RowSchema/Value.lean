/-! Values of rows, defaults and decoded records, and the SQL expressions that select them. -/

namespace RowSchema

mutual

/-- A value at run time. -/
inductive Value where
  | null
  | bool (b : Bool)
  | int (n : Int)
  | float (x : Float)
  | text (s : String)
  | list (items : List Value)
  | tuple (items : List Value)
  | dict (entries : List (Value × Value))
  | sql (expression : SqlExpr)
  /-- a decoded enum value -/
  | variant (name : String) (payload : Value)
  /-- an instance of a class with its fields in declaration order, of which some may be unset -/
  | object (className : String) (fields : List (String × Option Value))
  /-- what a caller's own constructor was given -/
  | made (arguments : List Value) (named : List (String × Value))

/-- What a projection may select. -/
inductive SqlExpr where
  /-- a value inlined into the statement -/
  | bound (value : Value)
  | column (table : Option String) (name : String)
  /-- SQL text as it stands -/
  | raw (sql : String)

end

instance : Inhabited Value := ⟨.null⟩

namespace Value

def isNull : Value → Bool
  | null => true
  | _ => false

/-- A record without a constructor of its own is a dictionary by field name. -/
def ofFields (fields : List (String × Value)) : Value :=
  .dict (fields.map fun (name, value) => (.text name, value))

end Value

namespace SqlExpr

/-- The expression that stands for an absent value. -/
def null : SqlExpr := .bound .null

/-- An expression is itself; any other value is bound. -/
def ofValue : Value → SqlExpr
  | .sql expression => expression
  | value => .bound value

end SqlExpr

end RowSchema
