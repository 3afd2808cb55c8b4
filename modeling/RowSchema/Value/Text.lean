import RowSchema.Decimal.Layout
import RowSchema.Text.Quoted
import RowSchema.Value

/-! The text of values and of SQL expressions. -/

namespace RowSchema

open Text (literal)

/-- Items between brackets. -/
private def bracketed (opening closing : String) (items : List String) : String :=
  opening ++ ", ".intercalate items ++ closing

/-- A constructor call with named arguments. -/
private def constructed (name : String) (arguments : List (String × String)) : String :=
  bracketed (name ++ "(") ")" (arguments.map fun (label, value) => label ++ "=" ++ value)

private def optionalLiteral (s : Option String) : String := (s.map literal).getD "None"

mutual

/-- The literal that denotes a value. -/
def Value.repr : Value → String
  | .null => "None"
  | .bool b => if b then "True" else "False"
  | .int n => toString n
  | .float x => Decimal.numbers.render x
  | .text s => literal s
  | .list items => bracketed "[" "]" (Value.reprAll items)
  | .tuple [item] => "(" ++ item.repr ++ ",)"
  | .tuple items => bracketed "(" ")" (Value.reprAll items)
  | .dict entries => bracketed "\x7b" "\x7d" (Value.reprEntries entries)
  | .sql expression => expression.repr
  | .variant name payload =>
    constructed "VariantValue" [("case", literal name), ("value", payload.repr)]
  | .object className fields => constructed className (Value.reprFields fields)
  | .made arguments named =>
    bracketed "(" ")" (Value.reprAll arguments ++
      (Value.reprNamed named).map fun (label, value) => label ++ "=" ++ value)

def Value.reprAll : List Value → List String
  | [] => []
  | value :: rest => value.repr :: Value.reprAll rest

def Value.reprEntries : List (Value × Value) → List String
  | [] => []
  | (key, value) :: rest => (key.repr ++ ": " ++ value.repr) :: Value.reprEntries rest

def Value.reprFields : List (String × Option Value) → List (String × String)
  | [] => []
  | (_, none) :: rest => Value.reprFields rest
  | (name, some value) :: rest => (name, value.repr) :: Value.reprFields rest

def Value.reprNamed : List (String × Value) → List (String × String)
  | [] => []
  | (name, value) :: rest => (name, value.repr) :: Value.reprNamed rest

def SqlExpr.repr : SqlExpr → String
  | .bound value => constructed "BoundValue" [("value", value.repr)]
  | .column table name =>
    constructed "ColumnReference" [("column", literal name), ("table", optionalLiteral table)]
  | .raw sql => constructed "RawSQL" [("text", literal sql)]

end

/-- The SQL text of an expression. A value that is neither a number nor absent is inlined as the
string of its text. -/
def SqlExpr.sql : SqlExpr → String
  | .raw sql => sql
  | .column none name => Text.identifier name
  | .column (some table) name => Text.identifier table ++ "." ++ Text.identifier name
  | .bound .null => "NULL"
  | .bound (.bool b) => if b then "1" else "0"
  | .bound (.int n) => toString n
  | .bound (.float x) => Decimal.numbers.render x
  | .bound (.text s) => Text.sqlString s
  | .bound (.sql expression) => Text.sqlString expression.sql
  | .bound value => Text.sqlString value.repr

end RowSchema
