import RowSchema.Value

/-! Kinds of values, and what values of a kind can be used for. -/

namespace RowSchema

/-- The name of a value's kind. -/
def Value.kind : Value → String
  | .null => "NoneType"
  | .bool _ => "bool"
  | .int _ => "int"
  | .float _ => "float"
  | .text _ => "str"
  | .list _ => "list"
  | .tuple _ => "tuple"
  | .dict _ => "dict"
  | .sql (.bound _) => "BoundValue"
  | .sql (.column _ _) => "ColumnReference"
  | .sql (.raw _) => "RawSQL"
  | .variant _ _ => "VariantValue"
  | .object className _ => className
  | .made _ _ => "Made"

/-- Whether a value can be changed in place. -/
def Value.isMutable : Value → Bool
  | .list _ | .dict _ => true
  | _ => false

mutual

/-- The kind of the first part of a value that can be changed in place. A value that has one is no
key of a dictionary. -/
def Value.mutablePart? : Value → Option String
  | .list _ => some "list"
  | .dict _ => some "dict"
  | .tuple items => Value.mutablePartOfAll? items
  | .sql e => e.mutablePart?
  | .variant _ payload => payload.mutablePart?
  | .object _ fields => Value.mutablePartOfFields? fields
  | _ => none

def Value.mutablePartOfAll? : List Value → Option String
  | [] => none
  | v :: rest => v.mutablePart?.or (Value.mutablePartOfAll? rest)

def Value.mutablePartOfFields? : List (String × Option Value) → Option String
  | [] => none
  | (_, none) :: rest => Value.mutablePartOfFields? rest
  | (_, some v) :: rest => v.mutablePart?.or (Value.mutablePartOfFields? rest)

def SqlExpr.mutablePart? : SqlExpr → Option String
  | .bound v => v.mutablePart?
  | _ => none

end

mutual

/-- Whether every field of every object in a value is set. -/
def Value.isWhole : Value → Bool
  | .list items => Value.areWhole items
  | .tuple items => Value.areWhole items
  | .dict entries => Value.areWholeEntries entries
  | .sql (.bound v) => v.isWhole
  | .variant _ payload => payload.isWhole
  | .object _ fields => Value.areWholeFields fields
  | .made arguments named => Value.areWhole arguments && Value.areWholeNamed named
  | _ => true

def Value.areWhole : List Value → Bool
  | [] => true
  | v :: rest => v.isWhole && Value.areWhole rest

def Value.areWholeEntries : List (Value × Value) → Bool
  | [] => true
  | (k, v) :: rest => k.isWhole && v.isWhole && Value.areWholeEntries rest

def Value.areWholeFields : List (String × Option Value) → Bool
  | [] => true
  | (_, none) :: _ => false
  | (_, some v) :: rest => v.isWhole && Value.areWholeFields rest

def Value.areWholeNamed : List (String × Value) → Bool
  | [] => true
  | (_, v) :: rest => v.isWhole && Value.areWholeNamed rest

end

end RowSchema
