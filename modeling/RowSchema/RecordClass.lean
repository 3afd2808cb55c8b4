import RowSchema.Dictionary
import RowSchema.Schema
import RowSchema.TypeHint.Name

/-! Classes whose fields are described by type hints. -/

namespace RowSchema

/-- What a field of a class is when it is not given. -/
inductive FieldDefault where
  | constant (v : Value)
  | supplied (s : Supplier)

namespace FieldDefault

def expr : FieldDefault → Expr
  | constant v => .constant v
  | supplied s => .supplied s

def value : FieldDefault → Value
  | constant v => v
  | supplied s => s.supply

end FieldDefault

structure ClassField where
  name : String
  hint : TypeHint
  default : Option FieldDefault := none
  /-- whether the constructor of the class takes the field -/
  isInit : Bool := true

structure RecordClass where
  id : ClassId
  fields : List ClassField
  isFrozen : Bool := true

/-- A class, of which only one with fields can be reflected. -/
inductive AnyClass where
  | record (c : RecordClass)
  | plain (id : ClassId)

def AnyClass.id : AnyClass → ClassId
  | record c => c.id
  | plain id => id

/-- Why a class is not made or not registered. -/
inductive ClassError where
  /-- a field has a default value and a supplier of one -/
  | twoDefaults
  | invalidName (field : String)
  | reservedName (field : String)
  | repeatedName (field : String)
  /-- the class has a use of its own for the attribute of that name -/
  | ownAttribute (name : String)
  | nullName
  /-- a default that all instances would share -/
  | mutableDefault (kind field : String)
  /-- an attribute that the class must keep, and that no default replaces -/
  | keptAttribute (field className : String)
  /-- a field that must be given after one that need not be -/
  | defaultOrder (field : String)
  /-- a parameter with the name of another one, in a line of the generated functions -/
  | repeatedParameter (name : String) (line : Nat)
  /-- an assignment to the name of a constant, in a line of the generated functions -/
  | assignedConstant (name : String) (line : Nat)
  /-- a name that the generated functions read as another one -/
  | variantName (field : String)
  /-- a default in the place of a method that keeps the instances as they are -/
  | overwrittenMethod (method className : String)
  | notRecordClass (className : String)
  | ephemeralWithoutDefault (field className : String)
  | schema (error : SchemaError)

def ClassError.message : ClassError → String
  | twoDefaults => "cannot specify both default and default_factory"
  | invalidName field => "Field names must be valid identifiers: " ++ Text.literal field
  | reservedName field => "Field names must not be keywords: " ++ Text.literal field
  | repeatedName field => "Field name duplicated: " ++ Text.literal field
  | ownAttribute "__slots__" => "'Field' object is not iterable"
  | ownAttribute "__qualname__" => "type __qualname__ must be a str, not Field"
  | ownAttribute name => name ++ " must be a nonlocal cell, not <class 'dataclasses.Field'>"
  | nullName => "type name must not contain null characters"
  | mutableDefault kind field =>
    "mutable default <class '" ++ kind ++ "'> for field " ++ field
      ++ " is not allowed: use default_factory"
  | keptAttribute field className =>
    "cannot delete '" ++ field ++ "' attribute of immutable type '" ++ className ++ "'"
  | defaultOrder field => "non-default argument '" ++ field ++ "' follows default argument"
  | repeatedParameter name line =>
    "duplicate argument '" ++ name ++ "' in function definition (<string>, line " ++ toString line
      ++ ")"
  | assignedConstant name line =>
    "cannot assign to " ++ name ++ " (<string>, line " ++ toString line ++ ")"
  | variantName field =>
    "__create_fn__() got an unexpected keyword argument '_type_" ++ field ++ "'"
  | overwrittenMethod method className =>
    "Cannot overwrite attribute " ++ method ++ " in class " ++ className
  | notRecordClass className => "'" ++ className ++ "' must be a dataclass"
  | ephemeralWithoutDefault field className =>
    "Ephemeral field '" ++ field ++ "' of '" ++ className ++ "' needs a default"
  | schema error => error.message

end RowSchema
