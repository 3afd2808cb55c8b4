import RowSchema.Text.Quoted
import RowSchema.TypeHint

/-! The names of type hints, and the declared types that they stand for. -/

namespace RowSchema

namespace BuiltinType

/-- The name in declarations. -/
def name : BuiltinType → String
  | integer => "Int"
  | double => "Double"
  | string => "String"
  | boolean => "Bool"
  | bytes => "Data"
  | dateTime | date => "Date"
  | uuid => "UUID"
  | decimal => "Decimal"
  | list => "list"
  | dict => "dict"
  | absent => "NoneType"

/-- The name of the class. -/
def className : BuiltinType → String
  | integer => "int"
  | double => "float"
  | string => "str"
  | boolean => "bool"
  | bytes => "bytes"
  | dateTime => "datetime"
  | date => "date"
  | uuid => "UUID"
  | decimal => "Decimal"
  | list => "list"
  | dict => "dict"
  | absent => "NoneType"

/-- How a hint is written: the class and where it is from, if that has to be said. -/
def text (t : BuiltinType) : String :=
  match t with
  | dateTime | date => "datetime." ++ t.className
  | uuid => "uuid." ++ t.className
  | decimal => "decimal." ++ t.className
  | _ => t.className

def all : List BuiltinType :=
  [integer, double, string, boolean, bytes, dateTime, date, uuid, decimal, list, dict, absent]

/-- The type whose class has that name. -/
def ofClassName? (s : String) : Option BuiltinType := all.find? (·.className == s)

theorem ofClassName?_className (t : BuiltinType) : ofClassName? t.className = some t := by
  cases t <;> rfl

end BuiltinType

/-- Whether a hint is a class by itself. -/
def TypeHint.isClass : TypeHint → Bool
  | .builtin _ | .record _ | .plain _ => true
  | _ => false

/-- Texts between brackets after a name. -/
def TypeHint.applied (name : String) (arguments : List String) : String :=
  name ++ "[" ++ ", ".intercalate arguments ++ "]"

mutual

/-- How a hint is written inside of others. -/
def TypeHint.text : TypeHint → String
  | .builtin t => t.text
  | .record id | .plain id => id.path
  | .list element => TypeHint.applied "list" [element.text]
  | .tuple [] => "tuple[()]"
  | .tuple members => TypeHint.applied "tuple" (TypeHint.texts members)
  | .dict key value => TypeHint.applied "dict" [key.text, value.text]
  | .union .named [.builtin .absent, h] => TypeHint.applied "typing.Optional" [h.text]
  | .union .named [h, .builtin .absent] => TypeHint.applied "typing.Optional" [h.text]
  | .union .named members => TypeHint.applied "typing.Union" (TypeHint.texts members)
  | .union .barred members => " | ".intercalate (TypeHint.barredTexts members)
  | .annotated base markers =>
    TypeHint.applied "typing.Annotated" (base.text :: Marker.texts markers)

def TypeHint.texts : List TypeHint → List String
  | [] => []
  | h :: rest => h.text :: TypeHint.texts rest

/-- Between bars the absent value stands for its type. -/
def TypeHint.barredTexts : List TypeHint → List String
  | [] => []
  | .builtin .absent :: rest => "None" :: TypeHint.barredTexts rest
  | h :: rest => h.text :: TypeHint.barredTexts rest

def Marker.text : Marker → String
  | .column name representation primaryKey generated =>
    "ColumnOptions(name=" ++ (name.map Text.literal).getD "None" ++ ", as_=" ++
      (match representation with
        | some h => if h.isClass then "<class '" ++ h.text ++ "'>" else h.text
        | none => "None") ++ ", primary_key=" ++
      (match primaryKey with
        | some true => "True"
        | some false => "False"
        | none => "None") ++ ", generated=" ++ (generated.map Text.literal).getD "None" ++ ")"
  | .ephemeral => "EphemeralMarker()"
  | .columns => "ColumnsMarker()"
  | .remark s => Text.literal s

def Marker.texts : List Marker → List String
  | [] => []
  | m :: rest => m.text :: Marker.texts rest

end

namespace TypeHint

/-- The name of the declared type that a hint stands for. -/
def name : TypeHint → String
  | .builtin t => t.name
  | .record id | .plain id => id.name
  | .list _ => "list"
  | .tuple _ => "tuple"
  | .dict _ _ => "dict"
  | .union .named members =>
    if members.length == 2 && members.any isAbsent then "Optional" else "Union"
  | .union .barred members => text (.union .barred members)
  | .annotated _ _ => "Annotated"

/-- The elements of a list, or of a tuple by its first member. -/
def element? : TypeHint → Option TypeHint
  | .list element => some element
  | .tuple (element :: _) => some element
  | _ => none

/-- The declared type. Arrays have elements, whose own optionality is dropped. -/
def typeRef (h : TypeHint) : TypeRef :=
  let { base, isOptional, .. } := h.unwrap
  match base.element? with
  | some element => { name := element.unwrap.base.name, isOptional, isArray := true }
  | none => { name := base.name, isOptional }

end TypeHint

end RowSchema
