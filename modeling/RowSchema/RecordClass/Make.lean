import RowSchema.RecordClass
import RowSchema.Text.Normal
import RowSchema.Value.Kind

/-! Making a class: everything that its fields and their names have to satisfy, in the order of the
checks. -/

namespace RowSchema

namespace FieldDefault

/-- The default of a field that may have a default value or a supplier of one. -/
def ofParts : Option Value → Option Supplier → Except ClassError (Option FieldDefault)
  | some _, some _ => .error .twoDefaults
  | some v, none => .ok (some (.constant v))
  | none, s => .ok (s.map .supplied)

def isConstant : FieldDefault → Bool
  | constant _ => true
  | supplied _ => false

end FieldDefault

/-- Whether a class may have its name. -/
def ClassId.check (id : ClassId) : Except ClassError Unit :=
  if id.name.contains '\x00' then .error .nullName else .ok ()

namespace ClassField

def hasConstant (f : ClassField) : Bool := f.default.any (·.isConstant)

def hasSupplier (f : ClassField) : Bool := f.default.any (!·.isConstant)

/-- The name as the generated functions read it. -/
def reading (f : ClassField) : String := String.ofList (Text.normal f.name.toList)

/-- Whether every name is one, is not reserved, and is none of the names before it. -/
def checkNames (seen : List String) : List String → Except ClassError Unit
  | [] => .ok ()
  | name :: rest =>
    if !Text.isIdentifier name.toList then .error (.invalidName name)
    else if reservedWords.contains name then .error (.reservedName name)
    else if seen.contains name then .error (.repeatedName name)
    else checkNames (name :: seen) rest

/-- Whether no field is named like an attribute that the class reads, in the order of reading. -/
def checkAttributes (attributes : List String) (fields : List ClassField) :
    Except ClassError Unit :=
  match attributes.find? fun name => fields.any (·.name == name) with
  | some name => .error (.ownAttribute name)
  | none => .ok ()

/-- The field as the class has it. The class has a name in any case, which is the default of a field
with that name. -/
def within (id : ClassId) (f : ClassField) : ClassField :=
  if f.name == "__name__" then
    { f with default := some (.constant (.text id.name)), isInit := true }
  else f

/-- Whether the default of a field, if it has one, may be shared by all instances. Two tables of the
class itself may not. -/
def checkDefault (f : ClassField) : Except ClassError Unit :=
  match f.name, f.default with
  | "__annotations__", _ => .error (.mutableDefault "dict" f.name)
  | "__dict__", _ => .error (.mutableDefault "mappingproxy" f.name)
  | _, some (.constant v) =>
    if v.isMutable then .error (.mutableDefault v.kind f.name) else .ok ()
  | _, _ => .ok ()

/-- Whether the fields leave the class the attributes that it must have. -/
def checkKept (id : ClassId) (fields : List ClassField) : Except ClassError Unit :=
  match fields.find? fun f => ["__doc__", "__module__"].contains f.name && !f.hasConstant with
  | some f => .error (.keptAttribute f.name id.name)
  | none => .ok ()

/-- Whether no field that must be given follows one that need not be. -/
def checkOrder (fields : List ClassField) : Except ClassError Unit :=
  let given := (fields.filter (·.isInit)).dropWhile (·.default.isNone)
  match given.find? (·.default.isNone) with
  | some f => .error (.defaultOrder f.name)
  | none => .ok ()

/-- Whether no two fields have one reading. The generated functions take the types of the fields, in
their first line. -/
def checkReadings (seen : List String) : List ClassField → Except ClassError Unit
  | [] => .ok ()
  | f :: rest =>
    if seen.contains f.reading then .error (.repeatedParameter ("_type_" ++ f.reading) 1)
    else checkReadings (f.reading :: seen) rest

/-- What the constructor calls the instance. -/
def instanceName (fields : List ClassField) : String :=
  if fields.any (·.name == "self") then "__dataclass_self__" else "self"

/-- Whether no parameter of the constructor is called like the instance. Its parameters are in the
second line. -/
def checkParameters (fields : List ClassField) : Except ClassError Unit :=
  let name := instanceName fields
  if fields.any fun f => f.isInit && f.reading == name then .error (.repeatedParameter name 2)
  else .ok ()

/-- The one name that is read like any other but cannot be assigned to. -/
def constantName : String := "__debug__"

/-- Whether no function assigns to the constant: neither by a parameter nor, where instances may
change, by a line of the constructor. The constructor has a line for each field that it sets, and
`line` is the line of the first of the fields. -/
def checkAssigned (isFrozen : Bool) (line : Nat) : List ClassField → Except ClassError Unit
  | [] => .ok ()
  | f :: rest =>
    if f.reading != constantName then
      checkAssigned isFrozen (if f.isInit || f.hasSupplier then line + 1 else line) rest
    else if f.isInit then .error (.assignedConstant constantName 2)
    else if f.hasSupplier && !isFrozen then .error (.assignedConstant constantName line)
    else .ok ()

/-- Whether the generated functions read every name as it is written. -/
def checkWriting (fields : List ClassField) : Except ClassError Unit :=
  match fields.find? fun f => f.reading != f.name with
  | some f => .error (.variantName f.name)
  | none => .ok ()

/-- Whether no default stands in for a method that keeps the instances as they are. -/
def checkMethods (id : ClassId) (fields : List ClassField) : Except ClassError Unit :=
  match ["__setattr__", "__delattr__"].find? fun method =>
      fields.any fun f => f.name == method && f.hasConstant with
  | some method => .error (.overwrittenMethod method id.name)
  | none => .ok ()

end ClassField

/-- The class with these fields, if there is one. -/
def RecordClass.make (id : ClassId) (fields : List ClassField) (isFrozen : Bool) :
    Except ClassError RecordClass := do
  ClassField.checkNames [] (fields.map (·.name))
  ClassField.checkAttributes ["__slots__"] fields
  id.check
  ClassField.checkAttributes ["__qualname__", "__classcell__"] fields
  let fields := fields.map (ClassField.within id)
  fields.forM ClassField.checkDefault
  ClassField.checkKept id fields
  ClassField.checkOrder fields
  ClassField.checkReadings [] fields
  ClassField.checkParameters fields
  ClassField.checkAssigned isFrozen 3 fields
  ClassField.checkWriting fields
  if isFrozen then ClassField.checkMethods id fields
  return { id, fields, isFrozen }

/-- A class without fields, if it may have its name. -/
def AnyClass.makePlain (id : ClassId) : Except ClassError AnyClass := do
  id.check
  return .plain id

end RowSchema
