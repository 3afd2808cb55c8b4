import RowSchema.RecordClass

/-! The records that classes are reflected as. -/

namespace RowSchema

/-- The attribute that a marker stands for. A remark stands for none. -/
def Marker.attribute? : Marker → Option Attribute
  | .ephemeral => some { name := "Ephemeral" }
  | .columns => some { name := "Columns" }
  | .remark _ => none
  | .column name representation primaryKey generated =>
    let argument (label : Option String) (value : Expr) : Argument := ⟨label, value, none⟩
    some {
      name := "Column"
      arguments :=
        name.toList.map (fun s => argument none (.string s))
        ++ representation.toList.map (fun h => argument (some "as") (.type { name := h.name }))
        ++ primaryKey.toList.map (fun b => argument (some "primaryKey") (.boolean b))
        ++ generated.toList.map (fun s => argument (some "generated") (.member s)) }

/-- The attribute of a table with these options. -/
def Attribute.table (table schema : Option String) : Attribute where
  name := "Table"
  arguments :=
    table.toList.map (fun s => ⟨none, .string s, none⟩)
    ++ schema.toList.map (fun s => ⟨some "schema", .string s, none⟩)

def Attribute.selection : Attribute := { name := "Selection" }

namespace ClassField

/-- The attributes of a field. Without any, a field that holds a registered class is a group. -/
def attributes (registry : Registry) (hint : TypeHint.Unwrapped) : List Attribute :=
  match hint.markers.filterMap Marker.attribute?, hint.base with
  | [], .record id =>
    if registry.contains (.reflected id) then [{ name := "Columns" }] else []
  | attributes, _ => attributes

/-- A field of a class as a field of its record. -/
def field (registry : Registry) (c : RecordClass) (f : ClassField) : Except ClassError Field :=
  let hint := f.hint.unwrap
  let attributes := attributes registry hint
  if f.default.isNone && (Attribute.named? "Ephemeral" attributes).isSome then
    .error (.ephemeralWithoutDefault f.name c.id.name)
  else
    .ok {
      name := f.name
      type := some f.hint.typeRef
      attributes
      default := f.default.map FieldDefault.expr
      isMutable := !c.isFrozen
      isComputed := !f.isInit
      groupClass :=
        if (Attribute.named? "Columns" attributes).isSome then hint.base.class? else none }

end ClassField

namespace RecordClass

/-- An instance has all fields of the class. Those that are not given have their defaults. -/
def maker (c : RecordClass) : Maker where
  record given := .object c.id.name (c.fields.map fun f =>
    (f.name, (Dictionary.get? given f.name).or (f.default.map FieldDefault.value)))
  enum name payload := .variant name payload

/-- The record that a class is reflected as. -/
def record (registry : Registry) (attr : Attribute) (c : RecordClass) :
    Except ClassError Record := do
  let fields ← c.fields.mapM (ClassField.field registry c)
  return {
    name := c.id.name
    attributes := [attr]
    fields
    maker := some c.maker
    reflected := some c.id }

end RecordClass

/-- The schema with one more class, and the record of the class. -/
def Schema.registerClass (s : Schema) (attr : Attribute) :
    AnyClass → Except ClassError (Schema × Record)
  | .plain id => .error (.notRecordClass id.name)
  | .record c => do
    let r ← c.record s.registry attr
    let s ← (s.register r).mapError .schema
    return (s, r)

end RowSchema
