import RowSchema.ColumnSpec

/-! Fields as column specifications. -/

namespace RowSchema

/-- The name of the field that is the primary key by convention. -/
def idField : String := "id"

def generatedKind? : Expr → Option Generated
  | .member name =>
    if name == "stored" then some .stored else if name == "virtual" then some .virtual else none
  | _ => none

/-- The argument `primaryKey`. -/
def keyFinding (field : String) (attr : Attribute) (i : Nat) (argument : Argument) :
    Finding :=
  match argument.value with
  | .boolean true => .settles (.key (.claimed i argument.span))
  | .boolean false =>
    { setting := some (.key .disclaimed)
      diagnostics := if field == idField then [] else [{
        misplaced attr i argument (some field)
          ("'primaryKey: false' has no effect on '" ++ field ++ "'") with
        severity := .warning }] }
  | _ => .refuses (unfit argument (some field) "Argument 'primaryKey' must be a boolean literal")

/-- The argument `generated`. A generated column is declared with `let`. -/
def generatedFinding (field : Field) (argument : Argument) : Except RangeError Finding :=
  match generatedKind? argument.value with
  | none =>
    return .refuses { unfit argument (some field.name)
      "Argument 'generated' must be '.stored' or '.virtual'; ignoring it" with
        severity := .warning }
  | some kind =>
    if field.isMutable then do
      let span ← Span.orElse field.bindingSpan field.span
      return .refuses {
        problem := .attributeConflict
        message := "Generated column property must be declared with a 'let'"
        span
        fieldName := some field.name
        fixIts := field.bindingSpan.toList.map fun span =>
          { message := "Replace 'var' with 'let'", replacement := "let", span := some span } }
    else return .settles (.generated kind)

/-- What one argument of a field's column attribute settles. A selection has no table, so its
columns take no names, keys or generation of their own. -/
def fieldFinding (role : Role) (field : Field) (attr : Attribute) (i : Nat)
    (argument : Argument) : Except RangeError Finding :=
  let notInSelection (what : String) (otherwise : Except RangeError Finding) :
      Except RangeError Finding :=
    match role with
    | .selection => .ok (.refuses (misplaced attr i argument (some field.name)
        ("'@Selection' " ++ what ++ " are not supported")))
    | _ => otherwise
  match argument.label with
  | none => notInSelection "column names" (.ok (nameFinding argument field.name))
  | some "as" => .ok (representationFinding argument field.name)
  | some "primaryKey" =>
    notInSelection "primary keys" (.ok (keyFinding field.name attr i argument))
  | some "generated" => notInSelection "generated columns" (generatedFinding field argument)
  | some label => .ok (unsupported attr i argument field.name label)

namespace ColumnSpec

/-- The field's declared type, else the type of its literal default. -/
def fieldType (field : Field) : Option TypeRef :=
  field.type.or (field.default.bind Expr.literalType?)

/-- A column group takes no arguments and no column options. -/
def groupDiagnostics (field : Field) (group : Attribute) (column : Option Attribute) :
    List Diagnostic :=
  (group.arguments.zipIdx.map fun (argument, i) =>
    misplaced group i argument (some field.name)
      ("Unsupported argument '" ++ argument.source ++ "' in '@Columns'"))
  ++ column.toList.map fun a =>
    { problem := .attributeConflict
      message := "'@Columns' and '@Column' cannot both be applied to '" ++ field.name ++ "'"
      span := a.span
      fieldName := some field.name
      fixIts := [{ message := "Remove '" ++ a.source ++ "'", replacement := "", span := a.span }] }

/-- A stored property that declares one binding of a type with one value. -/
def structuralFault? (role : Role) (field : Field) : Option Diagnostic :=
  let fault (message : String) : Diagnostic :=
    { problem := .structural, message, span := field.span, fieldName := some field.name }
  if field.bindings != 1 then
    some (fault ("'" ++ role.text ++
      "' does not support a property that declares more than one binding"))
  else if field.type.any (·.isVariadic) then
    some (fault ("Variadic field '" ++ field.name ++ "' is not supported"))
  else none

/-- A column with the options of its attribute. -/
def ofOptions (role : Role) (field : Field) (attr : Option Attribute) :
    Except RangeError (ColumnSpec × List Diagnostic) := do
  let found ← findings attr (fieldFinding role field)
  return (
    { name := field.name
      type := fieldType field
      representation := lastSetting? found fun | .representation t => some t | _ => none
      columnName := lastSetting? found fun | .columnName name => some name | _ => none
      key := (lastSetting? found fun | .key claim => some claim | _ => none).getD .unclaimed
      generated := (lastSetting? found fun | .generated g => some g | _ => none).getD .none
      default := field.default
      attr
      span := field.span },
    found.flatMap (·.diagnostics))

/-- The specification of a field; none for a static or computed property, or for one that cannot
be resolved at all. -/
def ofField (role : Role) (field : Field) : Except RangeError Resolved :=
  if field.isStatic || field.isComputed then .ok (none, [])
  else
    match structuralFault? role field with
    | some fault => .ok (none, [fault])
    | none =>
      let bare : ColumnSpec := {
        name := field.name
        type := fieldType field
        default := field.default
        span := field.span }
      let column := Attribute.named? "Column" field.attributes
      if (Attribute.named? "Ephemeral" field.attributes).isSome then
        .ok (some { bare with isEphemeral := true }, [])
      else
        match Attribute.named? "Columns" field.attributes with
        | some group =>
          .ok (some { bare with isGroup := true }, groupDiagnostics field group column)
        | none =>
          (ofOptions role field column).map fun (spec, diagnostics) => (some spec, diagnostics)

end ColumnSpec

end RowSchema
