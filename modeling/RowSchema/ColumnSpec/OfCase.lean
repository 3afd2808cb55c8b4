import RowSchema.ColumnSpec

/-! Enum cases as column specifications. -/

namespace RowSchema

/-- What one argument of a case's column attribute settles. -/
def caseFinding (name : String) (attr : Attribute) (i : Nat) (argument : Argument) :
    Finding :=
  match argument.label with
  | none => nameFinding argument name
  | some "as" => representationFinding argument name
  | some label =>
    if label == "primaryKey" || label == "generated" then
      .refuses (misplaced attr i argument (some name)
        ("Enum case '" ++ name ++ "' does not support the '" ++ label ++ "' argument"))
    else unsupported attr i argument name label

namespace ColumnSpec

/-- The specification of an enum case; none if it cannot be resolved at all. A case without an
associated value has no type, and so no column. -/
def ofCase (c : Case) : Except RangeError Resolved := do
  let fault (message : String) (span : Option Span) : Resolved :=
    (none, [{ problem := .structural, message, span, fieldName := some c.name }])
  if c.payloads.length > 1 then
    return fault ("Enum case '" ++ c.name ++ "' must have at most one associated value") c.span
  let payload := c.payloads.head?
  match payload.filter (·.type.isVariadic) with
  | some p =>
    return fault ("Variadic associated value of case '" ++ c.name ++ "' is not supported")
      (← Span.orElse p.span c.span)
  | none =>
    let attr := Attribute.named? "Column" c.attributes
    let found ← findings attr fun a i argument => .ok (caseFinding c.name a i argument)
    return (
      some {
        name := c.name
        type := payload.map (·.type)
        representation := lastSetting? found fun | .representation t => some t | _ => none
        columnName := lastSetting? found fun | .columnName name => some name | _ => none
        default := payload.bind (·.default)
        label := payload.bind (·.label)
        attr
        span := c.span },
      found.flatMap (·.diagnostics))

end ColumnSpec

end RowSchema
