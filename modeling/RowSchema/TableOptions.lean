import RowSchema.ColumnSpec
import RowSchema.TableName

/-! The table that a record asks for. -/

namespace RowSchema

structure TableOptions where
  table : Option String := none
  schema : Option String := none
deriving DecidableEq, Repr

namespace TableOptions

/-- What the arguments of a table attribute say. Of two equal options the later one counts, also
when it is bad. -/
def ofArguments (attr : Attribute) (options : TableOptions) :
    List (Argument × Nat) → TableOptions × List Diagnostic
  | [] => (options, [])
  | (argument, i) :: rest =>
    let (options, diagnostics) := match argument.label with
      | none =>
        match nonEmptyString argument none with
        | .ok name => ({ options with table := some name }, [])
        | .error d => ({ options with table := none }, [d])
      | some "schema" =>
        match nonEmptyString argument none with
        | .ok name => ({ options with schema := some name }, [])
        | .error d => ({ options with schema := none }, [d])
      | some label =>
        (options, [misplaced attr i argument none
          ("Unsupported argument '" ++ label ++ "' in '@Table'")])
    let (options, more) := ofArguments attr options rest
    (options, diagnostics ++ more)

/-- The overrides of a record. A selection takes none. -/
def ofRecord (r : Record) : TableOptions × List Diagnostic :=
  match Attribute.named? "Table" r.attributes with
  | some attr => ofArguments attr {} attr.arguments.zipIdx
  | none =>
    match Attribute.named? "Selection" r.attributes with
    | some attr =>
      ({}, attr.arguments.zipIdx.map fun (argument, i) =>
        misplaced attr i argument none
          ("Unsupported argument '" ++ argument.source ++ "' in '@Selection'"))
    | none => ({}, [])

/-- The overrides of a record, and the default name of a table that is given none. -/
def withDefault (settings : Options) (r : Record) : TableOptions × List Diagnostic :=
  let (options, diagnostics) := ofRecord r
  if r.isTable && options.table.isNone then
    ({ options with table := some (TableName.ofTypeName settings r.name) }, diagnostics)
  else (options, diagnostics)

end TableOptions

end RowSchema
