import RowSchema.ColumnSpec
import RowSchema.Decode
import RowSchema.Selection
import RowSchema.Signature

/-! Drafts: what is inserted into a table with a primary key. A draft has the table's columns except
the generated ones, and may leave the key to the database. -/

namespace RowSchema

/-- A parameter of a draft's constructor. -/
structure DraftParameter where
  name : String
  type : TypeRef
  default : Option Expr

def DraftParameter.isRequired (p : DraftParameter) : Bool :=
  p.default.isNone && !p.type.isOptional

structure Draft where
  typeName : String
  catalog : Catalog
  parameters : List DraftParameter
  primaryKey : Entry

/-- Why a draft's constructor makes nothing. -/
inductive DraftError where
  | bind (error : BindError)
  | notEvaluable (part : Expr)

def DraftError.message : DraftError → String
  | bind error => error.message
  | notEvaluable part => part.notEvaluable

namespace Draft

/-- The constructor's parameters, with the defaults that have values. -/
def signature (d : Draft) : Except SignatureError (List SignatureParameter) :=
  RowSchema.signature (d.parameters.map fun p =>
    { name := p.name
      default := match p.default with
        | some e => e.evaluate.toOption
        | none => if p.type.isOptional then some .null else none
      type := some p.type.text })

def parameter? (d : Draft) (name : String) : Option DraftParameter :=
  d.parameters.find? (·.name == name)

/-- The value of a parameter: the one given, else its default, else null if it is optional. -/
def valueOf (given : Dictionary String Value) (p : DraftParameter) :
    Except DraftError (Option Value) :=
  match given.get? p.name, p.default with
  | some value, _ => .ok (some value)
  | none, some e => (e.evaluate.map some).mapError .notEvaluable
  | none, none => .ok (if p.type.isOptional then some .null else none)

/-- The values of parameters in order, and the names of those that have none. -/
def valuesOf (given : Dictionary String Value) (values : Dictionary String Value) :
    List DraftParameter → Except DraftError (Dictionary String Value × List String)
  | [] => .ok (values, [])
  | p :: rest => do
    match ← valueOf given p with
    | some value => valuesOf given (values.put p.name value) rest
    | none =>
      let (values, missing) ← valuesOf given values rest
      return (values, p.name :: missing)

/-- The values of a draft, made from named arguments. -/
def make (d : Draft) (given : Dictionary String Value) :
    Except DraftError (Dictionary String Value) := do
  if given.has "self" then throw (.bind (.reserved "Draft.make" "self"))
  match given.keys.find? fun name => (d.parameter? name).isNone with
  | some name => throw (.bind (.unexpected d.typeName name))
  | none =>
    let (values, missing) ← valuesOf given [] d.parameters
    if missing.isEmpty then return values else throw (.bind (.missing d.typeName missing))

/-- The values of a draft, copied from a record; or the first field that the record lacks. -/
def fromRecord (d : Draft) (record : Dictionary String Value) :
    Except String (Dictionary String Value) :=
  d.parameters.foldlM (fun values p =>
    match record.get? p.name with
    | some value => .ok (values.put p.name value)
    | none => .error p.name) []

/-! ## From a table -/

/-- The type of a field's parameter, which must be known. -/
def missingType (spec : Option ColumnSpec) (nameSpan : Option Span) (field : String) :
    Diagnostic where
  problem := .typeInference
  message := "'@Table' requires '" ++ field ++ "' to have a type annotation in order to " ++
    "generate a memberwise initializer"
  span := spec.bind (·.span)
  fieldName := some field
  fixIts := nameSpan.toList.map fun span =>
    ⟨"Insert ': <#Type#>'", ": <#Type#>", some ⟨span.stop, span.stop⟩⟩

/-- An entry of a table as one of its draft: with a parameter, or with no type for it. A primary
key becomes optional. -/
def ofEntry (specs : List ColumnSpec) (nameSpans : Dictionary String Span) (e : Entry) :
    Except Diagnostic (Entry × DraftParameter) :=
  let field := e.column.field
  let spec := specs.reverse.find? (·.name == field)
  let declared := match spec with
    | some spec => spec.type
    | none => e.column.type
  match declared with
  | none => .error (missingType spec (nameSpans.get? field) field)
  | some type =>
    if e.column.isPrimaryKey then
      let column := { e.column.nullable with default := some .nil }
      .ok ({ e with column }, ⟨field, type.optional, some .nil⟩)
    else .ok (e, ⟨field, type, e.column.default⟩)

/-- The draft of a table, none if it has no primary key or the type of a parameter is unknown. -/
def ofCatalog (catalog : Catalog) (specs : List ColumnSpec) (nameSpans : Dictionary String Span) :
    Option Draft × List Diagnostic :=
  match catalog.primaryKey? with
  | none => (none, [])
  | some key =>
    let writable := catalog.entries.filter (·.column.isWritable)
    let results := writable.map (ofEntry specs nameSpans)
    let diagnostics := results.filterMap fun
      | .error d => some d
      | .ok _ => none
    let kept := results.filterMap Except.toOption
    if diagnostics.isEmpty then
      let typeName := catalog.typeName ++ ".Draft"
      let entries := kept.map (·.1)
      (some {
        typeName
        catalog := { catalog with typeName, entries, maker := none }
        parameters := kept.map (·.2)
        primaryKey := (entries.reverse.find? (·.column.isPrimaryKey)).getD key.nullable }, [])
    else (none, diagnostics)

end Draft

end RowSchema
