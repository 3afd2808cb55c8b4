import RowSchema.Catalog
import RowSchema.ColumnSpec.OfCase
import RowSchema.ColumnSpec.OfField
import RowSchema.Dictionary
import RowSchema.TableOptions

/-! Outlines: what records and enums say about their columns before the members of their column
groups are known, and the catalogs that they make once these are. -/

namespace RowSchema

/-- The members that a specification asks for, none for a plain column, or why there are none. -/
abbrev Resolution := Except Diagnostic (Option Group)

/-- A column name that another entry has already. -/
def nameTaken (spec : ColumnSpec) (name owner : String) : Diagnostic where
  problem := .attributeConflict
  message := "Column name '" ++ name ++ "' is already used by " ++ owner
  span := spec.span
  fieldName := some spec.name

/-! ## Records -/

/-- The stored fields of a record. `primary` is the number of the one that is the primary key. -/
structure RecordOutline where
  options : TableOptions
  specs : List ColumnSpec
  primary : Option Nat
  /-- fields that claim to be the key after another one has -/
  rejected : List ColumnSpec
  diagnostics : List Diagnostic

/-- A second claim to be the primary key. -/
def duplicateKey (role : Role) (first spec : ColumnSpec) : Diagnostic :=
  let (argument, span) := match spec.key with
    | .claimed argument span => (argument, span)
    | _ => (0, spec.span)
  let firstSpan := match first.key with
    | .claimed _ span => span
    | _ => first.span
  { problem := .attributeConflict
    message := "'" ++ role.text ++ "' only supports a single primary key"
    span
    fieldName := some spec.name
    notes := [⟨"Primary key already applied to '" ++ first.name ++ "'", firstSpan⟩]
    fixIts := spec.attr.toList.map fun attr =>
      ⟨"Remove 'primaryKey: true'", attr.sourceWithout argument, attr.span⟩ }

/-- Whether a field is the primary key by convention. -/
def isKeyByName (spec : ColumnSpec) : Bool :=
  spec.name == idField && spec.key == .unclaimed && !spec.isGroup

/-- The primary key, and the fields that claim it in vain: the first claim wins, and without one
the convention decides. -/
def selectKey (settings : Options) (specs : List ColumnSpec) : Option Nat × List ColumnSpec :=
  match specs.filter (·.key.isClaimed) with
  | _ :: rejected => (specs.findIdx? (·.key.isClaimed), rejected)
  | [] => (if settings.inferId then specs.findIdx? isKeyByName else none, [])

namespace RecordOutline

/-- A struct declares no cases. -/
def strayCase (r : Record) (c : Case) : Diagnostic where
  problem := .structural
  message := "Struct '" ++ r.name ++ "' cannot declare enum case '" ++ c.name ++ "'"
  span := c.span
  fieldName := some c.name

def ofRecord (settings : Options) (r : Record) : Except RangeError RecordOutline := do
  let (options, optionDiagnostics) := TableOptions.withDefault settings r
  let resolved ← r.fields.mapM (ColumnSpec.ofField r.role)
  let specs := (resolved.filterMap (·.1)).filter (!·.isEphemeral)
  let (primary, rejected) := if r.isSelection then (none, []) else selectKey settings specs
  let duplicates := match primary.bind (specs[·]?) with
    | some first => rejected.map (duplicateKey r.role first)
    | none => []
  return {
    options, specs, primary, rejected
    diagnostics := r.cases.map (strayCase r) ++ optionDiagnostics ++ resolved.flatMap (·.2)
      ++ duplicates }

/-- The field that is the primary key. -/
def primarySpec? (o : RecordOutline) : Option ColumnSpec := o.primary.bind (o.specs[·]?)

/-- The record type whose members a field asks for. -/
def groupName (spec : ColumnSpec) : Except Diagnostic (Option String) :=
  if spec.isGroup then
    match spec.type with
    | some t => .ok (some t.name)
    | none => .error {
        problem := .typeInference
        message := "Column group '" ++ spec.name ++ "' requires a type annotation"
        span := spec.span
        fieldName := some spec.name }
  else .ok none

/-- The entry of a specification. -/
def entry (isPrimaryKey : Bool) (spec : ColumnSpec) : Option Group → Entry
  | some members =>
    let members := members.asGroup
    { column := {
        name := spec.resolvedName, field := spec.name, type := spec.type, width := members.width
        default := spec.default }
      members := some members }
  | none =>
    { column := {
        name := spec.resolvedName, field := spec.name, type := spec.semanticType
        default := spec.default, isPrimaryKey, generated := spec.generated
        representation := spec.representation } }

/-- The entries in order. One whose column name an earlier entry has is left out; `seen` has the
fields by their column names. -/
def entries (primary : Option Nat) (seen : Dictionary String String) :
    List (ColumnSpec × Nat × Resolution) → List Entry × List Diagnostic
  | [] => ([], [])
  | (_, _, .error d) :: rest =>
    let (more, diagnostics) := entries primary seen rest
    (more, d :: diagnostics)
  | (spec, i, .ok members) :: rest =>
    let e := entry (primary == some i) spec members
    match seen.get? e.column.name with
    | some owner =>
      let (more, diagnostics) := entries primary seen rest
      (more, nameTaken spec e.column.name ("'" ++ owner ++ "'") :: diagnostics)
    | none =>
      let (more, diagnostics) := entries primary (seen.put e.column.name spec.name) rest
      (e :: more, diagnostics)

/-- The catalog, given what each specification's members resolve to. -/
def catalog (o : RecordOutline) (r : Record) (resolutions : List Resolution) :
    Catalog × List Diagnostic :=
  let numbered := o.specs.zip ((List.range o.specs.length).zip resolutions)
  let (entries, diagnostics) := entries o.primary [] numbered
  ({ typeName := r.name, entries, table := o.options.table, schema := o.options.schema
     maker := r.maker },
   o.diagnostics ++ diagnostics ++
    if entries.isEmpty then [{
      problem := .structural
      message := "'" ++ r.role.text ++
        "' requires at least one stored column property to be defined on '" ++ r.name ++ "'"
      span := r.span }]
    else [])

/-- Why a record that is no struct has no outline. -/
def notStruct (r : Record) : Diagnostic where
  problem := .structural
  message := "'" ++ r.role.text ++ "' can only be applied to struct types"
  span := r.span

/-- A column group where no records are known. -/
def unknownGroup (spec : ColumnSpec) (name : String) : Diagnostic where
  problem := .structural
  message := "'@Columns' requires '" ++ name ++ "' to be a declared record type"
  span := spec.span
  fieldName := some spec.name

/-- What a specification resolves to where no records are known. -/
def resolveAlone (spec : ColumnSpec) : Resolution :=
  match groupName spec with
  | .error d => .error d
  | .ok (some name) => .error (unknownGroup spec name)
  | .ok none => .ok none

end RecordOutline

/-! ## Enums -/

/-- The cases of an enum. One that cannot be resolved has no specification. -/
structure EnumOutline where
  options : TableOptions
  cases : List (Except RangeError Resolved)
  diagnostics : List Diagnostic

namespace EnumOutline

/-- An enum stores no properties. -/
def strayField (r : Record) (f : Field) : Diagnostic where
  problem := .structural
  message := "Enum '" ++ r.name ++ "' cannot declare stored property '" ++ f.name ++ "'"
  span := f.span
  fieldName := some f.name

def repeatedCase (r : Record) (c : Case) : Diagnostic where
  problem := .attributeConflict
  message := "Case '" ++ c.name ++ "' is declared more than once on '" ++ r.name ++ "'"
  span := c.span
  fieldName := some c.name

/-- The cases in order. Of several with one name the first one counts. -/
def resolveCases (r : Record) (seen : List String) : List Case → List (Except RangeError Resolved)
  | [] => []
  | c :: rest =>
    (if seen.contains c.name then .ok (none, [repeatedCase r c]) else ColumnSpec.ofCase c)
      :: resolveCases r (c.name :: seen) rest

def ofRecord (settings : Options) (r : Record) : EnumOutline :=
  let (options, optionDiagnostics) := TableOptions.withDefault settings r
  let stray := r.fields.filter fun f => !f.isStatic && !f.isComputed
  { options
    cases := resolveCases r [] r.cases
    diagnostics := stray.map (strayField r) ++ optionDiagnostics }

/-- The record type whose members a case asks for: that of its associated value, if it is one and
no other representation is given. -/
def groupName? (isRecord : String → Bool) (spec : ColumnSpec) : Option String :=
  match spec.type, spec.representation with
  | some t, none => if isRecord t.name then some t.name else none
  | _, _ => none

/-- The column of a case is named by its attribute, else by its label, else by the case. -/
def columnName (spec : ColumnSpec) : String :=
  (spec.columnName.or (spec.label.filter (!·.isEmpty))).getD spec.name

/-- The entry of a case that has an associated value. -/
def entry (spec : ColumnSpec) (type : TypeRef) : Option Group → Entry
  | some members =>
    let members := members.asGroup
    { column := { name := columnName spec, field := spec.name, type, width := members.width }
      members := some members }
  | none =>
    { column := {
        name := columnName spec, field := spec.name, type := spec.semanticType
        default := spec.default, representation := spec.representation } }

/-- The cases in order, with the resolutions of those that have a specification. `seen` has the
cases by the names of their columns. -/
def entries (seen : Dictionary String String) :
    List (Resolved × Resolution) → List CaseEntry × List Diagnostic
  | [] => ([], [])
  | ((none, before), _) :: rest =>
    let (more, diagnostics) := entries seen rest
    (more, before ++ diagnostics)
  | ((some spec, before), resolution) :: rest =>
    match resolution, spec.type with
    | .error d, _ =>
      let (more, diagnostics) := entries seen rest
      (more, before ++ d :: diagnostics)
    | .ok _, none =>
      let (more, diagnostics) := entries seen rest
      (⟨spec.name, spec.label, none⟩ :: more, before ++ diagnostics)
    | .ok members, some type =>
      let e := entry spec type members
      match seen.get? e.column.name with
      | some owner =>
        let (more, diagnostics) := entries seen rest
        (more, before ++ nameTaken spec e.column.name ("case '" ++ owner ++ "'") :: diagnostics)
      | none =>
        let (more, diagnostics) := entries (seen.put e.column.name spec.name) rest
        (⟨spec.name, spec.label, some e⟩ :: more, before ++ diagnostics)

/-- The catalog, given each case and what its members resolve to. -/
def catalog (o : EnumOutline) (r : Record) (resolved : List (Resolved × Resolution)) :
    EnumCatalog × List Diagnostic :=
  let (cases, diagnostics) := entries [] resolved
  ({ typeName := r.name, cases, table := o.options.table, schema := o.options.schema
     maker := r.maker },
   o.diagnostics ++ diagnostics ++
    if r.cases.isEmpty then [{
      problem := .structural
      message := "'" ++ r.role.text ++ "' requires at least one case to be defined on '" ++
        r.name ++ "'"
      span := r.span }]
    else [])

/-- Why a record that is no enum has no outline. -/
def notEnum (r : Record) : Diagnostic where
  problem := .structural
  message := "'" ++ r.name ++ "' is not an enum"
  span := r.span

end EnumOutline

end RowSchema
