import RowSchema.Draft
import RowSchema.Event
import RowSchema.Outline
import RowSchema.Reader.Records
import RowSchema.Record.Same

/-! Schemas: the registered records, and what has been derived from them. -/

namespace RowSchema

/-- What is derived from a record. -/
structure Derived where
  record : Record
  catalog : Group
  draft : Option Draft := none
  policy : DecodePolicy

namespace Derived

/-- All columns of the table, qualified by the given name or else by that of the table. -/
def columns (d : Derived) (given : Option String) : Projection :=
  .ofTable d.catalog.leaves d.catalog.table given

/-- The value of a row; the schema's policy holds where none is given. -/
def decode (d : Derived) (converters : Converters) (policy : Option DecodePolicy)
    (row : Value) : Except DecodeError Value :=
  d.catalog.decodeValue converters (policy.getD d.policy) row

end Derived

/-- The registered records by key, and the latest key of each name. -/
structure Registry where
  records : Dictionary Key Record := []
  names : Dictionary String Key := []

/-- What a record is looked up by. -/
inductive Reference where
  | name (name : String)
  | reflected (id : ClassId)
deriving DecidableEq, Repr

/-- How a message shows what was looked up. -/
def Reference.shown : Reference → String
  | name n => Text.literal n
  | reflected id => "<class '" ++ id.path ++ "'>"

namespace Registry

/-- The key that a reference stands for. A name that is itself a key stands for that. -/
def key? (r : Registry) : Reference → Option Key
  | .reflected id => if r.records.has (.reflected id) then some (.reflected id) else none
  | .name n => if r.records.has (.declared n) then some (.declared n) else r.names.get? n

def record? (r : Registry) (reference : Reference) : Option Record :=
  (r.key? reference).bind r.records.get?

def contains (r : Registry) (reference : Reference) : Bool := (r.key? reference).isSome

def list (r : Registry) : List Record := r.records.map (·.2)

/-- A record under its key, unless another declaration is registered there. -/
def register? (r : Registry) (record : Record) : Option Registry :=
  let added : Registry :=
    { records := r.records.put record.key record, names := r.names.put record.name record.key }
  match r.records.get? record.key with
  | some existing => if existing.same record then some added else none
  | none => some added

end Registry

/-- The derivations that are known, and the events in order. -/
structure Progress where
  cache : Dictionary Key (Derivation Derived) := []
  log : List Event := []

def Progress.note (p : Progress) (events : List Event) : Progress :=
  { p with log := p.log ++ events }

/-! ## Events of a derivation -/

mutual

/-- The decode plans of a record's catalog, those of its groups first. -/
def Catalog.planEvents : Catalog → List Event
  | { typeName, entries, .. } =>
    Entry.planEvents entries ++ [.builtPlan typeName entries.length
      ((entries.filter (·.column.isRequired)).map (·.column.name))]

def Entry.planEvents : List Entry → List Event
  | [] => []
  | ⟨_, some (.record catalog)⟩ :: rest => catalog.planEvents ++ Entry.planEvents rest
  | _ :: rest => Entry.planEvents rest

end

def Group.planEvents : Group → List Event
  | .record catalog => catalog.planEvents
  | .enum _ => []

/-! ## Column groups -/

/-- Why a field's record type gives no column group. -/
def groupFault (spec : ColumnSpec) (message : String) (notes : List Note := []) : Diagnostic where
  problem := .structural
  message
  span := spec.span
  fieldName := some spec.name
  notes

/-- The class that a field of the record holds, if it is looked up by class. -/
def groupReference (owner : Record) (spec : ColumnSpec) (name : String) : Reference :=
  match (owner.fields.filter (·.groupClass.isSome)).reverse.find? (·.name == spec.name) with
  | some { groupClass := some id, .. } => .reflected id
  | _ => .name name

def notDeclared (spec : ColumnSpec) (name : String) : Diagnostic :=
  groupFault spec
    ("'" ++ name ++ "' is not a declared record type and cannot be used as a column group")

def recursive (owner : Record) (spec : ColumnSpec) (name : String) : Diagnostic :=
  groupFault spec ("Recursive column group '" ++ spec.name ++ "' is not supported: '" ++ name ++
    "' contains '" ++ owner.name ++ "'")

def invalidGroup (spec : ColumnSpec) (name : String) (nested : Derivation Derived) : Diagnostic :=
  groupFault spec ("Column group '" ++ spec.name ++ "' has invalid type '" ++ name ++ "'")
    (nested.errors.map fun d => ⟨d.text, d.span⟩)

/-! ## Derivation -/

/-- What goes on from the progress so far. A range of no use ends all derivations under way; the
progress up to there remains. -/
abbrev Deriving := ExceptT RangeError (StateM Progress)

def note (events : List Event) : Deriving Unit := modify (·.note events)

/-- What derives the record that a group refers to; nothing if it is being derived already. -/
abbrev Nested := Record → Deriving (Option (Derivation Derived))

/-- The catalog of a group's record. -/
def resolveGroup (registry : Registry) (nested : Nested) (owner : Record) (spec : ColumnSpec)
    (name : String) : Deriving (Except Diagnostic Group) := do
  match registry.record? (groupReference owner spec name) with
  | none => return .error (notDeclared spec name)
  | some record =>
    match ← nested record with
    | none => return .error (recursive owner spec name)
    | some derivation =>
      match derivation.result with
      | some derived => return .ok derived.catalog
      | none => return .error (invalidGroup spec name derivation)

/-- What a field of a record resolves to. -/
def resolveField (registry : Registry) (nested : Nested) (owner : Record) (spec : ColumnSpec) :
    Deriving Resolution := do
  match RecordOutline.groupName spec with
  | .error d => return .error d
  | .ok none => return .ok none
  | .ok (some name) => return (← resolveGroup registry nested owner spec name).map some

/-- A case of an enum, and what it resolves to. -/
def resolveCase (registry : Registry) (nested : Nested) (owner : Record)
    (case : Except RangeError Resolved) : Deriving (Resolved × Resolution) := do
  let resolved ← MonadExcept.ofExcept case
  let isRecord (name : String) := registry.contains (.name name)
  match resolved.1.bind fun spec => (EnumOutline.groupName? isRecord spec).map (spec, ·) with
  | none => return (resolved, .ok none)
  | some (spec, name) =>
    match ← resolveGroup registry nested owner spec name with
    | .error d => return (resolved, .error d)
    | .ok members =>
      note members.asGroup.planEvents
      return (resolved, .ok (some members))

/-- The spans of the names of fields; of several fields with one name the last one counts. -/
def nameSpans (r : Record) : Dictionary String Span :=
  .ofList (r.fields.filterMap fun f => f.nameSpan.map (f.name, ·))

/-- Where a record is annotated neither as a table nor as a selection. -/
def unannotated (r : Record) : Diagnostic where
  problem := .structural
  message := "'" ++ r.name ++ "' must be annotated with '@Table' or '@Selection'"
  span := r.span

/-- A draft is made of a table with a primary key. -/
def draftOf (r : Record) (outline : RecordOutline) (catalog : Catalog) :
    Option Draft × List Diagnostic :=
  if r.isTable && outline.primary.isSome then Draft.ofCatalog catalog outline.specs (nameSpans r)
  else (none, [])

/-- The result and the diagnostics of a record that is no enum. -/
def deriveRecord (registry : Registry) (settings : Options) (nested : Nested) (r : Record) :
    Deriving (Option Derived × List Diagnostic) := do
  if r.kind != .struct then return (none, [RecordOutline.notStruct r])
  let outline ← MonadExcept.ofExcept (RecordOutline.ofRecord settings r)
  let key := outline.primarySpec?.map (·.name)
  note (outline.rejected.map fun spec => .rejectedKey spec.name (key.getD ""))
  let resolutions ← outline.specs.mapM (resolveField registry nested r)
  let (catalog, diagnostics) := outline.catalog r resolutions
  note [.builtCatalog r.name catalog.entries.length catalog.width key]
  if Diagnostic.hasErrors diagnostics then return (none, diagnostics)
  let (draft, draftDiagnostics) := draftOf r outline catalog
  note (draft.toList.map (fun d => .builtDraft catalog.typeName d.parameters.length)
    ++ catalog.planEvents ++ [.builtSelection catalog.typeName (aliasesOf catalog.leaves)])
  return (some { record := r, catalog := .record catalog, draft, policy := settings.policy },
    diagnostics ++ draftDiagnostics)

/-- The result and the diagnostics of an enum. -/
def deriveEnum (registry : Registry) (settings : Options) (nested : Nested) (r : Record) :
    Deriving (Option Derived × List Diagnostic) := do
  let outline := EnumOutline.ofRecord settings r
  let resolved ← outline.cases.mapM (resolveCase registry nested r)
  let (catalog, diagnostics) := outline.catalog r resolved
  note [.builtEnumCatalog r.name catalog.cases.length catalog.width]
  if Diagnostic.hasErrors diagnostics then return (none, diagnostics)
  note [.builtEnumSelection catalog.typeName (aliasesOf catalog.leaves)]
  return (some { record := r, catalog := .enum catalog, policy := settings.policy }, diagnostics)

/-- The derivation of a record that is not in the cache. -/
def deriveNew (registry : Registry) (settings : Options) (nested : Nested) (r : Record) :
    Deriving (Derivation Derived) := do
  let within := List.map (Diagnostic.within (some r.name))
  if r.isTable || r.isSelection then
    let (result, diagnostics) ←
      if r.kind == .enum then deriveEnum registry settings nested r
      else deriveRecord registry settings nested r
    let derivation := Derivation.ofDiagnostics r.name result (within diagnostics)
    note [if derivation.ok then .derived r.name else .failed r.name derivation.errors.length]
    return derivation
  else return .ofDiagnostics r.name none (within [unannotated r])

/-- The derivation of a record, from the cache if it is there. -/
def deriveCached (registry : Registry) (settings : Options) (nested : Nested) (r : Record) :
    Deriving (Derivation Derived) := do
  match (← get).cache.get? r.key with
  | some known =>
    note [.cacheHit r.name]
    return known
  | none =>
    let derivation ← deriveNew registry settings nested r
    match (← get).cache.get? r.key with
    | some known => return known
    | none =>
      modify fun p => { p with cache := p.cache.put r.key derivation }
      note [.cached r.name derivation.diagnostics.length]
      return derivation

/-- The derivation of a record none of whose `closed` keys may be the key of a group, since they are
being derived. Groups nest at most `depth` deep, which the number of registered records bounds. -/
def deriveWithin (registry : Registry) (settings : Options) :
    (depth : Nat) → (closed : List Key) → Record → Deriving (Derivation Derived)
  | 0, _ => deriveCached registry settings fun _ => return none
  | depth + 1, closed => fun r =>
    let closed := r.key :: closed
    deriveCached registry settings (fun member =>
      if closed.contains member.key then return none
      else return some (← deriveWithin registry settings depth closed member)) r

/-- A registry with its settings, and what has been derived from it. -/
structure Schema where
  settings : Options := {}
  registry : Registry := {}
  progress : Progress := {}

/-- Why a text cannot be taken into a schema. -/
inductive SchemaError where
  | source (error : SourceError)
  | alreadyRegistered (name : String)
deriving DecidableEq, Repr

def SchemaError.message : SchemaError → String
  | source error => error.message
  | alreadyRegistered name => "Type '" ++ name ++ "' is already registered"

namespace Schema

/-- A record more, unless another declaration is registered under its key. -/
def register (s : Schema) (r : Record) : Except SchemaError Schema :=
  match s.registry.register? r with
  | some registry =>
    .ok { s with registry, progress := s.progress.note [.registered r.kind.text r.name] }
  | none => .error (.alreadyRegistered r.name)

/-- The records one after another. An error leaves those before it registered. -/
def registerAll (s : Schema) : List Record → Schema × Option SchemaError
  | [] => (s, none)
  | r :: rest =>
    match s.register r with
    | .ok s => s.registerAll rest
    | .error e => (s, some e)

/-- The records that a text declares, all registered. -/
def parse (s : Schema) (source : String) : Schema × Except SchemaError (List Record) :=
  match Record.readAll source with
  | .error e => (s, .error (.source e))
  | .ok records =>
    match s.registerAll records with
    | (s, none) => (s, .ok records)
    | (s, some e) => (s, .error e)

/-- The derivation of a registered record. -/
def deriveRecord (s : Schema) (r : Record) : Except RangeError (Derivation Derived) × Schema :=
  let run := deriveWithin s.registry s.settings s.registry.records.length [] r
  let (derivation, progress) := run.run.run s.progress
  (derivation, { s with progress })

/-- The derivation of what a reference stands for, if that is registered. -/
def derive? (s : Schema) (reference : Reference) :
    Option (Except RangeError (Derivation Derived) × Schema) :=
  (s.registry.record? reference).map s.deriveRecord

/-- The derivations of some records, in order. -/
def deriveEach (s : Schema) :
    List Record → Except RangeError (List (Derivation Derived)) × Schema
  | [] => (.ok [], s)
  | r :: rest =>
    match s.deriveRecord r with
    | (.error e, s) => (.error e, s)
    | (.ok derivation, s) =>
      let (more, s) := s.deriveEach rest
      (more.map (derivation :: ·), s)

/-- The derivations of all records, by name. Of several records with one name the last one counts,
in the place of the first. -/
def deriveAll (s : Schema) :
    Except RangeError (Dictionary String (Derivation Derived)) × Schema :=
  let (derivations, after) := s.deriveEach s.registry.list
  (derivations.map fun ds => .ofList ((s.registry.list.map (·.name)).zip ds), after)

def isCached (s : Schema) (reference : Reference) : Bool :=
  (s.registry.key? reference).any s.progress.cache.has

end Schema

end RowSchema
