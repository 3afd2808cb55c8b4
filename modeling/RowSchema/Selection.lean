import RowSchema.Dictionary
import RowSchema.Projection
import RowSchema.Signature

/-! Selections: constructors of projections, with one parameter for each entry of a catalog. -/

namespace RowSchema

/-- A parameter that stands for one entry. -/
structure Parameter where
  name : String
  entry : Entry
  default : Option SqlExpr

namespace Parameter

/-- A column's default, if it has a value, is the default of its parameter. A group has none. -/
def ofEntry (name : String) (entry : Entry) : Parameter :=
  let value := match entry.column.default with
    | some e => e.evaluate.toOption
    | none => none
  { name, entry, default := if entry.isGroup then none else value.map SqlExpr.ofValue }

def isRequired (p : Parameter) : Bool := p.default.isNone

end Parameter

/-- An argument of a selection. -/
inductive Supplied where
  | value (v : Value)
  | projection (p : Projection)

/-- The arguments of a call, by place and by name. -/
structure Supplies where
  positional : List Supplied := []
  named : Dictionary String Supplied := []

/-- Why a selection makes no projection. -/
inductive BindError where
  | unknownCase (typeName name : String)
  /-- the name is that of a parameter of the constructor itself -/
  | reserved (constructor name : String)
  | tooMany (target : String) (takes given : Nat)
  | unexpected (target name : String)
  | repeated (target name : String)
  | missing (target : String) (names : List String)
  | groupNotOptional (name : String)
  | groupShape (name : String) (width : Int)
  | groupWidth (name : String) (width : Int) (given : Nat)
  /-- an enum is selected from case by case -/
  | callNeedsCase
  | hasNoCases
  | signatureNeedsCase
  | signatureHasNoCases
deriving DecidableEq, Repr

def BindError.message : BindError → String
  | unknownCase typeName name => "'" ++ typeName ++ "' has no case '" ++ name ++ "'"
  | reserved constructor name =>
    constructor ++ "() got multiple values for argument '" ++ name ++ "'"
  | tooMany target takes given =>
    target ++ "() takes " ++ toString takes ++ " arguments but " ++ toString given ++ " were given"
  | unexpected target name =>
    target ++ "() got an unexpected keyword argument '" ++ name ++ "'"
  | repeated target name => target ++ "() got multiple values for argument '" ++ name ++ "'"
  | missing target names =>
    target ++ "() missing required arguments: " ++ Text.enumeration names
  | groupNotOptional name => "Column group '" ++ name ++ "' is not optional"
  | groupShape name width =>
    "Column group '" ++ name ++ "' takes a projection or a sequence of " ++ toString width
      ++ " expressions"
  | groupWidth name width given =>
    "Column group '" ++ name ++ "' takes " ++ toString width ++ " expressions, got "
      ++ toString given
  | callNeedsCase => "'VariantSelection' object is not callable"
  | hasNoCases => "'Selection' object has no attribute 'case'"
  | signatureNeedsCase => "'function' object has no attribute 'parameters'"
  | signatureHasNoCases => "'Signature' object is not callable"

namespace Parameter

/-- As many expressions as the group is wide. -/
def checkWidth (p : Parameter) (expressions : List SqlExpr) : Except BindError (List SqlExpr) :=
  if (expressions.length : Int) == p.entry.width then .ok expressions
  else .error (.groupWidth p.name p.entry.width expressions.length)

/-- One expression for each column of the entry. -/
def expand (p : Parameter) (argument : Supplied) : Except BindError (List SqlExpr) :=
  if p.entry.isGroup then
    match argument with
    | .value .null =>
      if p.entry.column.isNullable then .ok (List.replicate p.entry.width.toNat .null)
      else .error (.groupNotOptional p.name)
    | .projection projection => p.checkWidth projection.expressions
    | .value (.list items) => p.checkWidth (items.map .ofValue)
    | .value (.tuple items) => p.checkWidth (items.map .ofValue)
    | .value _ => .error (.groupShape p.name p.entry.width)
  else
    match argument with
    | .value v => .ok [.ofValue v]
    | .projection projection => .ok [.ofValue projection.toValue]

end Parameter

/-- The arguments by parameter. -/
def Supplies.byName (target : String) (names : List String) (given : Dictionary String Supplied) :
    List (String × Supplied) → Except BindError (Dictionary String Supplied)
  | [] => .ok given
  | (name, argument) :: rest =>
    if !names.contains name then .error (.unexpected target name)
    else if given.has name then .error (.repeated target name)
    else byName target names (given.put name argument) rest

/-- The expressions of parameters in order, and the names of those that have none. -/
def expandAll (given : Dictionary String Supplied) :
    List Parameter → Except BindError (List SqlExpr × List String)
  | [] => .ok ([], [])
  | p :: rest => do
    let (expressions, missing) ← match given.get? p.name, p.default with
      | some argument, _ => (p.expand argument).map (·, [])
      | none, some default => .ok ([default], [])
      | none, none => .ok ([], [p.name])
    let (moreExpressions, moreMissing) ← expandAll given rest
    return (expressions ++ moreExpressions, missing ++ moreMissing)

/-- The expressions that the arguments give to the parameters. -/
def bindArguments (target : String) (parameters : List Parameter) (supplies : Supplies) :
    Except BindError (List SqlExpr) := do
  if supplies.positional.length > parameters.length then
    throw (.tooMany target parameters.length supplies.positional.length)
  let names := parameters.map (·.name)
  let placed := Dictionary.ofList (names.zip supplies.positional)
  let given ← Supplies.byName target names placed supplies.named
  let (expressions, missing) ← expandAll given parameters
  if missing.isEmpty then return expressions else throw (.missing target missing)

/-- The first of the named arguments that a constructor keeps for itself. -/
def Supplies.checkReserved (supplies : Supplies) (constructor : String) (reserved : List String) :
    Except BindError Unit :=
  match supplies.named.keys.find? reserved.contains with
  | some name => .error (.reserved constructor name)
  | none => .ok ()

namespace Catalog

def parameters (c : Catalog) : List Parameter :=
  c.entries.map fun e => .ofEntry e.column.field e

/-- The projection of a record's columns onto the arguments. -/
def select (c : Catalog) (supplies : Supplies) : Except BindError Projection := do
  supplies.checkReserved "Selection.__call__" ["self"]
  let expressions ← bindArguments c.typeName c.parameters supplies
  return .ofExpressions (aliasesOf c.leaves) expressions

end Catalog

namespace CaseEntry

/-- The parameter of the associated value is named by its label, else by the case. -/
def parameters (c : CaseEntry) : List Parameter :=
  c.payload.toList.map fun e => .ofEntry ((c.label.filter (!·.isEmpty)).getD c.name) e

end CaseEntry

namespace EnumCatalog

/-- The case of that name. -/
def selected (c : EnumCatalog) (name : String) : Except BindError CaseEntry :=
  match c.case? name with
  | some entry => .ok entry
  | none => .error (.unknownCase c.typeName name)

/-- The projection of an enum's columns onto one case: its arguments, and nulls for the columns of
the other cases. The constructor takes the name of the case itself. -/
def select (c : EnumCatalog) (name : String) (supplies : Supplies) :
    Except BindError Projection := do
  supplies.checkReserved "VariantSelection.case" ["self", "name"]
  let entry ← c.selected name
  let expressions ← bindArguments (c.typeName ++ "." ++ name) entry.parameters supplies
  return .ofExpressions (aliasesOf c.leaves) (c.cases.flatMap fun other =>
    if other.name == name then expressions else List.replicate other.width.toNat .null)

end EnumCatalog

/-- The signature of a constructor with these parameters. -/
def Parameter.signature (parameters : List Parameter) :
    Except SignatureError (List SignatureParameter) :=
  RowSchema.signature (parameters.map fun p => ⟨p.name, p.default.map .sql, none⟩)

namespace Group

/-- The projection of the columns onto the arguments. That of an enum is made for a case. -/
def select (g : Group) (case : Option String) (supplies : Supplies) :
    Except BindError Projection :=
  match g, case with
  | record c, none => c.select supplies
  | record _, some _ => .error .hasNoCases
  | enum _, none => .error .callNeedsCase
  | enum c, some name => c.select name supplies

/-- The signature of the selection. That of an enum has one for each case. -/
def selectionSignature (g : Group) (case : Option String) :
    Except BindError (Except SignatureError (List SignatureParameter)) :=
  match g, case with
  | record c, none => .ok (Parameter.signature c.parameters)
  | record c, some _ =>
    match Parameter.signature c.parameters with
    | .ok _ => .error .signatureHasNoCases
    | .error e => .ok (.error e)
  | enum _, none => .error .signatureNeedsCase
  | enum c, some name => (c.selected name).map fun k => Parameter.signature k.parameters

/-- The text that denotes the selection of a catalog. -/
def selectionText (g : Group) : String :=
  let shown (kind : String) (names : List String) :=
    kind ++ "(" ++ Text.literal g.typeName ++ ", " ++ (Value.list (names.map .text)).repr ++ ")"
  match g with
  | record c => shown "Selection" (aliasesOf c.leaves)
  | enum c => shown "VariantSelection" (c.cases.map (·.name))

end Group

end RowSchema
