import RowSchema.Column
import RowSchema.Diagnostic
import RowSchema.Record

/-! What fields and enum cases say about their columns, once their attributes are resolved. A bad
attribute argument is diagnosed and otherwise ignored, so that one pass reports every problem. -/

namespace RowSchema

/-- What a field says about being the primary key. A claim is argument number `argument` of the
column attribute. -/
inductive KeyClaim where
  | unclaimed
  | disclaimed
  | claimed (argument : Nat) (span : Option Span)
deriving DecidableEq, Repr

namespace KeyClaim

def isClaimed : KeyClaim → Bool
  | claimed _ _ => true
  | _ => false

/-- Whether the field claims or disclaims the key, if it says anything. -/
def explicit? : KeyClaim → Option Bool
  | unclaimed => none
  | disclaimed => some false
  | claimed _ _ => some true

end KeyClaim

/-- The column that a field or an enum case asks for. -/
structure ColumnSpec where
  name : String
  type : Option TypeRef
  representation : Option TypeRef := none
  columnName : Option String := none
  key : KeyClaim := .unclaimed
  generated : Generated := .none
  isEphemeral : Bool := false
  isGroup : Bool := false
  default : Option Expr := none
  label : Option String := none
  /-- the column attribute -/
  attr : Option Attribute := none
  span : Option Span := none

namespace ColumnSpec

def resolvedName (s : ColumnSpec) : String := s.columnName.getD s.name

/-- The representation type, else the declared type. -/
def semanticType (s : ColumnSpec) : Option TypeRef := s.representation.or s.type

end ColumnSpec

/-- A specification, unless there is none, and the diagnostics on the way to it. -/
abbrev Resolved := Option ColumnSpec × List Diagnostic

/-- One thing that an argument of a column attribute settles. -/
inductive Setting where
  | columnName (name : String)
  | representation (t : TypeRef)
  | key (claim : KeyClaim)
  | generated (g : Generated)

/-- What comes of one argument. -/
structure Finding where
  setting : Option Setting := none
  diagnostics : List Diagnostic := []

namespace Finding

def settles (setting : Setting) : Finding := { setting := some setting }

def refuses (d : Diagnostic) : Finding := { diagnostics := [d] }

end Finding

/-- The last setting of a kind counts. -/
def lastSetting? {α : Type} (findings : List Finding) (pick : Setting → Option α) : Option α :=
  (findings.filterMap fun f => f.setting.bind pick).getLast?

/-- The edit that takes argument number `i` out of an attribute. -/
def removeArgument (attr : Attribute) (i : Nat) (argument : Argument) : FixIt where
  message := "Remove '" ++ argument.source ++ "'"
  replacement := attr.sourceWithout i
  span := attr.span

/-- An argument that does not belong where it stands. -/
def misplaced (attr : Attribute) (i : Nat) (argument : Argument) (field : Option String)
    (message : String) : Diagnostic where
  problem := .attributeConflict
  message
  span := argument.span
  fieldName := field
  fixIts := [removeArgument attr i argument]

/-- An argument whose value does not fit. -/
def unfit (argument : Argument) (field : Option String) (message : String) : Diagnostic where
  problem := .value
  message
  span := argument.span
  fieldName := field

/-- The text of an argument that must be a non-empty string. -/
def nonEmptyString (argument : Argument) (field : Option String) : Except Diagnostic String :=
  let refusal := unfit argument field "Argument must be a non-empty string literal"
  match argument.value with
  | .string s => if s.isEmpty then .error refusal else .ok s
  | _ => .error refusal

/-- The argument that names the column. -/
def nameFinding (argument : Argument) (field : String) : Finding :=
  match nonEmptyString argument (some field) with
  | .ok name => .settles (.columnName name)
  | .error d => .refuses d

/-- The argument `as`, which gives the representation. -/
def representationFinding (argument : Argument) (field : String) : Finding :=
  match argument.value with
  | .type t => .settles (.representation t)
  | _ => .refuses (unfit argument (some field) "Argument 'as' must be a type literal")

/-- An argument whose label is unknown. -/
def unsupported (attr : Attribute) (i : Nat) (argument : Argument) (field : String)
    (label : String) : Finding :=
  .refuses (misplaced attr i argument (some field)
    ("Unsupported argument '" ++ label ++ "' in '@Column'"))

/-- What the arguments of the column attribute settle, one by one. -/
def findings (attr : Option Attribute)
    (find : Attribute → Nat → Argument → Except RangeError Finding) :
    Except RangeError (List Finding) :=
  match attr with
  | some a => a.arguments.zipIdx.mapM fun (argument, i) => find a i argument
  | none => .ok []

end RowSchema
