import RowSchema.Span

/-! Problems found in declarations. -/

namespace RowSchema

/-- The category of a problem. -/
inductive Problem where
  | structural
  | attributeConflict
  | value
  | typeInference
deriving DecidableEq, Repr

def Problem.text : Problem → String
  | structural => "structural"
  | attributeConflict => "attribute-conflict"
  | value => "value"
  | typeInference => "type-inference"

/-- The kind of problem with that text. -/
def Problem.ofText? (s : String) : Option Problem :=
  [structural, attributeConflict, value, typeInference].find? (·.text == s)

theorem Problem.ofText?_text (p : Problem) : ofText? p.text = some p := by
  cases p <;> rfl

inductive Severity where
  | error
  | warning
deriving DecidableEq, Repr

def Severity.text : Severity → String
  | error => "error"
  | warning => "warning"

/-- The severity with that text. -/
def Severity.ofText? (s : String) : Option Severity := [error, warning].find? (·.text == s)

theorem Severity.ofText?_text (v : Severity) : ofText? v.text = some v := by
  cases v <;> rfl

/-- A second place that has to do with a problem. -/
structure Note where
  message : String
  span : Option Span := none
deriving DecidableEq, Repr

/-- An edit that may mend a problem: `replacement` in place of the text at `span`. -/
structure FixIt where
  message : String
  replacement : String
  span : Option Span := none
deriving DecidableEq, Repr

structure Diagnostic where
  problem : Problem
  message : String
  severity : Severity := .error
  span : Option Span := none
  typeName : Option String := none
  fieldName : Option String := none
  notes : List Note := []
  fixIts : List FixIt := []
deriving DecidableEq, Repr

namespace Diagnostic

def isFatal (d : Diagnostic) : Bool := d.severity == .error

/-- What a diagnostic is about: a type, a field of a type, or a field. -/
def subject (d : Diagnostic) : String :=
  let type := d.typeName.getD ""
  match d.fieldName.getD "" with
  | "" => type
  | field => if type.isEmpty then field else type ++ "." ++ field

def text (d : Diagnostic) : String :=
  (if d.subject.isEmpty then "" else d.subject ++ ": ") ++ d.severity.text ++ ": " ++ d.message

/-- The diagnostic as one about that type. -/
def within (typeName : Option String) (d : Diagnostic) : Diagnostic := { d with typeName }

def errors (diagnostics : List Diagnostic) : List Diagnostic := diagnostics.filter (·.isFatal)

def warnings (diagnostics : List Diagnostic) : List Diagnostic := diagnostics.filter (!·.isFatal)

def hasErrors (diagnostics : List Diagnostic) : Bool := diagnostics.any (·.isFatal)

end Diagnostic

/-- The outcome of deriving one type. Where a diagnostic is fatal there is no result. -/
structure Derivation (α : Type) where
  typeName : String
  result : Option α
  diagnostics : List Diagnostic

/-- Why a derivation has no result. -/
structure DerivationError where
  typeName : String
  diagnostics : List Diagnostic

def DerivationError.message (e : DerivationError) : String :=
  "\n".intercalate (("Cannot derive schema for '" ++ e.typeName ++ "':") ::
    (Diagnostic.errors e.diagnostics).map fun d => "  " ++ d.text)

namespace Derivation

variable {α : Type}

def ofDiagnostics (typeName : String) (result : Option α) (diagnostics : List Diagnostic) :
    Derivation α :=
  { typeName, diagnostics, result := if Diagnostic.hasErrors diagnostics then none else result }

def ok (d : Derivation α) : Bool := d.result.isSome

def errors (d : Derivation α) : List Diagnostic := Diagnostic.errors d.diagnostics

def warnings (d : Derivation α) : List Diagnostic := Diagnostic.warnings d.diagnostics

def unwrap (d : Derivation α) : Except DerivationError α :=
  match d.result with
  | some result => .ok result
  | none => .error ⟨d.typeName, d.diagnostics⟩

end Derivation

end RowSchema
