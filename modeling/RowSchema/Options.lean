/-! Settings that all derivations of a schema share. -/

namespace RowSchema

/-- How many missing required columns a failing decode reports. -/
inductive DecodePolicy where
  | failFast
  | collectAll
deriving DecidableEq, Repr

def DecodePolicy.text : DecodePolicy → String
  | failFast => "fail-fast"
  | collectAll => "collect-all"

/-- The policy with that text. -/
def DecodePolicy.ofText? (s : String) : Option DecodePolicy :=
  [failFast, collectAll].find? (·.text == s)

theorem DecodePolicy.ofText?_text (p : DecodePolicy) : ofText? p.text = some p := by
  cases p <;> rfl

structure Options where
  policy : DecodePolicy := .failFast
  /-- whether a field named `id` is the primary key when no field claims to be -/
  inferId : Bool := true
  /-- whether default table names are plurals -/
  pluralize : Bool := true
deriving DecidableEq, Repr

/-- What the policy lets a failing decode report. -/
def DecodePolicy.reported {α : Type} (policy : DecodePolicy) (missing : List α) : List α :=
  match policy with
  | .failFast => missing.take 1
  | .collectAll => missing

end RowSchema
