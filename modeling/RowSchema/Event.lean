import RowSchema.Value.Text

/-! What is logged while records are registered and derived. -/

namespace RowSchema

inductive Event where
  | registered (kind name : String)
  | rejectedKey (name first : String)
  | builtCatalog (typeName : String) (columns : Nat) (width : Int) (primaryKey : Option String)
  | builtEnumCatalog (typeName : String) (cases : Nat) (width : Int)
  | builtPlan (typeName : String) (steps : Nat) (required : List String)
  | builtDraft (typeName : String) (parameters : Nat)
  | builtSelection (typeName : String) (aliases : List String)
  | builtEnumSelection (typeName : String) (aliases : List String)
  | derived (name : String)
  | failed (name : String) (errors : Nat)
  | cached (name : String) (diagnostics : Nat)
  | cacheHit (name : String)
deriving DecidableEq, Repr

namespace Event

/-- The part of the program that an event belongs to. -/
def channel : Event → String
  | rejectedKey _ _ => "attributes"
  | builtCatalog _ _ _ _ => "catalog"
  | builtEnumCatalog _ _ _ => "variants"
  | builtPlan _ _ _ => "decoding"
  | builtDraft _ _ => "draft"
  | builtSelection _ _ | builtEnumSelection _ _ => "selection"
  | registered _ _ | derived _ | failed _ _ | cached _ _ | cacheHit _ => "schema"

private def names (list : List String) : String := (Value.list (list.map .text)).repr

def message : Event → String
  | registered kind name => "Registered " ++ kind ++ " " ++ Text.literal name
  | rejectedKey name first =>
    "Rejected second primary key " ++ Text.literal name ++ " (first: " ++ Text.literal first ++ ")"
  | builtCatalog typeName columns width primaryKey =>
    "Built catalog for " ++ typeName ++ ": " ++ toString columns ++ " columns, width " ++
      toString width ++ ", primary key " ++ primaryKey.getD "None"
  | builtEnumCatalog typeName cases width =>
    "Built variant catalog for " ++ typeName ++ ": " ++ toString cases ++ " cases, width " ++
      toString width
  | builtPlan typeName steps required =>
    "Built decode plan for " ++ typeName ++ ": " ++ toString steps ++ " steps, required " ++
      names required
  | builtDraft typeName parameters =>
    "Synthesized draft for " ++ typeName ++ ": " ++ toString parameters ++ " parameters"
  | builtSelection typeName aliases =>
    "Built selection for " ++ typeName ++ ": " ++ names aliases
  | builtEnumSelection typeName aliases =>
    "Built variant selection for " ++ typeName ++ ": " ++ names aliases
  | derived name => "Derived " ++ Text.literal name
  | failed name errors =>
    "Derivation of " ++ Text.literal name ++ " failed with " ++ toString errors ++ " errors"
  | cached name diagnostics =>
    "Cached derivation of " ++ Text.literal name ++ " (" ++ toString diagnostics ++ " diagnostics)"
  | cacheHit name => "Cache hit for " ++ Text.literal name

/-- An event as a line of the debug log. -/
def line (e : Event) : String := "DEBUG structured_tables." ++ e.channel ++ ": " ++ e.message

end Event

end RowSchema
