import RowSchema.JsonValue
import RowSchema.Schema

/-! Derivations as JSON documents. -/

namespace RowSchema

def Span.json (s : Span) : JsonValue := .array [.number s.start, .number s.stop]

def FixIt.json (fix : FixIt) : JsonValue :=
  .object [("message", .string fix.message), ("replacement", .string fix.replacement)]

def Diagnostic.json (d : Diagnostic) : JsonValue :=
  .object [
    ("kind", .string d.problem.text),
    ("severity", .string d.severity.text),
    ("message", .string d.message),
    ("field", .ofString? d.fieldName),
    ("span", (d.span.map Span.json).getD .null),
    ("fix_its", .array (d.fixIts.map FixIt.json))]

def Column.json (column : Column) : List (String × JsonValue) :=
  [("name", .string column.name),
   ("field", .string column.field),
   ("type", .ofString? (column.type.map TypeRef.text)),
   ("width", .number column.width),
   ("primary_key", .bool column.isPrimaryKey),
   ("writable", .bool column.isWritable),
   ("generated", .string column.generated.text),
   ("default", .ofString? (column.default.map Expr.source))]

mutual

/-- An entry that is shown as `column`, with the members of a group. -/
def Entry.jsonAs (column : Column) : Entry → JsonValue
  | ⟨_, none⟩ => .object column.json
  | ⟨_, some members⟩ => .object (column.json ++ [("group", .array members.jsonEntries)])

def Group.jsonEntries : Group → List JsonValue
  | .record { entries, .. } => Entry.jsonAll entries
  | .enum { cases, .. } => CaseEntry.jsonAll cases

def Entry.jsonAll : List Entry → List JsonValue
  | [] => []
  | e :: rest => Entry.jsonAs e.column e :: Entry.jsonAll rest

/-- The entries of cases are shown as nullable. -/
def CaseEntry.jsonAll : List CaseEntry → List JsonValue
  | [] => []
  | { payload := none, .. } :: rest => CaseEntry.jsonAll rest
  | { payload := some e, .. } :: rest =>
    Entry.jsonAs e.column.nullable e :: CaseEntry.jsonAll rest

end

def CaseEntry.json (c : CaseEntry) : JsonValue :=
  .object [
    ("name", .string c.name),
    ("label", .ofString? c.label),
    ("columns", .array (Entry.jsonAll c.payload.toList))]

def DraftParameter.json (p : DraftParameter) : JsonValue :=
  .object [
    ("name", .string p.name),
    ("type", .string p.type.text),
    ("default", .ofString? (p.default.map Expr.source))]

def Derived.json (d : Derived) : List (String × JsonValue) :=
  [("table", .ofString? d.catalog.table),
   ("schema", .ofString? d.catalog.schema),
   ("width", .number d.catalog.width),
   ("select", .string (d.columns none).sql)]
  ++ match d.catalog with
    | .record catalog =>
      [("columns", .array (Entry.jsonAll catalog.entries)),
       ("required", .array (catalog.required.map .string))]
      ++ d.draft.toList.map fun draft => ("draft", .array (draft.parameters.map (·.json)))
    | .enum catalog => [("cases", .array (catalog.cases.map (·.json)))]

/-- A derivation: its diagnostics, and what is derived if there is anything. -/
def Derivation.json (d : Derivation Derived) : JsonValue :=
  .object ([
    ("type", .string d.typeName),
    ("ok", .bool d.ok),
    ("diagnostics", .array (d.diagnostics.map (·.json)))]
    ++ (d.result.map Derived.json).getD [])

end RowSchema
