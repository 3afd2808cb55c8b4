import RowSchema.Schema
import RowSchema.Text.Blank

/-! Summaries: what is derived from a record, as text to read. -/

namespace RowSchema.Summary

/-- A text with blanks after it that fill it up to a width. -/
def filled (width : Nat) (s : String) : String :=
  s ++ String.ofList (List.replicate (width - s.length) ' ')

def typeText (t : Option TypeRef) (otherwise : String) : String :=
  (t.map TypeRef.text).getD otherwise

/-- What is special about a column. -/
def remarks (column : Column) (isGroup : Bool) : List String :=
  (if column.field != column.name then ["field " ++ column.field] else [])
  ++ (if column.isPrimaryKey then ["primary key"] else [])
  ++ (if column.generated.isGenerated then ["generated " ++ column.generated.text] else [])
  ++ (column.default.toList.map fun e => "default " ++ e.source)
  ++ (if isGroup then ["group width " ++ toString column.width] else [])

/-- The line of a column: its name and type in columns, then what is special about it. -/
def line (column : Column) (isGroup : Bool) : String :=
  let parts := (filled 16 column.name ++ " " ++ filled 12 (typeText column.type "<inferred>"))
    :: remarks column isGroup
  String.ofList (Text.trimEnd (" ".intercalate parts).toList)

mutual

/-- The lines of an entry that is shown as `column`; the members of a group are indented. -/
def entryLines (column : Column) (indent : String) : Entry → List String
  | ⟨_, none⟩ => [indent ++ line column false]
  | ⟨_, some members⟩ => (indent ++ line column true) :: groupLines (indent ++ "    ") members

def groupLines (indent : String) : Group → List String
  | .record { entries, .. } => entriesLines indent entries
  | .enum { cases, .. } => casesLines indent cases

def entriesLines (indent : String) : List Entry → List String
  | [] => []
  | e :: rest => entryLines e.column indent e ++ entriesLines indent rest

/-- The entries of cases are shown as nullable. -/
def casesLines (indent : String) : List CaseEntry → List String
  | [] => []
  | { payload := none, .. } :: rest => casesLines indent rest
  | { payload := some e, .. } :: rest =>
    entryLines e.column.nullable indent e ++ casesLines indent rest

end

/-- The table that columns belong to. -/
def tableText (table schema : Option String) : String :=
  match table, schema with
  | none, _ => "no table"
  | some table, none => "table \"" ++ table ++ "\""
  | some table, some schema => "table \"" ++ schema ++ "\".\"" ++ table ++ "\""

def header (kind : String) (catalog : Group) : String :=
  catalog.typeName ++ " (" ++ kind ++ ", " ++ tableText catalog.table catalog.schema ++ ", width "
    ++ toString catalog.width ++ ")"

/-- The constructor of a draft. -/
def draftLine (d : Draft) : String :=
  let parameters := d.parameters.map fun p =>
    p.name ++ ": " ++ p.type.text ++ (p.default.map fun e => " = " ++ e.source).getD ""
  "  draft: " ++ d.typeName ++ "(" ++ ", ".intercalate parameters ++ ")"

/-- A case with its associated value. -/
def caseLines (c : CaseEntry) : List String :=
  match c.payload with
  | none => ["  case " ++ c.name]
  | some e =>
    let label := match c.label.getD "" with
      | "" => ""
      | label => label ++ ": "
    ("  case " ++ c.name ++ "(" ++ label ++ typeText e.column.type "None" ++ ")")
      :: entryLines e.column "    " e

def bodyLines (d : Derived) : List String :=
  match d.catalog with
  | .record catalog =>
    let required := match catalog.required with
      | [] => "nothing"
      | names => ", ".intercalate names
    entriesLines "  " catalog.entries ++ ["  decode: required " ++ required]
      ++ d.draft.toList.map draftLine
  | .enum catalog => catalog.cases.flatMap caseLines

end Summary

/-- All that is derived from a record: its columns, what a row must have, its draft and the
selection of all columns. -/
def Derived.summary (d : Derived) : String :=
  let kind := match d.catalog with
    | .record _ => "struct"
    | .enum _ => "enum"
  "\n".intercalate (Summary.header kind d.catalog :: Summary.bodyLines d
    ++ ["  select: " ++ (d.columns none).sql])

end RowSchema
