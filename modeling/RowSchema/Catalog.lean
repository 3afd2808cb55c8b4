import RowSchema.Column
import RowSchema.Record

/-! Catalogs: the ordered columns of records and enums, with column groups spliced in. -/

namespace RowSchema

mutual

/-- A position of a catalog: a column, or a column group with the catalog of its members. -/
structure Entry where
  column : Column
  members : Option Group := none

/-- The members of a column group. -/
inductive Group where
  | record (catalog : Catalog)
  | enum (catalog : EnumCatalog)

/-- The columns of a record. -/
structure Catalog where
  typeName : String
  entries : List Entry
  table : Option String := none
  schema : Option String := none
  maker : Option Maker := none

/-- A case of an enum, and the entry of its associated value if it has one. The entry keeps its own
nullability; the enum reports it as nullable. -/
structure CaseEntry where
  name : String
  label : Option String
  payload : Option Entry

/-- The columns of an enum: those of every case, in order. A row holds one case; the columns of the
others are null. -/
structure EnumCatalog where
  typeName : String
  cases : List CaseEntry
  table : Option String := none
  schema : Option String := none
  maker : Option Maker := none

end

mutual

/-- The columns of a row, in order. What a nullable group holds is nullable. -/
def Entry.leaves : Entry → List Column
  | ⟨column, none⟩ => [column]
  | ⟨column, some members⟩ =>
    if column.isNullable then members.leaves.map Column.nullable else members.leaves

def Group.leaves : Group → List Column
  | .record catalog => catalog.leaves
  | .enum catalog => catalog.leaves

def Catalog.leaves : Catalog → List Column
  | { entries, .. } => Entry.leavesAll entries

def Entry.leavesAll : List Entry → List Column
  | [] => []
  | e :: rest => e.leaves ++ Entry.leavesAll rest

def EnumCatalog.leaves : EnumCatalog → List Column
  | { cases, .. } => CaseEntry.leavesAll cases

def CaseEntry.leaves : CaseEntry → List Column
  | { payload := none, .. } => []
  | { payload := some e, .. } => e.leaves.map Column.nullable

def CaseEntry.leavesAll : List CaseEntry → List Column
  | [] => []
  | c :: rest => c.leaves ++ CaseEntry.leavesAll rest

end

namespace Entry

def width (e : Entry) : Int := e.column.width

/-- The width of several entries together. -/
def totalWidth : List Entry → Int
  | [] => 0
  | e :: rest => e.width + totalWidth rest

def isGroup (e : Entry) : Bool := e.members.isSome

/-- The entry with its type made optional. A group keeps its members, so that it is still absent
only as a whole. -/
def nullable (e : Entry) : Entry := { e with column := e.column.nullable }

end Entry

namespace Catalog

def width (c : Catalog) : Int := Entry.totalWidth c.entries

def primaryKey? (c : Catalog) : Option Entry := c.entries.find? (·.column.isPrimaryKey)

/-- The entry with that column or field name. -/
def find? (c : Catalog) (name : String) : Option Entry :=
  c.entries.find? (·.column.answersTo name)

def writableColumns (c : Catalog) : List Column := c.leaves.filter (·.isWritable)

/-- The names of the entries that a row must not leave absent. -/
def required (c : Catalog) : List String :=
  (c.entries.filter (·.column.isRequired)).map (·.column.name)

/-- The catalog as a column group of another one: without a table or a primary key. -/
def asGroup (c : Catalog) : Catalog :=
  { c with
    entries := c.entries.map fun e => { e with column := { e.column with isPrimaryKey := false } }
    table := none
    schema := none }

def nullable (c : Catalog) : Catalog := { c with entries := c.entries.map Entry.nullable }

end Catalog

namespace CaseEntry

def width (c : CaseEntry) : Int := (c.payload.map Entry.width).getD 0

/-- The width of several cases together. -/
def totalWidth : List CaseEntry → Int
  | [] => 0
  | c :: rest => c.width + totalWidth rest

end CaseEntry

namespace EnumCatalog

def width (c : EnumCatalog) : Int := CaseEntry.totalWidth c.cases

/-- The entries of all cases, made nullable. -/
def entries (c : EnumCatalog) : List Entry :=
  c.cases.filterMap fun entry => entry.payload.map Entry.nullable

def case? (c : EnumCatalog) (name : String) : Option CaseEntry := c.cases.find? (·.name == name)

def find? (c : EnumCatalog) (name : String) : Option Entry :=
  c.entries.find? (·.column.answersTo name)

def writableColumns (c : EnumCatalog) : List Column := c.leaves.filter (·.isWritable)

def asGroup (c : EnumCatalog) : EnumCatalog := { c with table := none, schema := none }

end EnumCatalog

namespace Group

def typeName : Group → String
  | record c => c.typeName
  | enum c => c.typeName

def width : Group → Int
  | record c => c.width
  | enum c => c.width

def table : Group → Option String
  | record c => c.table
  | enum c => c.table

def schema : Group → Option String
  | record c => c.schema
  | enum c => c.schema

def entries : Group → List Entry
  | record c => c.entries
  | enum c => c.entries

/-- The entry with that column or field name. -/
def find? : Group → String → Option Entry
  | record c => c.find?
  | enum c => c.find?

def writableColumns : Group → List Column
  | record c => c.writableColumns
  | enum c => c.writableColumns

/-- The catalog as a column group of another one. -/
def asGroup : Group → Group
  | record c => .record c.asGroup
  | enum c => .enum c.asGroup

end Group

end RowSchema
