/-! The words that an editor offers and explains. -/

namespace RowSchema.Editor

/-- A word with its explanation. -/
structure Entry where
  word : String
  detail : String

/-- The explanation of a word, if it is one of the entries. -/
def explained? (entries : List Entry) (word : String) : Option String :=
  (entries.find? (·.word == word)).map (·.detail)

def builtinTypes : List Entry := [
  ⟨"Int", "Signed integer column"⟩,
  ⟨"Double", "Floating point column"⟩,
  ⟨"String", "Text column"⟩,
  ⟨"Bool", "Boolean column (stored as 0 or 1)"⟩,
  ⟨"Data", "Binary column"⟩,
  ⟨"Date", "Date/time column; pair with `@Column(as:)` to pick a representation"⟩,
  ⟨"UUID", "UUID column"⟩,
  ⟨"Decimal", "Exact decimal column"⟩]

def attributes : List Entry := [
  ⟨"Table", "Derive a table: column catalog, decode plan, draft and selection. " ++
    "Arguments: optional table name, `schema: \"name\"`"⟩,
  ⟨"Selection", "Derive a column set without a table, e.g. for partial selects"⟩,
  ⟨"Column", "Column options: `\"name\"`, `as: Type.self`, `primaryKey: Bool`, " ++
    "`generated: .stored | .virtual`"⟩,
  ⟨"Columns", "Splice the fields of another record in as a column group"⟩,
  ⟨"Ephemeral", "Field is not persisted"⟩]

def keywords : List Entry := [
  ⟨"struct", "Record type: one column per stored field"⟩,
  ⟨"enum", "Sum type: every case owns nullable columns; decoding picks the first present case"⟩,
  ⟨"case", "Enum case with at most one associated value"⟩,
  ⟨"let", "Immutable field; required for generated columns"⟩,
  ⟨"var", "Mutable field"⟩,
  ⟨"static", "Static property; never a column"⟩]

def columnArguments : List Entry := [
  ⟨"as", "Alternate representation type, e.g. `as: ISO8601.self`"⟩,
  ⟨"primaryKey", "Mark (or unmark) the primary key"⟩,
  ⟨"generated", "Generated column: `.stored` or `.virtual`"⟩]

def generatedMembers : List Entry := [
  ⟨"stored", "Computed on write and stored"⟩,
  ⟨"virtual", "Computed on read"⟩]

end RowSchema.Editor
