import RowSchema.Catalog
import RowSchema.Dictionary
import RowSchema.Options
import RowSchema.Value.Kind
import RowSchema.Value.Same

/-! Rows as values. Every entry reads all of its cells before anything is checked, so that a failing
group leaves the next entry at its own place in the row. -/

namespace RowSchema

/-- Why a row has no value. -/
inductive DecodeError where
  /-- a value that has no cells -/
  | noLength (kind : String)
  /-- nothing in the row is under the number of the next cell -/
  | noCell (number : Nat)
  | rowEnded (length : Nat)
  | wrongWidth (typeName : String) (expected : Int) (got : Nat)
  | defaultNotEvaluable (column : String) (part : Expr)
  | missing (columns : List String) (typeName : Option String)
  /-- a conversion refused its cell -/
  | conversion (message : String)

def DecodeError.message : DecodeError → String
  | noLength kind => "object of type '" ++ kind ++ "' has no len()"
  | noCell number => toString number
  | rowEnded length =>
    "Row has " ++ toString length ++ " columns; cannot read column " ++ toString (length + 1)
  | wrongWidth typeName expected got =>
    "Expected " ++ toString expected ++ " columns for '" ++ typeName ++ "', got " ++ toString got
  | defaultNotEvaluable column part =>
    "Cannot substitute default for column '" ++ column ++ "': " ++ part.notEvaluable
  | missing columns typeName =>
    let target := match typeName.getD "" with
      | "" => ""
      | name => " for '" ++ name ++ "'"
    "Missing required column" ++ target ++ ": " ++ Text.enumeration columns
  | conversion message => message

/-- The cells of a row: the items of a sequence, the characters of a text, or what a dictionary has
under the numbers of the cells, which may be nothing. -/
def Value.cells : Value → Except DecodeError (List (Option Value))
  | .list items | .tuple items => .ok (items.map some)
  | .text s => .ok (s.toList.map fun c => some (.text (String.singleton c)))
  | .dict entries => .ok ((List.range entries.length).map fun i =>
    (entries.find? fun (key, _) => key == .int i).map (·.2))
  | v => .error (.noLength v.kind)

/-- Conversions of cells, by the names of types. -/
abbrev Converters := String → Option (Value → Except DecodeError Value)

/-- A place in a row: how many cells have been read, and the cells that have not. -/
structure Cursor where
  position : Nat
  rest : List (Option Value)

namespace Cursor

def ofRow (row : List (Option Value)) : Cursor := ⟨0, row⟩

def remaining (c : Cursor) : Nat := c.rest.length

/-- How many cells the row has. -/
def length (c : Cursor) : Nat := c.position + c.remaining

end Cursor

/-- What reading gives, and where it leaves the row; also a failure leaves it somewhere. -/
abbrev Reading (α : Type) := Except DecodeError α × Cursor

/-- The cell as the first type with a conversion has it. Nulls are never converted. -/
def convert (converters : Converters) (types : List (Option TypeRef)) (cell : Value) :
    Except DecodeError Value :=
  if cell.isNull then .ok cell
  else
    match types.findSome? fun t => t.bind fun t => converters t.name with
    | some conversion => conversion cell
    | none => .ok cell

/-- The next cell. One that is not there is not passed over. -/
def readCell (converters : Converters) (types : List (Option TypeRef)) (c : Cursor) :
    Reading Value :=
  match c.rest with
  | [] => (.error (.rowEnded c.length), c)
  | none :: _ => (.error (.noCell c.position), c)
  | some cell :: rest => (convert converters types cell, ⟨c.position + 1, rest⟩)

/-- The cell of a column, converted by its representation or else by its type. -/
def Column.read (converters : Converters) (column : Column) (c : Cursor) : Reading Value :=
  readCell converters [column.representation, column.type] c

/-- What an entry contributes to its record. -/
inductive Contribution where
  | field (name : String) (value : Value)
  | missing (columns : List String)

namespace Contribution

def columns : Contribution → List String
  | field _ _ => []
  | missing columns => columns

/-- The fields with this contribution. -/
def addTo (fields : Dictionary String Value) : Contribution → Dictionary String Value
  | missing _ => fields
  | field name value => fields.put name value

end Contribution

/-- What a value read for an entry contributes. If it is null the default stands in, and without a
default a required entry is missing, which its `absent` columns report. -/
def Column.settle (column : Column) (value : Value) (absent : List String) :
    Except DecodeError Contribution :=
  if value.isNull then
    match column.default with
    | some e =>
      match e.evaluate with
      | .ok value => .ok (.field column.field value)
      | .error part => .error (.defaultNotEvaluable column.name part)
    | none =>
      if column.isRequired then .ok (.missing absent) else .ok (.field column.field .null)
  else .ok (.field column.field value)

/-- The record that the contributions make up, unless one of them is missing. -/
def assemble (maker : Option Maker) (policy : DecodePolicy) (typeName : String)
    (contributions : List Contribution) : Except DecodeError Value :=
  match contributions.flatMap (·.columns) with
  | [] =>
    let fields := contributions.foldl Contribution.addTo []
    .ok (match maker with
      | some maker => maker.record fields
      | none => .ofFields fields)
  | missing => .error (.missing (policy.reported missing) (some typeName))

/-- The value of an enum whose first matching case is given. -/
def EnumCatalog.finish (catalog : EnumCatalog) (policy : DecodePolicy)
    (matched : Option (String × Value)) : Except DecodeError Value :=
  match matched with
  | some (name, payload) =>
    .ok (match catalog.maker with
      | some maker => maker.enum name payload
      | none => .variant name payload)
  | none =>
    .error (.missing (policy.reported (catalog.leaves.map (·.name))) (some catalog.typeName))

mutual

def Group.decode (converters : Converters) (policy : DecodePolicy) :
    Group → Cursor → Reading Value
  | .record catalog => catalog.decode converters policy
  | .enum catalog => catalog.decode converters policy

def Catalog.decode (converters : Converters) (policy : DecodePolicy) :
    Catalog → Cursor → Reading Value
  | { typeName, entries, maker, .. }, c =>
    match Entry.decodeAll converters policy entries c with
    | (.error e, c) => (.error e, c)
    | (.ok contributions, c) => (assemble maker policy typeName contributions, c)

/-- The contributions of entries in order. -/
def Entry.decodeAll (converters : Converters) (policy : DecodePolicy) :
    List Entry → Cursor → Reading (List Contribution)
  | [], c => (.ok [], c)
  | e :: rest, c =>
    match e.decode converters policy c with
    | (.error error, c) => (.error error, c)
    | (.ok contribution, c) =>
      match Entry.decodeAll converters policy rest c with
      | (.error error, c) => (.error error, c)
      | (.ok contributions, c) => (.ok (contribution :: contributions), c)

/-- The contribution of an entry. A group with missing columns is null. -/
def Entry.decode (converters : Converters) (policy : DecodePolicy) :
    Entry → Cursor → Reading Contribution
  | ⟨column, none⟩, c =>
    match column.read converters c with
    | (.error error, c) => (.error error, c)
    | (.ok value, c) => (column.settle value [column.name], c)
  | ⟨column, some members⟩, c =>
    match members.decode converters policy c with
    | (.error (.missing columns _), c) =>
      (column.settle .null (if columns.isEmpty then [column.name] else columns), c)
    | (.error error, c) => (.error error, c)
    | (.ok value, c) => (column.settle value [column.name], c)

/-- The first case with a value. All cases are read, whichever it is. -/
def EnumCatalog.decode (converters : Converters) (policy : DecodePolicy) :
    EnumCatalog → Cursor → Reading Value
  | ⟨typeName, cases, table, schema, maker⟩, c =>
    match CaseEntry.decodeAll converters policy cases c with
    | (.error error, c) => (.error error, c)
    | (.ok matched, c) =>
      (EnumCatalog.finish ⟨typeName, cases, table, schema, maker⟩ policy matched.head?, c)

/-- The cases that have values, with these. -/
def CaseEntry.decodeAll (converters : Converters) (policy : DecodePolicy) :
    List CaseEntry → Cursor → Reading (List (String × Value))
  | [], c => (.ok [], c)
  | entry :: rest, c =>
    match entry.decode converters policy c with
    | (.error error, c) => (.error error, c)
    | (.ok value, c) =>
      match CaseEntry.decodeAll converters policy rest c with
      | (.error error, c) => (.error error, c)
      | (.ok matched, c) => (.ok ((value.map (entry.name, ·)).toList ++ matched), c)

/-- The associated value of a case, if it has its value. A case without one always has. -/
def CaseEntry.decode (converters : Converters) (policy : DecodePolicy) :
    CaseEntry → Cursor → Reading (Option Value)
  | { payload := none, .. }, c => (.ok (some .null), c)
  | { payload := some ⟨column, none⟩, .. }, c =>
    match column.read converters c with
    | (.error error, c) => (.error error, c)
    | (.ok value, c) => (.ok (if value.isNull then none else some value), c)
  | { payload := some ⟨_, some members⟩, .. }, c =>
    match members.decode converters policy c with
    | (.error (.missing _ _), c) => (.ok none, c)
    | (.error error, c) => (.error error, c)
    | (.ok value, c) => (.ok (if value.isNull then none else some value), c)

end

/-- A reading that gives null where columns are missing. -/
def Reading.optional : Reading Value → Reading Value
  | (.error (.missing _ _), c) => (.ok .null, c)
  | reading => reading

/-- The value of a whole row, which has exactly the catalog's width. -/
def Group.decodeRow (catalog : Group) (converters : Converters) (policy : DecodePolicy)
    (row : List (Option Value)) : Except DecodeError Value :=
  if (row.length : Int) == catalog.width then (catalog.decode converters policy (.ofRow row)).1
  else .error (.wrongWidth catalog.typeName catalog.width row.length)

/-- The value of anything that may be a row. -/
def Group.decodeValue (catalog : Group) (converters : Converters) (policy : DecodePolicy)
    (row : Value) : Except DecodeError Value :=
  row.cells.bind (catalog.decodeRow converters policy)

end RowSchema
