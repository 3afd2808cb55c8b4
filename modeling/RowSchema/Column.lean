import RowSchema.Expr

/-! Columns of tables. -/

namespace RowSchema

/-- How a column's value is produced by the database. -/
inductive Generated where
  | none
  | stored
  | virtual
deriving DecidableEq, Repr

namespace Generated

def text : Generated → String
  | none => "none"
  | stored => "stored"
  | virtual => "virtual"

/-- The way with that text. -/
def ofText? (s : String) : Option Generated := [none, stored, virtual].find? (·.text == s)

theorem ofText?_text (g : Generated) : ofText? g.text = some g := by
  cases g <;> rfl

def isGenerated (g : Generated) : Bool := g != none

end Generated

/-- A column, or a column group seen as one entry of its table. -/
structure Column where
  name : String
  field : String
  type : Option TypeRef := .none
  /-- how many columns of a row the entry takes up; a catalog made by hand may state any number -/
  width : Int := 1
  default : Option Expr := .none
  isPrimaryKey : Bool := false
  generated : Generated := .none
  /-- the type that values are stored as, if it is not the declared one -/
  representation : Option TypeRef := .none

namespace Column

def isWritable (c : Column) : Bool := !c.generated.isGenerated

def isNullable (c : Column) : Bool := c.type.any (·.isOptional)

/-- A column is required when it has no default and is not optional. -/
def isRequired (c : Column) : Bool := c.default.isNone && !c.isNullable

/-- The column with its type made optional. -/
def nullable (c : Column) : Column := { c with type := c.type.map TypeRef.optional }

/-- Whether that is the column's name or its field's. -/
def answersTo (name : String) (c : Column) : Bool := c.name == name || c.field == name

end Column

end RowSchema
