import RowSchema.Alias
import RowSchema.Catalog

/-! Projections: flat, ordered lists of aliased SQL expressions. -/

namespace RowSchema

structure SelectedColumn where
  name : String
  expression : SqlExpr

def SelectedColumn.sql (c : SelectedColumn) : String :=
  c.expression.sql ++ " AS " ++ Text.identifier c.name

structure Projection where
  columns : List SelectedColumn

namespace Projection

def aliases (p : Projection) : List String := p.columns.map (·.name)

def expressions (p : Projection) : List SqlExpr := p.columns.map (·.expression)

def sql (p : Projection) : String := ", ".intercalate (p.columns.map SelectedColumn.sql)

/-- The expressions under these aliases, in order. -/
def ofExpressions (aliases : List String) (expressions : List SqlExpr) : Projection :=
  ⟨aliases.zipWith SelectedColumn.mk expressions⟩

/-- A projection as a value. -/
def toValue (p : Projection) : Value :=
  .object "Projection" [("columns", some (.tuple (p.columns.map fun c =>
    .object "SelectedColumn"
      [("alias", some (.text c.name)), ("expression", some (.sql c.expression))])))]

end Projection

/-- The aliases of a catalog's columns. -/
def aliasesOf (leaves : List Column) : List String := Alias.disambiguate (leaves.map (·.name))

/-- All columns of a table, qualified by the given name or else by that of the table. -/
def Projection.ofTable (leaves : List Column) (table : Option String) (given : Option String) :
    Projection :=
  let qualifier := (given.filter (!·.isEmpty)).or table
  .ofExpressions (aliasesOf leaves) (leaves.map fun c => .column qualifier c.name)

end RowSchema
