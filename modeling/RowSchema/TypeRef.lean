/-! References to declared types. -/

namespace RowSchema

/-- A reference such as `Int`, `String?`, `[Tag]` or `Int...`. The name of an array type is the
text of its element type. -/
structure TypeRef where
  name : String
  isOptional : Bool := false
  isArray : Bool := false
  isVariadic : Bool := false
deriving DecidableEq, Repr, Inhabited

namespace TypeRef

def optional (t : TypeRef) : TypeRef := { t with isOptional := true }

def nonOptional (t : TypeRef) : TypeRef := { t with isOptional := false }

def text (t : TypeRef) : String :=
  (if t.isArray then "[" ++ t.name ++ "]" else t.name)
    ++ (if t.isVariadic then "..." else "") ++ (if t.isOptional then "?" else "")

/-- The array type with elements of type `t`. -/
def arrayOf (t : TypeRef) : TypeRef := { name := t.text, isArray := true }

def integer : TypeRef := { name := "Int" }
def double : TypeRef := { name := "Double" }
def string : TypeRef := { name := "String" }
def boolean : TypeRef := { name := "Bool" }

end TypeRef

end RowSchema
