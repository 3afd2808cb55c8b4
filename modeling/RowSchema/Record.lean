import RowSchema.Expr

/-! Declarations of records: what a declaration text says, before anything is derived from it. -/

namespace RowSchema

/-- An attribute applied to a declaration, such as `@Column("name")`. -/
structure Attribute where
  name : String
  arguments : List Argument := []
  span : Option Span := none
deriving Inhabited

namespace Attribute

/-- An attribute with these arguments; without any it is written bare. -/
def render (name : String) (arguments : List Argument) : String :=
  if arguments.isEmpty then "@" ++ name
  else "@" ++ name ++ "(" ++ ", ".intercalate (Argument.sources arguments) ++ ")"

def source (a : Attribute) : String := render a.name a.arguments

/-- The attribute without its argument number `i`. -/
def sourceWithout (a : Attribute) (i : Nat) : String := render a.name (a.arguments.eraseIdx i)

/-- The first argument that has no label. -/
def positional? (a : Attribute) : Option Argument := a.arguments.find? (·.label.isNone)

/-- The first attribute of that name. -/
def named? (name : String) (attributes : List Attribute) : Option Attribute :=
  attributes.find? (·.name == name)

end Attribute

/-- The identity of a class. -/
structure ClassId where
  number : Nat
  name : String
  /-- the module that the class is in -/
  home : String
deriving DecidableEq, Repr

namespace ClassId

/-- Classes with fields are made by a module of their own. -/
def ofRecord (number : Nat) (name : String) : ClassId := ⟨number, name, "types"⟩

def ofPlain (number : Nat) (name : String) : ClassId := ⟨number, name, "__main__"⟩

/-- The name of a class, after that of its module. -/
def path (id : ClassId) : String := id.home ++ "." ++ id.name

end ClassId

/-- A field of a record. A declaration with several bindings is known by its first one. -/
structure Field where
  name : String
  type : Option TypeRef := none
  attributes : List Attribute := []
  default : Option Expr := none
  isMutable : Bool := true
  isStatic : Bool := false
  isComputed : Bool := false
  bindings : Int := 1
  span : Option Span := none
  /-- where the word `let` or `var` stands -/
  bindingSpan : Option Span := none
  nameSpan : Option Span := none
  /-- the class that the field holds, when it is to be looked up by class and not by name -/
  groupClass : Option ClassId := none

/-- The associated value of an enum case. -/
structure Payload where
  type : TypeRef
  label : Option String := none
  default : Option Expr := none
  span : Option Span := none

structure Case where
  name : String
  payloads : List Payload := []
  attributes : List Attribute := []
  span : Option Span := none

/-- The keyword of a declaration. -/
inductive Kind where
  | struct
  | enum
  | classType
  | other (keyword : String)
deriving DecidableEq, Repr

namespace Kind

def ofText (s : String) : Kind :=
  if s == "struct" then struct
  else if s == "enum" then enum
  else if s == "class" then classType
  else other s

def text : Kind → String
  | struct => "struct"
  | enum => "enum"
  | classType => "class"
  | other keyword => keyword

end Kind

/-- How decoded values are put together: records from their fields, enum values from the name of
a case and its payload. -/
structure Maker where
  record : List (String × Value) → Value
  enum : String → Value → Value

structure Record where
  name : String
  kind : Kind := .struct
  attributes : List Attribute := []
  fields : List Field := []
  cases : List Case := []
  /-- without one, decoded records are dictionaries and decoded enum values plain variants -/
  maker : Option Maker := none
  /-- the class that the record was reflected from -/
  reflected : Option ClassId := none
  span : Option Span := none

/-- The attribute that drives a derivation. Any other one has the rules of a table. -/
inductive Role where
  | table
  | selection
  | other (text : String)
deriving DecidableEq, Repr

namespace Role

def ofText (s : String) : Role :=
  if s == "@Table" then table else if s == "@Selection" then selection else other s

def text : Role → String
  | table => "@Table"
  | selection => "@Selection"
  | other s => s

end Role

namespace Record

def isTable (r : Record) : Bool := (Attribute.named? "Table" r.attributes).isSome

def isSelection (r : Record) : Bool := (Attribute.named? "Selection" r.attributes).isSome

/-- A record that is neither is spoken of as a table. -/
def role (r : Record) : Role := if !r.isTable && r.isSelection then .selection else .table

end Record

/-- What a record is stored under: its class if it was reflected, else its name. -/
inductive Key where
  | reflected (id : ClassId)
  | declared (name : String)
deriving DecidableEq, Repr

def Record.key (r : Record) : Key :=
  match r.reflected with
  | some id => .reflected id
  | none => .declared r.name

end RowSchema
