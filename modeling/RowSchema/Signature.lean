import RowSchema.Text.Digit
import RowSchema.Text.Identifier
import RowSchema.Text.Quoted
import RowSchema.Value

/-! Signatures of constructors: their parameters with defaults and types. -/

namespace RowSchema

structure SignatureParameter where
  name : String
  default : Option Value
  type : Option String

/-- Why parameters make no signature. -/
inductive SignatureError where
  | emptyName
  /-- a name such as `.0` belongs to a parameter that is never given by name -/
  | implicitName
  | invalidName (name : String)
  | duplicateName (name : String)
deriving DecidableEq, Repr

def SignatureError.message : SignatureError → String
  | emptyName => "string index out of range"
  | implicitName =>
    "implicit arguments must be passed as positional or keyword arguments, not keyword-only"
  | invalidName name => Text.literal name ++ " is not a valid parameter name"
  | duplicateName name => "duplicate parameter name: " ++ Text.literal name

/-- Words that no parameter is called by. -/
def reservedWords : List String :=
  ["False", "None", "True", "and", "as", "assert", "async", "await", "break", "class", "continue",
    "def", "del", "elif", "else", "except", "finally", "for", "from", "global", "if", "import",
    "in", "is", "lambda", "nonlocal", "not", "or", "pass", "raise", "return", "try", "while",
    "with", "yield"]

def isParameterName (name : String) : Bool :=
  !reservedWords.contains name && Text.isIdentifier name.toList

/-- What is wrong with the name of a parameter. -/
def nameFault? (name : String) : Option SignatureError :=
  match name.toList with
  | [] => some .emptyName
  | '.' :: c :: rest =>
    some (if (c :: rest).all Text.isDigitSign then .implicitName else .invalidName name)
  | _ => if isParameterName name then none else some (.invalidName name)

/-- The first name that occurs again further on in the list. -/
def firstRepeated? : List String → List String → Option String
  | _, [] => none
  | seen, name :: rest =>
    if seen.contains name then some name else firstRepeated? (name :: seen) rest

/-- The parameters, if every name is a valid one and none occurs twice. -/
def signature (parameters : List SignatureParameter) :
    Except SignatureError (List SignatureParameter) :=
  let names := parameters.map (·.name)
  match names.findSome? nameFault?, firstRepeated? [] names with
  | some fault, _ => .error fault
  | none, some name => .error (.duplicateName name)
  | none, none => .ok parameters

end RowSchema
