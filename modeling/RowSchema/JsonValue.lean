import RowSchema.Text.Quoted

/-! JSON documents and their text, which is ASCII and indented by two blanks a level. -/

namespace RowSchema

inductive JsonValue where
  | null
  | bool (b : Bool)
  | number (n : Int)
  | string (s : String)
  | array (items : List JsonValue)
  | object (members : List (String × JsonValue))

namespace JsonValue

/-- The string, or null if there is none. -/
def ofString? : Option String → JsonValue
  | some s => string s
  | none => null

/-- One UTF-16 unit, written by its number. -/
def unit (n : Nat) : List Char := '\\' :: 'u' :: Text.hexadecimal 4 n

/-- A character of a string. Outside of printable ASCII it is written by its UTF-16 units. -/
def escaped (c : Char) : List Char :=
  match c with
  | '"' => ['\\', '"']
  | '\\' => ['\\', '\\']
  | '\n' => ['\\', 'n']
  | '\r' => ['\\', 'r']
  | '\t' => ['\\', 't']
  | '\x08' => ['\\', 'b']
  | '\x0c' => ['\\', 'f']
  | c =>
    if ' ' ≤ c ∧ c ≤ '~' then [c]
    else if c.toNat < 0x10000 then unit c.toNat
    else
      let n := c.toNat - 0x10000
      unit (0xD800 + n / 0x400) ++ unit (0xDC00 + n % 0x400)

def quoted (s : String) : String :=
  String.ofList ('"' :: s.toList.flatMap escaped ++ ['"'])

/-- The start of a line that is indented by `depth` levels. -/
def lineBreak (depth : Nat) : String := String.ofList ('\n' :: List.replicate (2 * depth) ' ')

/-- Parts on lines of their own, one level deeper than the brackets around them. -/
def enclosed (opening closing : String) (depth : Nat) (parts : List String) : String :=
  if parts.isEmpty then opening ++ closing
  else
    opening ++ lineBreak (depth + 1) ++ ("," ++ lineBreak (depth + 1)).intercalate parts
      ++ lineBreak depth ++ closing

mutual

/-- The text of a document that stands at some depth. -/
def renderAt (depth : Nat) : JsonValue → String
  | null => "null"
  | bool b => if b then "true" else "false"
  | number n => toString n
  | string s => quoted s
  | array items => enclosed "[" "]" depth (renderItems (depth + 1) items)
  | object members => enclosed "\x7b" "\x7d" depth (renderMembers (depth + 1) members)

def renderItems (depth : Nat) : List JsonValue → List String
  | [] => []
  | item :: rest => item.renderAt depth :: renderItems depth rest

def renderMembers (depth : Nat) : List (String × JsonValue) → List String
  | [] => []
  | (key, value) :: rest => (quoted key ++ ": " ++ value.renderAt depth) :: renderMembers depth rest

end

def render (j : JsonValue) : String := j.renderAt 0

end JsonValue

end RowSchema
