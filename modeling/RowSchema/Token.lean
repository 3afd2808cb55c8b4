import RowSchema.Span
import RowSchema.Value.Text

/-! The tokens of declaration texts. -/

namespace RowSchema

/-- The reserved words. -/
inductive Keyword where
  | structWord
  | enumWord
  | classWord
  | caseWord
  | letWord
  | varWord
  | staticWord
  | trueWord
  | falseWord
  | nilWord
deriving DecidableEq, Repr

namespace Keyword

def text : Keyword → String
  | structWord => "struct"
  | enumWord => "enum"
  | classWord => "class"
  | caseWord => "case"
  | letWord => "let"
  | varWord => "var"
  | staticWord => "static"
  | trueWord => "true"
  | falseWord => "false"
  | nilWord => "nil"

/-- The name of the kind of token that the word makes. -/
def label : Keyword → String
  | structWord => "STRUCT"
  | enumWord => "ENUM"
  | classWord => "CLASS"
  | caseWord => "CASE"
  | letWord => "LET"
  | varWord => "VAR"
  | staticWord => "STATIC"
  | trueWord => "TRUE"
  | falseWord => "FALSE"
  | nilWord => "NIL"

def all : List Keyword :=
  [structWord, enumWord, classWord, caseWord, letWord, varWord, staticWord, trueWord, falseWord,
    nilWord]

def ofText? (s : String) : Option Keyword := all.find? (·.text == s)

theorem ofText?_text (k : Keyword) : ofText? k.text = some k := by cases k <;> rfl

end Keyword

/-- What a token says. -/
inductive Lexeme where
  | atSign
  | openBrace
  | closeBrace
  | openBracket
  | closeBracket
  | openParen
  | closeParen
  | colon
  | comma
  | equals
  | ellipsis
  | dot
  | question
  | semicolon
  | operator (text : String)
  | word (name : String)
  | keyword (k : Keyword)
  | string (s : String)
  | integer (n : Int)
  | float (x : Float)

namespace Lexeme

/-- The name of the kind of token. -/
def label : Lexeme → String
  | atSign => "AT"
  | openBrace => "LBRACE"
  | closeBrace => "RBRACE"
  | openBracket => "LBRACKET"
  | closeBracket => "RBRACKET"
  | openParen => "LPAREN"
  | closeParen => "RPAREN"
  | colon => "COLON"
  | comma => "COMMA"
  | equals => "EQUALS"
  | ellipsis => "ELLIPSIS"
  | dot => "DOT"
  | question => "QUESTION"
  | semicolon => "SEMICOLON"
  | operator _ => "OPERATOR"
  | word _ => "IDENTIFIER"
  | keyword k => k.label
  | string _ => "STRING"
  | integer _ => "INTEGER"
  | float _ => "FLOAT"

/-- The value of a literal, and the text of any other token. -/
def value : Lexeme → Value
  | atSign => .text "@"
  | openBrace => .text "\x7b"
  | closeBrace => .text "\x7d"
  | openBracket => .text "["
  | closeBracket => .text "]"
  | openParen => .text "("
  | closeParen => .text ")"
  | colon => .text ":"
  | comma => .text ","
  | equals => .text "="
  | ellipsis => .text "..."
  | dot => .text "."
  | question => .text "?"
  | semicolon => .text ";"
  | operator text => .text text
  | word name => .text name
  | keyword k => .text k.text
  | string s => .text s
  | integer n => .int n
  | float x => .float x

/-- How a message names the token. -/
def shown (l : Lexeme) : String :=
  match l.value with
  | .text s => s
  | value => value.repr

end Lexeme

structure Token where
  lexeme : Lexeme
  span : Span
  /-- counted from one -/
  line : Nat

end RowSchema
