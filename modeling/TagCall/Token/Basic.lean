import TagCall.Text.Quoted

/-!
Tokens of the notation `tag(key="value")` with a body in braces: quoted text, comments, names and
five symbols.
-/

namespace TagCall

inductive Kind where
  | text
  | comment
  | name
  | openBrace
  | closeBrace
  | openParen
  | closeParen
  | equals
  deriving DecidableEq, Repr

namespace Kind

/-- The kind's name in messages. -/
def label : Kind → String
  | text => "STRING_LITERAL"
  | comment => "COMMENT"
  | name => "IDENTIFIER"
  | openBrace => "LEFT_BRACKET"
  | closeBrace => "RIGHT_BRACKET"
  | openParen => "LEFT_PAREN"
  | closeParen => "RIGHT_PAREN"
  | equals => "EQUAL"

def all : List Kind :=
  [text, comment, name, openBrace, closeBrace, openParen, closeParen, equals]

def ofLabel? (s : String) : Option Kind :=
  all.find? (·.label = s)

/-- The kind of a symbol, by its character. -/
def ofSymbol? : Char → Option Kind
  | '{' => some openBrace
  | '}' => some closeBrace
  | '(' => some openParen
  | ')' => some closeParen
  | '=' => some equals
  | _ => none

/-- Symbols carry no value of their own. -/
def isSymbol : Kind → Bool
  | text | comment | name => false
  | _ => true

/-- The kinds that can start a node. -/
def nodeStart : List Kind := [text, comment, name]

end Kind

structure Token where
  kind : Kind
  value : String := ""
  deriving DecidableEq, Repr

namespace Token

/-- How a message names a token. The value of a symbol is not shown. -/
def display (t : Token) : String :=
  match t.kind with
  | .text => "Text(" ++ t.value ++ ")"
  | .comment => "Comment(" ++ t.value ++ ")"
  | .name => "Id(" ++ t.value ++ ")"
  | .openBrace => "LeftBracket '\x7b'"
  | .closeBrace => "RightBracket '\x7d'"
  | .openParen => "LeftParen '('"
  | .closeParen => "RightParen ')'"
  | .equals => "Equal '='"

/-- A token with its kind and, if it has one, its quoted value. -/
def describe (t : Token) : String :=
  if t.value = "" then "Token(" ++ t.kind.label ++ ")"
  else "Token(" ++ t.kind.label ++ ", " ++ Text.quoted t.value ++ ")"

end Token

end TagCall
