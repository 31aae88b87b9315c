/-
Tokens of an equation.

A token is a kind, the text it was read from and the offset of that text, counted in characters. `display` writes a
kind the way it is written in an equation, `describe` the way a message names it.
-/
import EscapeTime.Binary64.Text

namespace EscapeTime

/-- what a token is -/
inductive Kind where
  | number (value : Binary64)
  | ident (name : String)
  | plus
  | minus
  | star
  | slash
  | caret
  | leftParen
  | rightParen
  | pipe
  | comma
  | endOfInput
  deriving DecidableEq

namespace Kind

/-- the kind as it is written in an equation -/
def display : Kind → String
  | number value => value.display
  | ident name => name
  | plus => "+"
  | minus => "-"
  | star => "*"
  | slash => "/"
  | caret => "^"
  | leftParen => "("
  | rightParen => ")"
  | pipe => "|"
  | comma => ","
  | endOfInput => "<eof>"

/-- the kind as a message names it -/
def describe : Kind → String
  | number value => "number " ++ value.display
  | ident name => "identifier '" ++ name ++ "'"
  | endOfInput => "end of input"
  | kind => "'" ++ kind.display ++ "'"

/-- the one-character tokens -/
def ofSymbol? : Char → Option Kind
  | '+' => some plus
  | '-' => some minus
  | '*' => some star
  | '/' => some slash
  | '^' => some caret
  | '(' => some leftParen
  | ')' => some rightParen
  | '|' => some pipe
  | ',' => some comma
  | _ => none

/-- plus or minus -/
def isSign : Kind → Bool
  | plus | minus => true
  | _ => false

end Kind

/-- a kind, the text it was read from, and the offset of that text -/
structure Token where
  kind : Kind
  text : String
  position : Nat
  deriving DecidableEq

end EscapeTime
