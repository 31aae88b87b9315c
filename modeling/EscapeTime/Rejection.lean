/-
Why an equation is rejected.

A rejection is a cause and the offset it is found at. `Cause.message` is the only place where the wording stands, and
`Cause.kind` sorts the causes into the three kinds that callers tell apart. A `Report` is a rejection as it is shown:
kind, wording and offset.
-/
import EscapeTime.Token.Basic

namespace EscapeTime

/-- the kinds of rejection that callers tell apart -/
inductive RejectionKind where
  | lexical
  | syntactic
  | unknownIdentifier
  deriving DecidableEq

/-- the name under which a kind is shown -/
def RejectionKind.name : RejectionKind → String
  | lexical => "Lex"
  | syntactic => "Parse"
  | unknownIdentifier => "UnknownIdentifier"

/-- a rejection as it is shown -/
structure Report where
  kind : RejectionKind
  message : String
  position : Nat
  deriving DecidableEq

/-- one line: offset, kind and wording -/
def Report.display (r : Report) : String :=
  "[offset " ++ toString r.position ++ "] " ++ r.kind.name ++ ": " ++ r.message

/-- what is wrong with an equation -/
inductive Cause where
  /-- no token begins with this character -/
  | unexpectedCharacter (c : Char)
  /-- the numeral rounds to infinity -/
  | numberOutOfRange (text : String)
  /-- more tokens than the limit -/
  | tooLong
  /-- more open groups than the limit -/
  | tooDeep
  /-- an operand is missing at the end -/
  | unexpectedEnd
  /-- an operand is missing in front of another token -/
  | expectedExpression (found : Kind)
  /-- a group is not closed where it has to be -/
  | expectedToken (expected found : Kind)
  /-- a complete expression is followed by something else -/
  | trailingToken (found : Kind)
  /-- neither a variable nor a function that is applied -/
  | unknownIdentifier (name : String)
  /-- the tokens end in signs with nothing behind them, not even an end marker -/
  | unendingSigns
  deriving DecidableEq

namespace Cause

def kind : Cause → RejectionKind
  | unexpectedCharacter _ | numberOutOfRange _ => .lexical
  | unknownIdentifier _ => .unknownIdentifier
  | _ => .syntactic

def message : Cause → String
  | unexpectedCharacter c => "unexpected character '" ++ c.toString ++ "'"
  | numberOutOfRange text => "number out of range: " ++ text
  | tooLong => "expression too long"
  | tooDeep => "expression nested too deeply"
  | unexpectedEnd => "unexpected end of input"
  | expectedExpression found => "expected expression, found " ++ found.describe
  | expectedToken expected found => "expected '" ++ expected.display ++ "', found " ++ found.describe
  | trailingToken found => "unexpected token at end: found " ++ found.describe
  | unknownIdentifier name => "unknown identifier '" ++ name ++ "'"
  | unendingSigns => "unending run of signs"

end Cause

/-- a cause and the offset it is found at -/
structure Rejection where
  cause : Cause
  position : Nat
  deriving DecidableEq

namespace Rejection

/-- the rejection as it is shown -/
def report (e : Rejection) : Report :=
  ⟨e.cause.kind, e.cause.message, e.position⟩

/-- one line: offset, kind and wording -/
def display (e : Rejection) : String :=
  e.report.display

end Rejection

end EscapeTime
