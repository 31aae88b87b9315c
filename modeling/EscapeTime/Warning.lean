/-
Warnings about a text while it is being typed.

`validate` looks at characters only, in seven checks, and warns of the first that fails: nothing but white space, a
character that no equation holds, parentheses that do not match, an odd number of bars, three operators in a row, an
operator next to a parenthesis where an operand belongs, and a text whose carets all lack an exponent. A text without a
warning may still be no equation. The last two checks look past blanks.
-/
import EscapeTime.Text.Blank
import EscapeTime.Token.Lexer

namespace EscapeTime

/-- the checks, in the order in which they are made -/
inductive WarningKind where
  | empty
  | disallowedCharacters
  | unbalancedParentheses
  | unmatchedPipe
  | invalidOperatorSequence
  | danglingOperator
  | invalidPowerSyntax
  deriving DecidableEq

namespace WarningKind

/-- the name under which a kind is shown -/
def name : WarningKind → String
  | empty => "Empty"
  | disallowedCharacters => "DisallowedCharacters"
  | unbalancedParentheses => "UnbalancedParentheses"
  | unmatchedPipe => "UnmatchedPipe"
  | invalidOperatorSequence => "InvalidOperatorSequence"
  | danglingOperator => "DanglingOperator"
  | invalidPowerSyntax => "InvalidPowerSyntax"

def message : WarningKind → String
  | empty => "equation is empty"
  | disallowedCharacters => "contains disallowed characters"
  | unbalancedParentheses => "unbalanced parentheses"
  | unmatchedPipe => "unmatched | delimiter"
  | invalidOperatorSequence => "invalid operator sequence"
  | danglingOperator => "dangling operator"
  | invalidPowerSyntax => "invalid power syntax"

end WarningKind

/-- the check that failed, and the offset to point at -/
structure Warning where
  kind : WarningKind
  position : Option Nat
  deriving DecidableEq

/-- one line: the offset, if there is one, and the wording -/
def Warning.display (w : Warning) : String :=
  match w.position with
  | some i => "[offset " ++ toString i ++ "] " ++ w.kind.message
  | none => w.kind.message

namespace Validation

/-- a character and its offset -/
abbrev Located :=
  Char × Nat

def isOperator (c : Char) : Bool :=
  c == '+' || c == '-' || c == '*' || c == '/' || c == '^'

/-- operators that cannot open an operand -/
def needsLeftOperand (c : Char) : Bool :=
  c == '*' || c == '/' || c == '^'

def isAllowed (c : Char) : Bool :=
  isIdentPart c || isBlank c || isOperator c || c == '(' || c == ')' || c == '.' || c == ',' || c == '|'

/-- an exponent may begin with the character -/
def startsExponent (c : Char) : Bool :=
  isIdentPart c || c == '.' || c == '(' || c == '|' || c == '+' || c == '-'

/-- the first character that no equation holds -/
def disallowed? (cs : List Located) : Option Nat :=
  (cs.find? fun x => !isAllowed x.1).map (·.2)

/-- the first closing parenthesis without an opening one, else the last opening one if some stay open;
`depth` of them are open so far, and `lastOpen` is where the last one was seen -/
def unbalanced? (depth lastOpen : Nat) : List Located → Option Nat
  | [] => if depth = 0 then none else some lastOpen
  | (c, i) :: rest =>
    if c == '(' then unbalanced? (depth + 1) i rest
    else if c == ')' then if depth = 0 then some i else unbalanced? (depth - 1) lastOpen rest
    else unbalanced? depth lastOpen rest

/-- the last bar, if bars are odd in number -/
def unmatchedPipe? (cs : List Located) : Option Nat :=
  let bars := cs.filter (·.1 == '|')
  if bars.length % 2 = 0 then none else bars.getLast?.map (·.2)

/-- the first of three operators in a row -/
def operatorRun? : List Located → Option Nat
  | (a, i) :: (b, j) :: (c, k) :: rest =>
    if isOperator a && isOperator b && isOperator c then some i else operatorRun? ((b, j) :: (c, k) :: rest)
  | _ => none

/-- an operator in front of a closing parenthesis, or one without left operand behind an opening one -/
def dangling? : List Located → Option Nat
  | (a, i) :: (b, j) :: rest =>
    if isOperator a && b == ')' then some i
    else if a == '(' && needsLeftOperand b then some j
    else dangling? ((b, j) :: rest)
  | _ => none

/-- some caret has an exponent -/
def hasExponent : List Located → Bool
  | (a, _) :: (b, j) :: rest => (a == '^' && startsExponent b) || hasExponent ((b, j) :: rest)
  | _ => false

/-- the first caret, if no caret has an exponent -/
def badPower? (cs : List Located) : Option Nat :=
  if hasExponent cs then none else (cs.find? (·.1 == '^')).map (·.2)

/-- a warning at an offset, if one was found -/
def warnAt (kind : WarningKind) (found : Option Nat) : Option Warning :=
  found.map fun i => ⟨kind, some i⟩

/-- the first check that fails on the characters of a text -/
def first? (text : List Char) : Option Warning :=
  let cs := text.zipIdx
  let dense := cs.filter fun x => !isBlank x.1
  if text.all Text.isWhiteSpace then some ⟨.empty, none⟩
  else (warnAt .disallowedCharacters (disallowed? cs)).orElse fun _ =>
    (warnAt .unbalancedParentheses (unbalanced? 0 0 cs)).orElse fun _ =>
    (warnAt .unmatchedPipe (unmatchedPipe? cs)).orElse fun _ =>
    (warnAt .invalidOperatorSequence (operatorRun? cs)).orElse fun _ =>
    (warnAt .danglingOperator (dangling? dense)).orElse fun _ =>
    warnAt .invalidPowerSyntax (badPower? dense)

end Validation

/-- the warning about a text, if there is one -/
def validate (source : String) : Option Warning :=
  Validation.first? source.toList

end EscapeTime
