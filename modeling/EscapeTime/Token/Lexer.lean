/-
Reading tokens off an equation.

Blanks (space, tab, line feed, carriage return) separate tokens and are skipped. The token at a character other than a
blank is as long as possible: a symbol, a numeral (digits with at most one point, or a point with digits behind it), or
an identifier (a letter or underscore with letters, digits and underscores behind it). A numeral that rounds to infinity
and a character that begins no token are rejected.

A lexer keeps what it has not read yet, so a later run goes on where the last one stopped: at the end after a full run,
behind a numeral that was too large, and on a character that begins no token.
-/
import EscapeTime.Rejection
import EscapeTime.Decimal.Basic

namespace EscapeTime

def isBlank (c : Char) : Bool :=
  c == ' ' || c == '\t' || c == '\n' || c == '\r'

def isIdentStart (c : Char) : Bool :=
  c.isAlpha || c == '_'

def isIdentPart (c : Char) : Bool :=
  c.isAlphanum || c == '_'

/-- a numeral starts at `c` when `rest` follows it -/
def startsNumeral (c : Char) (rest : List Char) : Bool :=
  c.isDigit || (c == '.' && rest.head?.any Char.isDigit)

/-- what of `rest` belongs to the numeral that starts at `c` -/
def numeralTail (c : Char) (rest : List Char) : List Char :=
  let digits := rest.takeWhile Char.isDigit
  if c == '.' then digits
  else match rest.dropWhile Char.isDigit with
    | '.' :: more => digits ++ '.' :: more.takeWhile Char.isDigit
    | _ => digits

/-- what stands at a character, with the part of the token behind that character -/
inductive Lexeme where
  | token (kind : Kind) (tail : List Char)
  | tooLarge (tail : List Char)
  | stray

/-- what stands at `c` when `rest` follows it -/
def lexeme (c : Char) (rest : List Char) : Lexeme :=
  match Kind.ofSymbol? c with
  | some kind => .token kind []
  | none =>
    if startsNumeral c rest then
      let tail := numeralTail c rest
      let value := (Decimal.ofNumeral (c :: tail)).toBinary64
      if value.isFinite then .token (.number value) tail else .tooLarge tail
    else if isIdentStart c then
      let tail := rest.takeWhile isIdentPart
      .token (.ident (String.ofList (c :: tail))) tail
    else .stray

/-- where reading stands: an offset and the characters from there on -/
structure Lexer where
  position : Nat
  rest : List Char
  deriving DecidableEq

namespace Lexer

/-- a lexer at the start of an equation -/
def ofSource (source : String) : Lexer :=
  ⟨0, source.toList⟩

/-- the tokens from an offset on, closed by an end marker, and the lexer afterwards; a rejection drops all tokens -/
def scan (position : Nat) (source : List Char) : Except Rejection (List Token) × Lexer :=
  match source with
  | [] => (.ok [⟨.endOfInput, "", position⟩], ⟨position, []⟩)
  | c :: rest =>
    if isBlank c then scan (position + 1) rest
    else match lexeme c rest with
      | .token kind tail =>
        let next := scan (position + 1 + tail.length) (rest.drop tail.length)
        (next.1.map (⟨kind, String.ofList (c :: tail), position⟩ :: ·), next.2)
      | .tooLarge tail =>
        (.error ⟨.numberOutOfRange (String.ofList (c :: tail)), position⟩,
          ⟨position + 1 + tail.length, rest.drop tail.length⟩)
      | .stray => (.error ⟨.unexpectedCharacter c, position⟩, ⟨position, c :: rest⟩)
termination_by source.length
decreasing_by all_goals (simp only [List.length_cons, List.length_drop]; omega)

/-- one run: the tokens left, and the lexer for a further run -/
def tokenize (l : Lexer) : Except Rejection (List Token) × Lexer :=
  scan l.position l.rest

end Lexer

/-- the tokens of an equation -/
def tokenize (source : String) : Except Rejection (List Token) :=
  (Lexer.ofSource source).tokenize.1

end EscapeTime
