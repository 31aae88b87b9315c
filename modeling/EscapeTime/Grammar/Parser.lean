/-
Parsing a whole stream of tokens.

A parser holds its tokens, how many of them it has passed, and how many sums it counts as open. One call reads one
expression and expects the stream to end behind it. Calls may follow one another: a later call starts where the last one
stopped, with the count that the last one left.
-/
import EscapeTime.Grammar.Expression
import EscapeTime.Token.Lexer

namespace EscapeTime

structure Parser where
  tokens : List Token
  passed : Nat
  depth : Nat
  deriving DecidableEq

namespace Parser

/-- a stream has at most so many tokens in front of its end marker -/
def maxTokens : Nat :=
  512

/-- at most so many sums are open at once, the outermost one counted -/
def maxDepth : Nat :=
  128

/-- a parser at the start of a stream; without tokens the stream is an end marker -/
def ofTokens (tokens : List Token) : Parser :=
  ⟨if tokens.isEmpty then [⟨.endOfInput, "", 0⟩] else tokens, 0, 0⟩

/-- the kinds from the parser's place on -/
def cursor (p : Parser) : Cursor :=
  { passed := min p.passed p.tokens.length
    rest := (p.tokens.drop p.passed).map Token.kind
    last := (p.tokens.getLast?.map Token.kind).getD .endOfInput
    depth := p.depth }

/-- a fault at the offset of the token it is about -/
def locate (p : Parser) (f : Fault) : Rejection :=
  ⟨f.cause, (p.tokens[f.index]?.map Token.position).getD 0⟩

/-- the parser at another place of its stream -/
def moveTo (p : Parser) (c : Cursor) : Parser :=
  { p with passed := c.passed, depth := c.depth }

/-- the first token beyond the limit, if the stream goes on there -/
def excess? (p : Parser) : Option Token :=
  p.tokens[maxTokens]?.filter (·.kind != .endOfInput)

/-- one call: an expression up to the end of the stream, and the parser for a further call -/
def parse (p : Parser) : Except Rejection Expr × Parser :=
  match p.excess? with
  | some t => (.error ⟨.tooLong, t.position⟩, p)
  | none =>
    match Grammar.expression (maxDepth - p.depth) p.cursor with
    | .fault f c => (.error (p.locate f), p.moveTo c)
    | .done e c =>
      if c.atEnd then (.ok e, p.moveTo c)
      else (.error (p.locate ⟨.trailingToken c.peek, c.index⟩), p.moveTo c)

end Parser

/-- the tree of an equation -/
def parse (source : String) : Except Rejection Expr := do
  let tokens ← tokenize source
  (Parser.ofTokens tokens).parse.1

end EscapeTime
