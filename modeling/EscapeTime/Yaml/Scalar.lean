/-
Scalars in one run of text: plain, single-quoted and double-quoted.

A scalar may go on over several lines. Blanks around a line break are dropped; a single line feed becomes a space, and
of several breaks in a row a leading line feed is dropped. A plain scalar ends at a comment, at a colon with a blank
behind it, where indentation falls back, and between brackets also at a bracket or comma. In double quotes a backslash
escapes; in front of a line break it joins the lines.
-/
import EscapeTime.Yaml.Place

namespace EscapeTime.Yaml

/-- how a scalar is written -/
inductive Style where
  | plain
  | quoted
  | literal
  | folded
  deriving DecidableEq

/-- what stands between two words: blanks on one line, or line breaks, the first one perhaps escaped; the lists are
reversed -/
inductive Gap where
  | blanks (reversed : List Char)
  | breaks (first : Option Char) (more : List Char)

namespace Gap

def none : Gap :=
  blanks []

/-- a line break behind a backslash -/
def joined : Gap :=
  breaks Option.none []

/-- the gap with one more blank; next to a line break blanks count for nothing -/
def addBlank (c : Char) : Gap → Gap
  | blanks reversed => blanks (c :: reversed)
  | gap => gap

def addBreak (c : Char) : Gap → Gap
  | blanks _ => breaks (some c) []
  | breaks first more => breaks first (c :: more)

def hasBreak : Gap → Bool
  | blanks _ => false
  | breaks _ _ => true

/-- something stands in the gap -/
def isOpen : Gap → Bool
  | blanks reversed => !reversed.isEmpty
  | breaks _ _ => true

/-- the gap as part of the scalar, reversed -/
def folded : Gap → List Char
  | blanks reversed => reversed
  | breaks (some '\n') [] => [' ']
  | breaks (some '\n') more => more
  | breaks (some c) more => more ++ [c]
  | breaks Option.none more => more

end Gap

/-- a character that ends a plain scalar between brackets -/
def isFlowIndicator (c : Char) : Bool :=
  c == ',' || c == '[' || c == ']' || c == '\x7b' || c == '\x7d'

/-- characters that begin something other than a plain scalar -/
def isIndicator (c : Char) : Bool :=
  isFlowIndicator c || "-?:#&*!|>'\"%@\x60".toList.contains c

/-- a plain scalar may begin here -/
def Place.startsPlain (p : Place) (inFlow : Bool) : Bool :=
  match p.rest with
  | [] => false
  | c :: rest =>
    !(isIndicator c || isBlank c || isBreak c)
      || (c == '-' && !endsWord rest)
      || (!inFlow && (c == '?' || c == ':') && !endsWord rest)

/-- a plain scalar, read so far with `word` reversed and a gap behind it; its further lines are indented at least to
`indent`. Also told is whether the last gap had a line break. -/
def plainFrom (inFlow : Bool) (indent : Nat) (word : List Char) (gap : Gap) (line column : Nat) :
    List Char → Option (List Char × Bool × Place)
  | [] => some (word.reverse, gap.hasBreak, ⟨[], line, column⟩)
  | c :: rest =>
    let here : Place := ⟨c :: rest, line, column⟩
    let colon := c == ':' && endsWord rest
    let tooEarly := gap.hasBreak && !inFlow && column < indent
    let comment := c == '#' && gap.isOpen
    if isBreak c then plainFrom inFlow indent word (gap.addBreak c) (line + 1) 0 rest
    else if isBlank c then
      if gap.hasBreak && column < indent && c == '\t' then Option.none
      else plainFrom inFlow indent word (gap.addBlank c) line (column + 1) rest
    else if tooEarly || comment || colon || here.atDocumentMarker || (inFlow && isFlowIndicator c) then
      some (word.reverse, gap.hasBreak, here)
    else if inFlow && c == ':' && rest.head?.any (fun next => isFlowIndicator next || next == '?') then Option.none
    else plainFrom inFlow indent (c :: (gap.folded ++ word)) .none line (column + 1) rest

/-- the plain scalar at a place, and whether a line break stands behind it -/
def plain? (inFlow : Bool) (indent : Nat) (p : Place) : Option (List Char × Bool × Place) :=
  plainFrom inFlow indent [] .none p.line p.column p.rest

/-- a single-quoted scalar behind its opening mark; two marks stand for one -/
def singleQuotedFrom (word : List Char) (gap : Gap) (line column : Nat) : List Char → Option (List Char × Place)
  | [] => Option.none
  | '\'' :: '\'' :: rest => singleQuotedFrom ('\'' :: (gap.folded ++ word)) .none line (column + 2) rest
  | c :: rest =>
    if (Place.mk (c :: rest) line column).atDocumentMarker then Option.none
    else if c == '\'' then some ((gap.folded ++ word).reverse, ⟨rest, line, column + 1⟩)
    else if isBreak c then singleQuotedFrom word (gap.addBreak c) (line + 1) 0 rest
    else if isBlank c then singleQuotedFrom word (gap.addBlank c) line (column + 1) rest
    else singleQuotedFrom (c :: (gap.folded ++ word)) .none line (column + 1) rest

/-- the escapes of one character -/
def escaped? : Char → Option Char
  | '0' => some '\x00'
  | 'a' => some '\x07'
  | 'b' => some '\x08'
  | 't' | '\t' => some '\t'
  | 'n' => some '\n'
  | 'v' => some '\x0b'
  | 'f' => some '\x0c'
  | 'r' => some '\r'
  | 'e' => some '\x1b'
  | ' ' => some ' '
  | '"' => some '"'
  | '/' => some '/'
  | '\\' => some '\\'
  | 'N' => some '\u0085'
  | '_' => some '\u00a0'
  | 'L' => some '\u2028'
  | 'P' => some '\u2029'
  | _ => Option.none

/-- the number of hexadecimal digits behind an escape -/
def escapeWidth? : Char → Option Nat
  | 'x' => some 2
  | 'u' => some 4
  | 'U' => some 8
  | _ => Option.none

def digit? (base : Nat) (c : Char) : Option Nat :=
  let value :=
    if c.isDigit then c.toNat - 48
    else if 'a' ≤ c ∧ c ≤ 'f' then c.toNat - 87
    else if 'A' ≤ c ∧ c ≤ 'F' then c.toNat - 55
    else 16
  if value < base then some value else Option.none

/-- the number that digits of a base spell; there has to be one at least -/
def numeral? (base : Nat) (digits : List Char) : Option Nat := do
  guard (!digits.isEmpty)
  let values ← digits.mapM (digit? base)
  return values.foldl (fun n d => base * n + d) 0

/-- the character of a code, unless it is none -/
def charOf? (code : Nat) : Option Char :=
  if code.isValidChar then some (Char.ofNat code) else Option.none

/-- a double-quoted scalar behind its opening mark -/
def doubleQuotedFrom (word : List Char) (gap : Gap) (line column : Nat) (text : List Char) :
    Option (List Char × Place) :=
  match text with
  | [] => Option.none
  | '\\' :: c :: rest =>
    if isBreak c then doubleQuotedFrom (gap.folded ++ word) .joined (line + 1) 0 rest
    else match escaped? c, escapeWidth? c with
      | some e, _ => doubleQuotedFrom (e :: (gap.folded ++ word)) .none line (column + 2) rest
      | Option.none, some width =>
        if width ≤ rest.length then do
          let e ← charOf? (← numeral? 16 (rest.take width))
          doubleQuotedFrom (e :: (gap.folded ++ word)) .none line (column + 2 + width) (rest.drop width)
        else Option.none
      | Option.none, Option.none => Option.none
  | c :: rest =>
    if (Place.mk (c :: rest) line column).atDocumentMarker then Option.none
    else if c == '"' then some ((gap.folded ++ word).reverse, ⟨rest, line, column + 1⟩)
    else if isBreak c then doubleQuotedFrom word (gap.addBreak c) (line + 1) 0 rest
    else if isBlank c then doubleQuotedFrom word (gap.addBlank c) line (column + 1) rest
    else doubleQuotedFrom (c :: (gap.folded ++ word)) .none line (column + 1) rest
termination_by text.length
decreasing_by all_goals (simp only [List.length_cons, List.length_drop]; omega)

/-- the quoted scalar at a place -/
def quoted? (p : Place) : Option (List Char × Place) :=
  match p.rest with
  | '\'' :: rest => singleQuotedFrom [] .none p.line (p.column + 1) rest
  | '"' :: rest => doubleQuotedFrom [] .none p.line (p.column + 1) rest
  | _ => Option.none

end EscapeTime.Yaml
