/-
Places in the text of a YAML document.

A line ends at a line feed or at one of the separators U+2028 and U+2029; the other ways to end a line are read as line
feeds before anything else. A place knows what is left of the text, and the line and column at which that begins.
-/
namespace EscapeTime.Yaml

/-- what is left of a text, and where it begins -/
structure Place where
  rest : List Char
  line : Nat
  column : Nat

def isBlank (c : Char) : Bool :=
  c == ' ' || c == '\t'

def isBreak (c : Char) : Bool :=
  c == '\n' || c == '\u2028' || c == '\u2029'

/-- a line ends here, or the text does -/
def endsLine : List Char → Bool
  | [] => true
  | c :: _ => isBreak c

/-- a word ends here: at a blank, a line break or the end of the text -/
def endsWord : List Char → Bool
  | [] => true
  | c :: _ => isBlank c || isBreak c

namespace Place

/-- the start of a text -/
def start (text : List Char) : Place :=
  ⟨text, 0, 0⟩

/-- past `n` characters of the same line -/
def forward (p : Place) (n : Nat) : Place :=
  ⟨p.rest.drop n, p.line, p.column + n⟩

/-- past the line break in view, if there is one -/
def passBreak (p : Place) : Place :=
  match p.rest with
  | [] => p
  | c :: rest => if isBreak c then ⟨rest, p.line + 1, 0⟩ else p

/-- the characters from here on that `keep` accepts, none of them a line break, and the place behind them -/
def span (p : Place) (keep : Char → Bool) : List Char × Place :=
  let taken := p.rest.takeWhile keep
  (taken, p.forward taken.length)

/-- the size in bytes of the text up to a later place on the same line -/
def bytesTo (p q : Place) : Nat :=
  (String.ofList (p.rest.take (q.column - p.column))).utf8ByteSize

def passBlanks (p : Place) : Place :=
  (p.span isBlank).2

/-- past the rest of a line that holds nothing but blanks and a comment, and past its end -/
def passLine? (p : Place) : Option Place :=
  let p := p.passBlanks
  let p := if p.rest.head? == some '#' then (p.span (!isBreak ·)).2 else p
  if endsLine p.rest then some p.passBreak else none

/-- a marker of three characters that opens or closes a document; only column 0 holds one -/
def atMarker (p : Place) (marker : String) : Bool :=
  p.column == 0 && marker.toList.isPrefixOf p.rest && endsWord (p.rest.drop 3)

def atDocumentMarker (p : Place) : Bool :=
  p.atMarker "---" || p.atMarker "..."

end Place

/-- skip blanks, comments and line breaks, given the line and column of the text, and tell whether a key may stand
behind them. A new line allows a key outside brackets, and where a key may stand a tab is not skipped. A byte order
mark may begin a line. -/
def skipFrom (inFlow keyAllowed inComment : Bool) (line column : Nat) : List Char → Bool × Place
  | [] => (keyAllowed, ⟨[], line, column⟩)
  | c :: rest =>
    if isBreak c then skipFrom inFlow (keyAllowed || !inFlow) false (line + 1) 0 rest
    else if inComment || c == ' ' || (c == '\t' && (inFlow || !keyAllowed)) || (c == '\ufeff' && column == 0) then
      skipFrom inFlow keyAllowed inComment line (column + 1) rest
    else if c == '#' then skipFrom inFlow keyAllowed true line (column + 1) rest
    else (keyAllowed, ⟨c :: rest, line, column⟩)

/-- the next place where something is written, and whether a key may stand there -/
def Place.skip (p : Place) (inFlow keyAllowed : Bool) : Bool × Place :=
  skipFrom inFlow keyAllowed false p.line p.column p.rest

end EscapeTime.Yaml
