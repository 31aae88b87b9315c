/-
Block scalars: the indented lines behind a bar or an angle bracket.

Behind a bar line breaks stay as they are. Behind an angle bracket a line feed between two lines that begin without a
blank is folded. The indentation is that of the first line with text, or a digit in the header gives it. By default the
scalar ends in one line break if it has one; a minus sign in the header drops it, a plus sign keeps all that follow.
-/
import EscapeTime.Yaml.Scalar

namespace EscapeTime.Yaml

/-- which line breaks at the end of a block scalar belong to it -/
inductive Chomping where
  | strip
  | clip
  | keep
  deriving DecidableEq

def chomping? : Char → Option Chomping
  | '-' => some .strip
  | '+' => some .keep
  | _ => none

/-- the digit of an indentation, 1 to 9, if one is in view; a zero is refused -/
def indentation? (p : Place) : Option (Nat × Place) :=
  match p.rest with
  | [] => some (0, p)
  | c :: _ =>
    if c == '0' then none
    else if c.isDigit then some (c.toNat - 48, p.forward 1)
    else some (0, p)

/-- the sign of a header, if one is in view -/
def headerSign? (p : Place) : Option (Chomping × Place) :=
  p.rest.head?.bind chomping? |>.map fun chomping => (chomping, p.forward 1)

/-- the header behind the bar or bracket: how to end, and the indentation, 0 if it is not given -/
def blockHeader? (p : Place) : Option (Chomping × Nat × Place) := do
  match headerSign? p with
  | some (chomping, p) =>
    let (digit, p) ← indentation? p
    return (chomping, digit, ← p.passLine?)
  | none =>
    let (digit, p) ← indentation? p
    let (chomping, p) := if digit == 0 then (.clip, p) else (headerSign? p).getD (.clip, p)
    return (chomping, digit, ← p.passLine?)

/-- pass empty lines and the indentation of the next line, of `indent` columns or, if that is 0, of any number: the
widest indentation seen, the line breaks passed, reversed, and the place. A tab is no indentation. -/
def blockMargin (indent widest : Nat) (breaks : List Char) (line column : Nat) :
    List Char → Option (Nat × List Char × Place)
  | [] => some (max widest column, breaks, ⟨[], line, column⟩)
  | c :: rest =>
    let short := indent == 0 || column < indent
    if short && c == ' ' then blockMargin indent widest breaks line (column + 1) rest
    else if short && c == '\t' then none
    else if isBreak c then blockMargin indent (max widest column) (c :: breaks) (line + 1) 0 rest
    else some (max widest column, breaks, ⟨c :: rest, line, column⟩)

/-- the lines of a block scalar read so far, reversed, with the break behind the last one and the empty lines that
follow -/
structure BlockText where
  text : List Char
  lineEnd : List Char
  breaks : List Char
  afterBlank : Bool

namespace BlockText

def empty : BlockText :=
  ⟨[], [], [], false⟩

/-- what joins the last line with the next, reversed -/
def joint (b : BlockText) (style : Style) (beforeBlank : Bool) : List Char :=
  let first :=
    if style == .folded && b.lineEnd == ['\n'] && !b.afterBlank && !beforeBlank then
      if b.breaks.isEmpty then [' '] else []
    else b.lineEnd
  b.breaks ++ first

/-- the scalar, ended as its header says -/
def ended (b : BlockText) : Chomping → List Char
  | .strip => b.text.reverse
  | .clip => (b.lineEnd ++ b.text).reverse
  | .keep => (b.breaks ++ b.lineEnd ++ b.text).reverse

end BlockText

/-- further lines of a block scalar, of at most `lines` lines -/
def blockLines (style : Style) (indent : Nat) : (lines : Nat) → BlockText → Place → Option (BlockText × Place)
  | 0, b, p => some (b, p)
  | lines + 1, b, p =>
    if p.column != indent || p.rest.isEmpty then some (b, p)
    else do
      let blank := p.rest.head?.any isBlank
      let (line, atEnd) := p.span (!isBreak ·)
      let next := atEnd.passBreak
      let (_, breaks, after) ← blockMargin indent 0 [] next.line next.column next.rest
      blockLines style indent lines
        { text := line.reverse ++ (b.joint style blank ++ b.text)
          lineEnd := atEnd.rest.take 1
          breaks := breaks
          afterBlank := blank } after

/-- the block scalar at a place, inside a block whose content is indented at least to `indent` -/
def blockScalar? (style : Style) (indent : Nat) (p : Place) : Option (List Char × Place) := do
  let (chomping, digit, p) ← blockHeader? (p.forward 1)
  let given := if digit == 0 then 0 else indent - 1 + digit
  let (widest, breaks, after) ← blockMargin given 0 [] p.line p.column p.rest
  let margin := if digit == 0 then max 1 (max widest indent) else given
  let (b, after) ← blockLines style margin (after.rest.length + 1) { BlockText.empty with breaks := breaks } after
  return (b.ended chomping, after)

end EscapeTime.Yaml
