/-
From a YAML text to its tokens.

Whether a scalar or a bracketed node is a key shows only at the colon behind it. So the place of each one that could be
a key is kept, one for every level of brackets, and the colon puts the tokens of a key there. A key stands on one line
with its colon, and no more than 1024 bytes in front of it. Where a line begins in the column of a block mapping, a key
has to stand.
-/
import EscapeTime.Yaml.Token

namespace EscapeTime.Yaml

/-- a place that could hold a key: the number of tokens in front of it, where it stands, and whether it has to be one -/
structure Candidate where
  position : Nat
  line : Nat
  column : Nat
  offset : Nat
  required : Bool

/-- reading a text: the place and an offset in bytes that grows along a line; the tokens so far, reversed, with their
number; `margin` is the first column of content inside the innermost block, 0 outside of all, and `outer` holds the
margins around it; `candidate` is the one of the innermost level of brackets, `flow` holds those of the levels around
it -/
structure Scan where
  place : Place
  offset : Nat
  tokens : List Token
  count : Nat
  margin : Nat
  outer : List Nat
  candidate : Option Candidate
  flow : List (Option Candidate)
  keyAllowed : Bool

namespace Scan

def start (text : List Char) : Scan :=
  ⟨Place.start text, 0, [], 0, 0, [], none, [], true⟩

def inFlow (s : Scan) : Bool :=
  !s.flow.isEmpty

/-- on to a later place; on a new line offsets begin anew -/
def moveTo (s : Scan) (p : Place) : Scan :=
  { s with place := p, offset := if s.place.line == p.line then s.offset + s.place.bytesTo p else 0 }

/-- a key that begins at the candidate can no longer end here -/
def isPast (s : Scan) (c : Candidate) : Bool :=
  c.line < s.place.line || c.offset + 1024 < s.offset

def push (s : Scan) (t : Token) : Scan :=
  { s with tokens := t :: s.tokens, count := s.count + 1 }

/-- tokens, in order, at an earlier position -/
def insert (s : Scan) (position : Nat) (new : List Token) : Scan :=
  let behind := s.count - position
  { s with
    tokens := s.tokens.take behind ++ (new.reverse ++ s.tokens.drop behind)
    count := s.count + new.length }

/-- give up a candidate, unless a key has to stand there -/
def release? : Option Candidate → Option (Option Candidate)
  | none => some none
  | some c => if c.required then none else some none

/-- give up the candidate of the innermost level -/
def dropCandidate? (s : Scan) : Option Scan := do
  return { s with candidate := ← release? s.candidate }

/-- give up the candidates that are past -/
def dropPast? (s : Scan) : Option Scan := do
  let check (c : Option Candidate) : Option (Option Candidate) :=
    if c.any s.isPast then release? c else some c
  return { s with candidate := ← check s.candidate, flow := ← s.flow.mapM check }

/-- what comes next could be a key -/
def addCandidate? (s : Scan) : Option Scan := do
  if s.keyAllowed then
    let s ← s.dropCandidate?
    let required := !s.inFlow && s.margin == s.place.column + 1
    return { s with candidate := some ⟨s.count, s.place.line, s.place.column, s.offset, required⟩ }
  else return s

/-- close blocks while `ends` accepts their margin -/
def closeBlocks (ends : Nat → Bool) (s : Scan) : (margin : Nat) → (outer : List Nat) → Scan
  | margin, [] => { s with margin := margin, outer := [] }
  | margin, next :: outer =>
    if ends margin then closeBlocks ends (s.push .blockEnd) next outer
    else { s with margin := margin, outer := next :: outer }

/-- close the blocks that stand further right than `column` -/
def closeTo (s : Scan) (column : Nat) : Scan :=
  if s.inFlow then s else s.closeBlocks (column + 1 < ·) s.margin s.outer

/-- close all blocks -/
def closeAll (s : Scan) : Scan :=
  if s.inFlow then s else s.closeBlocks (0 < ·) s.margin s.outer

/-- a block opens in `column` if that is further right than the innermost one -/
def opensBlock (s : Scan) (column : Nat) : Bool :=
  !s.inFlow && s.margin ≤ column

def openBlock (s : Scan) (column : Nat) : Scan :=
  { s with margin := column + 1, outer := s.margin :: s.outer }

/-- a token that opens a block in the column in view, if one opens there -/
def pushBlock (s : Scan) (t : Token) : Scan :=
  if s.opensBlock s.place.column then (s.openBlock s.place.column).push t else s

/-- past `n` characters that are a token -/
def pass (s : Scan) (n : Nat) (t : Token) : Scan :=
  (s.push t).moveTo (s.place.forward n)

/-- a token between documents -/
def between? (s : Scan) (t : Token) (after : Place) : Option Scan := do
  let s ← s.closeAll.dropCandidate?
  return { (s.push t).moveTo after with keyAllowed := false }

/-- an opening bracket -/
def openFlow? (s : Scan) (t : Token) : Option Scan := do
  let s ← s.addCandidate?
  return { s.pass 1 t with candidate := none, flow := s.candidate :: s.flow, keyAllowed := true }

/-- a closing bracket -/
def closeFlow? (s : Scan) (t : Token) : Option Scan := do
  let s ← s.dropCandidate?
  let s := s.pass 1 t
  match s.flow with
  | [] => return { s with keyAllowed := false }
  | candidate :: flow => return { s with candidate := candidate, flow := flow, keyAllowed := false }

/-- a comma between brackets -/
def flowEntry? (s : Scan) : Option Scan := do
  let s ← s.dropCandidate?
  return { s.pass 1 .flowEntry with keyAllowed := true }

/-- the dash of a block sequence -/
def blockEntry? (s : Scan) : Option Scan := do
  guard (s.inFlow || s.keyAllowed)
  let s ← (s.pushBlock .blockSequenceStart).dropCandidate?
  return { s.pass 1 .blockEntry with keyAllowed := true }

/-- the question mark in front of a key -/
def key? (s : Scan) : Option Scan := do
  guard (s.inFlow || s.keyAllowed)
  let s ← (s.pushBlock .blockMappingStart).dropCandidate?
  return { s.pass 1 .key with keyAllowed := !s.inFlow }

/-- the colon behind a key -/
def value? (s : Scan) : Option Scan := do
  match s.candidate with
  | some c =>
    let s := { s with candidate := none }
    let s :=
      if s.opensBlock c.column then (s.openBlock c.column).insert c.position [.blockMappingStart, .key]
      else s.insert c.position [.key]
    return { s.pass 1 .value with keyAllowed := false }
  | none =>
    guard (s.inFlow || s.keyAllowed)
    return { (s.pushBlock .blockMappingStart).pass 1 .value with keyAllowed := !s.inFlow }

/-- a token that may begin a key, with the place behind it -/
def content? (s : Scan) (read : Place → Option (Token × Place)) : Option Scan := do
  let s ← s.addCandidate?
  let (t, after) ← read s.place
  return { (s.push t).moveTo after with keyAllowed := false }

/-- a plain scalar; behind a line break a key may stand -/
def plainScalar? (s : Scan) : Option Scan := do
  let s ← s.addCandidate?
  let (text, broken, after) ← plain? s.inFlow s.margin s.place
  return { (s.push (.scalar .plain (String.ofList text))).moveTo after with keyAllowed := broken }

/-- a block scalar; behind it a key may stand -/
def blockScalar? (s : Scan) (style : Style) : Option Scan := do
  let s ← s.dropCandidate?
  let (text, after) ← Yaml.blockScalar? style s.margin s.place
  return { (s.push (.scalar style (String.ofList text))).moveTo after with keyAllowed := true }

/-- the next token, which begins here -/
def token? (s : Scan) : Option Scan :=
  let p := s.place
  let spaced := endsWord (p.rest.drop 1)
  if p.atMarker "---" then s.between? .documentStart (p.forward 3)
  else if p.atMarker "..." then s.between? .documentEnd (p.forward 3)
  else match p.rest.headD ' ' with
    | '[' => s.openFlow? .flowSequenceStart
    | '\x7b' => s.openFlow? .flowMappingStart
    | ']' => s.closeFlow? .flowSequenceEnd
    | '\x7d' => s.closeFlow? .flowMappingEnd
    | ',' => s.flowEntry?
    | '*' => s.content? fun p => (name? (p.forward 1)).map fun (name, after) => (.reference name, after)
    | '&' => s.content? fun p => (name? (p.forward 1)).map fun (name, after) => (.anchor name, after)
    | '!' => s.content? fun p => (tag? s.inFlow p).map fun (tag, after) => (.tag tag, after)
    | '\'' | '"' => s.content? fun p =>
      (quoted? p).map fun (text, after) => (.scalar .quoted (String.ofList text), after)
    | '|' => if s.inFlow then none else s.blockScalar? .literal
    | '>' => if s.inFlow then none else s.blockScalar? .folded
    | c =>
      if c == '%' && p.column == 0 then do
        let (directive, after) ← directive? p
        s.between? (.directive directive) after
      else if c == '-' && spaced then s.blockEntry?
      else if c == '?' && (s.inFlow || spaced) then s.key?
      else if c == ':' && (s.inFlow || spaced) then s.value?
      else if p.startsPlain s.inFlow then s.plainScalar?
      else none

/-- the tokens of the rest of the text, in at most so many steps -/
def run? : (steps : Nat) → Scan → Option (List Token)
  | 0, _ => none
  | steps + 1, s => do
    let (keyAllowed, place) := s.place.skip s.inFlow s.keyAllowed
    let s ← { s.moveTo place with keyAllowed := keyAllowed }.dropPast?
    let s := s.closeTo place.column
    if place.rest.isEmpty then
      let s ← s.closeAll.dropCandidate?
      return s.tokens.reverse
    else run? steps (← s.token?)

end Scan

/-- characters that may stand in a document -/
def isPrintable (c : Char) : Bool :=
  let n := c.toNat
  n == 0x09 || n == 0x0a || n == 0x0d || (0x20 ≤ n && n ≤ 0x7e) || n == 0x85 || (0xa0 ≤ n && n ≤ 0xfffd)
    || 0x10000 ≤ n

/-- carriage returns, alone or with a line feed, and next-line characters as line feeds -/
def unifyBreaks : List Char → List Char
  | [] => []
  | '\r' :: '\n' :: rest => '\n' :: unifyBreaks rest
  | c :: rest => (if c == '\r' || c == '\u0085' then '\n' else c) :: unifyBreaks rest

/-- the tokens of a text; every token takes a character at least -/
def tokens? (text : List Char) : Option (List Token) := do
  guard (text.all isPrintable)
  (Scan.start (unifyBreaks text)).run? (text.length + 1)

end EscapeTime.Yaml
