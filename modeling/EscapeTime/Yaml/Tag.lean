/-
Names of anchors, tags, and the directives in front of a document.

A tag is either written out between angle brackets, or it is a handle and a suffix; a directive may say what a handle
stands for. An octet of a tag may be written as a percent sign and two digits; the octets of one character follow each
other. Tags are kept as octets.
-/
import EscapeTime.Yaml.Scalar

namespace EscapeTime.Yaml

/-- a character of anchor names, handles and directive names -/
def isNameChar (c : Char) : Bool :=
  c.isAlphanum || c == '-' || c == '_'

/-- a character of tags; some stand only between angle brackets -/
def isTagChar (bracketed : Bool) (c : Char) : Bool :=
  isNameChar c || ";/?:@&=+$.!~*'()".toList.contains c || (bracketed && (c == ',' || c == '[' || c == ']'))

/-- an anchor's name may end here -/
def endsName (rest : List Char) : Bool :=
  endsWord rest || rest.head?.any "?:,]\x7d%@\x60".toList.contains

/-- the name of an anchor or alias, behind its mark -/
def name? (p : Place) : Option (String × Place) := do
  let (name, after) := p.span isNameChar
  guard (!name.isEmpty && endsName after.rest)
  return (String.ofList name, after)

/-- a tag as it is written: a handle, empty if the tag is written out, and the rest -/
structure Tag where
  handle : List Char
  suffix : List Char
  deriving DecidableEq

/-- the octets behind the first one of a character; an octet in the middle begins none -/
def octetsBehind? (octet : Nat) : Option Nat :=
  if octet < 0x80 then some 0
  else if octet < 0xc0 then none
  else if octet < 0xe0 then some 1
  else if octet < 0xf0 then some 2
  else if octet < 0xf8 then some 3
  else none

/-- the characters of a tag, `text` reversed having been read; `pending` octets of a character are still to come -/
def tagTextFrom (bracketed : Bool) (pending : Nat) (text : List Char) (line column : Nat) :
    List Char → Option (List Char × Place)
  | '%' :: a :: b :: rest => do
    let octet ← numeral? 16 [a, b]
    let pending ← if pending = 0 then octetsBehind? octet
      else if octet / 64 = 2 then some (pending - 1)
      else none
    tagTextFrom bracketed pending (Char.ofNat octet :: text) line (column + 3) rest
  | c :: rest =>
    if c == '%' || (pending != 0) then none
    else if isTagChar bracketed c then tagTextFrom bracketed 0 (c :: text) line (column + 1) rest
    else some (text.reverse, ⟨c :: rest, line, column⟩)
  | [] => if pending = 0 then some (text.reverse, ⟨[], line, column⟩) else none

/-- the characters of a tag, none being refused -/
def tagText? (bracketed : Bool) (p : Place) : Option (List Char × Place) := do
  let (text, after) ← tagTextFrom bracketed 0 [] p.line p.column p.rest
  guard (!text.isEmpty)
  return (text, after)

/-- an exclamation mark and a name, closed by a second mark if there is one -/
def handle? (p : Place) : Option (List Char × Place) := do
  guard (p.rest.head? == some '!')
  let (name, after) := (p.forward 1).span isNameChar
  if after.rest.head? == some '!' then return ('!' :: name ++ ['!'], after.forward 1)
  else return ('!' :: name, after)

/-- the handle is closed by a second mark -/
def closesHandle (handle : List Char) : Bool :=
  1 < handle.length && handle.getLast? == some '!'

/-- the tag in front of its end; the mark alone is a tag of its own -/
def tagBody? (p : Place) : Option (Tag × Place) := do
  if p.rest[1]? == some '<' then
    let (text, after) ← tagText? true (p.forward 2)
    guard (after.rest.head? == some '>')
    return (⟨[], text⟩, after.forward 1)
  else
    let (handle, after) ← handle? p
    if closesHandle handle then
      let (text, after) ← tagText? false after
      return (⟨handle, text⟩, after)
    else
      let (text, after) ← tagTextFrom false 0 (handle.drop 1).reverse after.line after.column after.rest
      return (if text.isEmpty then ⟨[], ['!']⟩ else ⟨['!'], text⟩, after)

/-- the tag at a place -/
def tag? (inFlow : Bool) (p : Place) : Option (Tag × Place) := do
  let (tag, after) ← tagBody? p
  guard (endsWord after.rest || (inFlow && after.rest.head? == some ','))
  return (tag, after)

/-- what a line with a percent sign says about the document behind it -/
inductive Directive where
  | version (major minor : Nat)
  | handle (handle meaning : List Char)
  deriving DecidableEq

/-- a number of a version, of nine digits at most -/
def versionNumber? (p : Place) : Option (Nat × Place) := do
  let (digits, after) := p.span Char.isDigit
  guard (digits.length ≤ 9)
  return (← numeral? 10 digits, after)

def versionDirective? (p : Place) : Option (Directive × Place) := do
  let (major, after) ← versionNumber? p.passBlanks
  guard (after.rest.head? == some '.')
  let (minor, after) ← versionNumber? (after.forward 1)
  return (.version major minor, after)

def handleDirective? (p : Place) : Option (Directive × Place) := do
  let (handle, after) ← handle? p.passBlanks
  guard ((handle == ['!'] || closesHandle handle) && after.rest.head?.any isBlank)
  let (meaning, after) ← tagText? true after.passBlanks
  guard (endsWord after.rest)
  return (.handle handle meaning, after)

/-- the directive at a place, and the line behind it -/
def directive? (p : Place) : Option (Directive × Place) := do
  let (name, after) := (p.forward 1).span isNameChar
  guard (endsWord after.rest)
  let (directive, after) ← match String.ofList name with
    | "YAML" => versionDirective? after
    | "TAG" => handleDirective? after
    | _ => none
  return (directive, ← after.passLine?)

end EscapeTime.Yaml
