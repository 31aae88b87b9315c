/-
From tokens to a document: block mappings and sequences, flow mappings and sequences in brackets (JSON is one of them),
and scalars. A text holds one document, with or without markers around it.

The functions that read nested nodes take the depth of reading left as their first argument. `read` gives them more
than the tokens can use up: between two tokens there are four calls at most.
-/
import EscapeTime.Yaml.Node
import EscapeTime.Yaml.Scan

namespace EscapeTime.Yaml

/-- what handles of tags stand for -/
abbrev Handles := List (List Char × List Char)

/-- the tokens to come, and the names of anchors met so far with their numbers -/
structure Stream where
  tokens : List Token
  names : List (String × Nat)

namespace Stream

/-- past the token in view -/
def pass (s : Stream) : Stream :=
  { s with tokens := s.tokens.drop 1 }

/-- one of these tokens is in view -/
def sees (s : Stream) (tokens : List Token) : Bool :=
  s.tokens.head?.any tokens.contains

/-- give a name a number: the number of names there are; a name met again gets a new number -/
def addName (s : Stream) (name : String) : Nat × Stream :=
  let number := s.names.length
  (number, { s with names := (name, number) :: s.names.filter (·.1 != name) })

end Stream

/-- a tag in full; its handle has to be known -/
def Tag.full? (handles : Handles) (t : Tag) : Option String :=
  if t.handle.isEmpty then some (String.ofList t.suffix)
  else (handles.lookup t.handle).map fun meaning => String.ofList (meaning ++ t.suffix)

/-- what may stand in front of a node: an anchor and a tag, in either order -/
structure Properties where
  anchor : Option String
  tag : Option Tag

def properties : List Token → Properties × List Token
  | .anchor a :: .tag t :: rest => (⟨some a, some t⟩, rest)
  | .anchor a :: rest => (⟨some a, none⟩, rest)
  | .tag t :: .anchor a :: rest => (⟨some a, some t⟩, rest)
  | .tag t :: rest => (⟨none, some t⟩, rest)
  | tokens => (⟨none, none⟩, tokens)

mutual

/-- a node; `block` tells whether it may be a block, `indentless` whether it may be a sequence whose dashes stand in the
column of the mapping around it -/
def node (handles : Handles) (depth : Nat) (block indentless : Bool) (s : Stream) : Option (Node × Stream) :=
  match depth with
  | 0 => none
  | depth + 1 =>
    match s.tokens with
    | .reference name :: _ => (s.names.lookup name).map fun number => (.reference number, s.pass)
    | tokens => do
      let (found, rest) := properties tokens
      let tag ← match found.tag with
        | none => some none
        | some t => (t.full? handles).map some
      let s := { s with tokens := rest }
      match found.anchor with
      | none => content handles depth block indentless tag found.tag.isSome s
      | some name =>
        let (number, s) := s.addName name
        let (node, s) ← content handles depth block indentless tag true s
        return (.anchored number node, s)

/-- a node behind its anchor and tag; with one of them in front of it, it may be empty -/
def content (handles : Handles) (depth : Nat) (block indentless : Bool) (tag : Option String) (mayBeEmpty : Bool)
    (s : Stream) : Option (Node × Stream) :=
  match depth with
  | 0 => none
  | depth + 1 =>
    match s.tokens with
    | .scalar style text :: _ => some (.scalar style (tag.filter (· != "!")) text, s.pass)
    | .flowSequenceStart :: _ =>
      (flowItems handles depth true s.pass).map fun (items, s) => (.sequence items, s)
    | .flowMappingStart :: _ =>
      (flowEntries handles depth true s.pass).map fun (entries, s) => (.mapping entries, s)
    | tokens =>
      if indentless && s.sees [.blockEntry] then
        (indentlessItems handles depth s).map fun (items, s) => (.sequence items, s)
      else if block && s.sees [.blockSequenceStart] then
        (blockItems handles depth s.pass).map fun (items, s) => (.sequence items, s)
      else if block && s.sees [.blockMappingStart] then
        (blockEntries handles depth s.pass).map fun (entries, s) => (.mapping entries, s)
      else if mayBeEmpty then some (.scalar .plain tag "", ⟨tokens, s.names⟩)
      else none

/-- a node, or an empty one if one of the tokens in `stops` is in view -/
def nodeUnless (handles : Handles) (depth : Nat) (block indentless : Bool) (stops : List Token) (s : Stream) :
    Option (Node × Stream) :=
  match depth with
  | 0 => none
  | depth + 1 => if s.sees stops then some (.empty, s) else node handles depth block indentless s

/-- the value of an entry: a colon and a node, either of which may be missing -/
def entryValue (handles : Handles) (depth : Nat) (block : Bool) (stops : List Token) (s : Stream) :
    Option (Node × Stream) :=
  match depth with
  | 0 => none
  | depth + 1 =>
    if s.sees [.value] then nodeUnless handles depth block block stops s.pass else some (.empty, s)

/-- the items of a block sequence, up to its end -/
def blockItems (handles : Handles) (depth : Nat) (s : Stream) : Option (List Node × Stream) :=
  match depth with
  | 0 => none
  | depth + 1 =>
    match s.tokens with
    | .blockEnd :: _ => some ([], s.pass)
    | .blockEntry :: _ => do
      let (item, s) ← nodeUnless handles depth true false [.blockEntry, .blockEnd] s.pass
      let (items, s) ← blockItems handles depth s
      return (item :: items, s)
    | _ => none

/-- the items of a sequence whose dashes stand in the column of the mapping around it -/
def indentlessItems (handles : Handles) (depth : Nat) (s : Stream) : Option (List Node × Stream) :=
  match depth with
  | 0 => none
  | depth + 1 =>
    match s.tokens with
    | .blockEntry :: _ => do
      let (item, s) ← nodeUnless handles depth true false [.blockEntry, .key, .value, .blockEnd] s.pass
      let (items, s) ← indentlessItems handles depth s
      return (item :: items, s)
    | _ => some ([], s)

/-- the entries of a block mapping, up to its end -/
def blockEntries (handles : Handles) (depth : Nat) (s : Stream) : Option (List (Node × Node) × Stream) :=
  match depth with
  | 0 => none
  | depth + 1 =>
    match s.tokens with
    | .blockEnd :: _ => some ([], s.pass)
    | .key :: _ => do
      let stops := [.key, .value, .blockEnd]
      let (key, s) ← nodeUnless handles depth true true stops s.pass
      let (value, s) ← entryValue handles depth true stops s
      let (entries, s) ← blockEntries handles depth s
      return ((key, value) :: entries, s)
    | _ => none

/-- an item of a flow sequence; a key makes it a mapping of one entry. A comma, colon or bracket in place of the key
counts as the key. -/
def flowItem (handles : Handles) (depth : Nat) (s : Stream) : Option (Node × Stream) :=
  match depth with
  | 0 => none
  | depth + 1 =>
    if s.sees [.key] then do
      let s := s.pass
      let (key, s) ←
        if s.sees [.value, .flowEntry, .flowSequenceEnd] then some (.empty, s.pass)
        else node handles depth false false s
      let (value, s) ← entryValue handles depth false [.flowEntry, .flowSequenceEnd] s
      return (.mapping [(key, value)], s)
    else node handles depth false false s

/-- the items of a flow sequence, up to its end; a comma stands between two, and perhaps behind the last -/
def flowItems (handles : Handles) (depth : Nat) (first : Bool) (s : Stream) : Option (List Node × Stream) :=
  match depth with
  | 0 => none
  | depth + 1 =>
    if s.sees [.flowSequenceEnd] then some ([], s.pass)
    else do
      guard (first || s.sees [.flowEntry])
      let s := if first then s else s.pass
      if s.sees [.flowSequenceEnd] then return ([], s.pass)
      else
        let (item, s) ← flowItem handles depth s
        let (items, s) ← flowItems handles depth false s
        return (item :: items, s)

/-- an entry of a flow mapping; a node without a key in front of it is a key without value -/
def flowMember (handles : Handles) (depth : Nat) (s : Stream) : Option ((Node × Node) × Stream) :=
  match depth with
  | 0 => none
  | depth + 1 =>
    if s.sees [.key] then do
      let stops := [.flowEntry, .flowMappingEnd]
      let (key, s) ← nodeUnless handles depth false false (.value :: stops) s.pass
      let (value, s) ← entryValue handles depth false stops s
      return ((key, value), s)
    else (node handles depth false false s).map fun (key, s) => ((key, .empty), s)

/-- the entries of a flow mapping, up to its end -/
def flowEntries (handles : Handles) (depth : Nat) (first : Bool) (s : Stream) :
    Option (List (Node × Node) × Stream) :=
  match depth with
  | 0 => none
  | depth + 1 =>
    if s.sees [.flowMappingEnd] then some ([], s.pass)
    else do
      guard (first || s.sees [.flowEntry])
      let s := if first then s else s.pass
      if s.sees [.flowMappingEnd] then return ([], s.pass)
      else
        let (entry, s) ← flowMember handles depth s
        let (entries, s) ← flowEntries handles depth false s
        return (entry :: entries, s)

end

/-- the directives at the head of a list of tokens, and the rest -/
def directives : List Token → List Directive × List Token
  | .directive d :: rest =>
    let (more, rest) := directives rest
    (d :: more, rest)
  | tokens => ([], tokens)

/-- what the directives of a document say about handles. Each handle is named once, a version is given once and is 1.1
or 1.2; one mark and two marks have meanings of their own unless a directive gives them another. -/
def handles? (found : List Directive) : Option Handles := do
  let versions := found.filterMap fun
    | .version major minor => some (major, minor)
    | _ => none
  let named := found.filterMap fun
    | .handle handle meaning => some (handle, meaning)
    | _ => none
  guard (versions.length ≤ 1 && versions.all fun v => v == (1, 1) || v == (1, 2))
  guard ((named.map Prod.fst).eraseDups.length == named.length)
  return named ++ [(['!'], ['!']), (['!', '!'], "tag:yaml.org,2002:".toList)]

/-- the depth of reading that a list of tokens can use up -/
def depthOf (tokens : List Token) : Nat :=
  4 * tokens.length + 8

/-- the document at the head of a list of tokens, and the tokens behind it -/
def document? (tokens : List Token) : Option (Node × List Token) := do
  let (found, rest) := directives tokens
  let handles ← handles? found
  match rest with
  | .documentStart :: rest =>
    match rest with
    | [] | .directive _ :: _ | .documentStart :: _ | .documentEnd :: _ => return (.empty, rest)
    | _ =>
      let (root, s) ← node handles (depthOf rest) true false ⟨rest, []⟩
      return (root, s.tokens)
  | _ =>
    guard found.isEmpty
    let (root, s) ← node handles (depthOf rest) true false ⟨rest, []⟩
    return (root, s.tokens)

/-- the one document that a text holds; a text without any holds the empty scalar -/
def read (text : String) : Option Node := do
  match ← tokens? text.toList with
  | [] => return .empty
  | tokens =>
    let (root, rest) ← document? tokens
    guard (rest.all (· == .documentEnd))
    return root

end EscapeTime.Yaml
