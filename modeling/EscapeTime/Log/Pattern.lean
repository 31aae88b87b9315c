/-
Patterns for the values of fields.

A pattern is a regular expression: characters, the dot, anchors, sets in square brackets, groups, repetitions and
alternatives. Flags in a group switch how what follows is read. `ofText?` reads a pattern; `isSupported` tells whether
it can be used. Patterns work without tables of Unicode, so while the flag u is on, as it is at first, there are no word
boundaries, no shorthands such as \d, and letters cannot be read in either case. While it is off, a pattern must still
match whole characters. Counted repetitions are not read, a filter keeps their braces for itself.
-/
import EscapeTime.Text.Blank
import EscapeTime.Text.Letter

namespace EscapeTime.Log

inductive Flag where
  | ignoreCase
  | multiLine
  | dotMatchesBreak
  | swapGreed
  | unicode
  | anyBreak
  | spaced
  deriving DecidableEq

def Flag.ofChar? : Char → Option Flag
  | 'i' => some ignoreCase
  | 'm' => some multiLine
  | 's' => some dotMatchesBreak
  | 'U' => some swapGreed
  | 'u' => some unicode
  | 'R' => some anyBreak
  | 'x' => some spaced
  | _ => none

/-- flags switched on and flags switched off -/
structure FlagChange where
  on : List Flag
  off : List Flag

namespace FlagChange

def none : FlagChange :=
  ⟨[], []⟩

/-- what becomes of a flag -/
def apply (f : FlagChange) (flag : Flag) (before : Bool) : Bool :=
  if f.on.contains flag then true else if f.off.contains flag then false else before

/-- the change that a text means: flags to switch on, then those to switch off behind a minus sign. No flag stands there
twice, and something stands behind the sign. -/
def ofText? (text : List Char) : Option FlagChange := do
  let on ← (text.takeWhile (· != '-')).mapM Flag.ofChar?
  let off ← match text.dropWhile (· != '-') with
    | [] => some []
    | ['-'] => Option.none
    | _ :: rest => rest.mapM Flag.ofChar?
  guard ((on ++ off).eraseDups.length == (on ++ off).length)
  return ⟨on, off⟩

end FlagChange

/-- how two sets are combined -/
inductive SetOp where
  | intersection
  | difference
  | symmetricDifference

/-- a set in square brackets; shorthands are the likes of \d -/
inductive CharSet where
  | empty
  | literal (c : Char)
  | range (low high : Char)
  | named (name : String) (negated : Bool)
  | shorthand (negated : Bool)
  | bracketed (negated : Bool) (inner : CharSet)
  | union (items : List CharSet)
  | combined (op : SetOp) (left right : CharSet)

/-- the union of sets, given in reverse -/
def CharSet.ofItems : List CharSet → CharSet
  | [] => empty
  | [item] => item
  | items => union items.reverse

/-- a regular expression; `byte` tells whether a character is written as a byte in two digits -/
inductive Pattern where
  | empty
  | flags (change : FlagChange)
  | literal (c : Char) (byte : Bool)
  | dot
  | anchor
  | wordBoundary
  | shorthand (negated : Bool)
  | set (negated : Bool) (inner : CharSet)
  | repeated (p : Pattern)
  | group (change : FlagChange) (p : Pattern)
  | alternation (branches : List Pattern)
  | sequence (items : List Pattern)

namespace Pattern

/-- the sequence of patterns given in reverse -/
def ofItems : List Pattern → Pattern
  | [] => empty
  | [p] => p
  | items => sequence items.reverse

/-- the alternatives given in reverse -/
def ofBranches : List Pattern → Pattern
  | [p] => p
  | branches => alternation branches.reverse

/-- skip what does not count where the flag x is on: blanks, and comments up to the end of the line -/
def skipFrom (inComment : Bool) : List Char → List Char
  | [] => []
  | c :: rest =>
    if inComment then skipFrom (c != '\n') rest
    else if Text.isWhiteSpace c then skipFrom false rest
    else if c == '#' then skipFrom true rest
    else c :: rest

def skip (spaced : Bool) (text : List Char) : List Char :=
  if spaced then skipFrom false text else text

/-- the character behind a dash, blanks and a comment mark not counted where the flag x is on -/
def behindDash? (spaced : Bool) (rest : List Char) : Option Char :=
  if spaced then
    let next := rest.dropWhile Text.isWhiteSpace
    let next := if next.head? == some '#' then (next.drop 1).dropWhile Text.isWhiteSpace else next
    if next.isEmpty then rest.head? else next.head?
  else rest.head?

def hexDigit? (c : Char) : Option Nat :=
  if c.isDigit then some (c.toNat - 48)
  else if 'a' ≤ c ∧ c ≤ 'f' then some (c.toNat - 87)
  else if 'A' ≤ c ∧ c ≤ 'F' then some (c.toNat - 55)
  else none

/-- a character by its code in so many hexadecimal digits -/
def code? (spaced : Bool) (code : Nat) : (digits : Nat) → List Char → Option (Char × List Char)
  | 0, text => if code.isValidChar then some (Char.ofNat code, skip spaced text) else none
  | digits + 1, text =>
    match skip spaced text with
    | [] => none
    | c :: rest => do code? spaced (16 * code + (← hexDigit? c)) digits rest

/-- the characters that a letter behind a backslash stands for -/
def control? : Char → Option Char
  | 'a' => some '\x07'
  | 'f' => some '\x0c'
  | 't' => some '\t'
  | 'n' => some '\n'
  | 'r' => some '\r'
  | 'v' => some '\x0b'
  | _ => none

/-- what stands behind a backslash -/
def escape? (spaced : Bool) : List Char → Option (Pattern × List Char)
  | [] => none
  | c :: rest =>
    if c == 'x' then (code? spaced 0 2 rest).map fun (c, rest) => (literal c true, rest)
    else if c == 'u' then (code? spaced 0 4 rest).map fun (c, rest) => (literal c false, rest)
    else if c == 'U' then (code? spaced 0 8 rest).map fun (c, rest) => (literal c false, rest)
    else if c == 'd' || c == 's' || c == 'w' then some (shorthand false, rest)
    else if c == 'D' || c == 'S' || c == 'W' then some (shorthand true, rest)
    else if c == 'A' || c == 'z' then some (anchor, rest)
    else if c == 'b' || c == 'B' || c == '<' || c == '>' then some (wordBoundary, rest)
    else if c.toNat < 128 && !c.isAlphanum then some (literal c false, rest)
    else (control? c).map fun c => (literal c false, rest)

/-- the names of sets of ASCII characters -/
def setNames : List String :=
  ["alnum", "alpha", "ascii", "blank", "cntrl", "digit", "graph", "lower", "print", "punct", "space", "upper", "word",
    "xdigit"]

/-- a named set behind its opening bracket: a name between colons, perhaps negated -/
def named? : List Char → Option (CharSet × List Char)
  | ':' :: rest => do
    let negated := rest.head? == some '^'
    let body := if negated then rest.drop 1 else rest
    let name := String.ofList (body.takeWhile (· != ':'))
    guard (setNames.contains name)
    match body.dropWhile (· != ':') with
    | ':' :: ']' :: rest => return (.named name negated, rest)
    | _ => none
  | _ => none

/-- a character or an escape in a set -/
def setAtom? (spaced : Bool) : List Char → Option (Pattern × List Char)
  | [] => none
  | '\\' :: rest => escape? spaced rest
  | c :: rest => some (literal c false, rest)

/-- a single character or shorthand as a set -/
def toSet? : Pattern → Option CharSet
  | literal c _ => some (.literal c)
  | shorthand negated => some (.shorthand negated)
  | _ => none

/-- a range of two characters, the lower one first -/
def range? : Pattern → Pattern → Option CharSet
  | literal low _, literal high _ => if low ≤ high then some (.range low high) else none
  | _, _ => none

/-- a character, a shorthand or a range in a set; a dash in front of the closing bracket or of another dash makes no
range -/
def setItem? (spaced : Bool) (text : List Char) : Option (CharSet × List Char) := do
  let (first, rest) ← setAtom? spaced text
  match skip spaced rest with
  | [] => none
  | '-' :: after =>
    let next := behindDash? spaced after
    if next == some ']' || next == some '-' then return (← toSet? first, '-' :: after)
    else
      let (last, rest) ← setAtom? spaced (skip spaced after)
      return (← range? first last, rest)
  | rest => return (← toSet? first, rest)

/-- the operator at the head of a text, written as two equal characters -/
def setOp? : List Char → Option SetOp
  | '&' :: '&' :: _ => some .intersection
  | '-' :: '-' :: _ => some .difference
  | '~' :: '~' :: _ => some .symmetricDifference
  | _ => none

/-- the right side of an operator, if one is open -/
def closeOp (pending : Option (SetOp × CharSet)) (right : CharSet) : CharSet :=
  match pending with
  | some (op, left) => .combined op left right
  | none => right

/-- dashes at the head of a set, in at most so many steps, in front of the items -/
def dashes (spaced : Bool) (items : List CharSet) : (steps : Nat) → List Char → List CharSet × List Char
  | steps + 1, '-' :: rest => dashes spaced (.literal '-' :: items) steps (skip spaced rest)
  | _, text => (items, text)

mutual

/-- a set behind its opening bracket, in at most so many steps: a caret negates it, dashes and then a closing bracket
stand for themselves at its head -/
def bracket? (steps : Nat) (spaced : Bool) (text : List Char) : Option (Bool × CharSet × List Char) :=
  match steps with
  | 0 => none
  | steps + 1 => do
    let text := skip spaced text
    let negated := text.head? == some '^'
    let text := if negated then skip spaced (text.drop 1) else text
    let (items, text) := dashes spaced [] text.length text
    let (items, text) :=
      if items.isEmpty && text.head? == some ']' then ([.literal ']'], text.drop 1) else (items, text)
    let (inner, rest) ← setFrom? steps spaced none items text
    return (negated, inner, rest)

/-- the rest of a set up to its closing bracket, with the items read so far, reversed, and the operator in front of
them -/
def setFrom? (steps : Nat) (spaced : Bool) (pending : Option (SetOp × CharSet)) (items : List CharSet)
    (text : List Char) : Option (CharSet × List Char) :=
  match steps with
  | 0 => none
  | steps + 1 =>
    let text := skip spaced text
    match setOp? text with
    | some op => setFrom? steps spaced (some (op, closeOp pending (.ofItems items))) [] (text.drop 2)
    | none =>
      match text with
      | [] => none
      | ']' :: rest => some (closeOp pending (.ofItems items), rest)
      | '[' :: rest =>
        match named? rest with
        | some (item, rest) => setFrom? steps spaced pending (item :: items) rest
        | none => do
          let (negated, inner, rest) ← bracket? steps spaced rest
          setFrom? steps spaced pending (.bracketed negated inner :: items) rest
      | _ => do
        let (item, rest) ← setItem? spaced text
        setFrom? steps spaced pending (item :: items) rest

end

/-- how a group begins -/
inductive Opening where
  | flags (change : FlagChange)
  | group (change : FlagChange) (name : Option String)

/-- the name of a group: a letter or underscore, then letters, digits, underscores, points and brackets -/
def groupName? (text : List Char) : Option (String × List Char) := do
  let name := text.takeWhile (· != '>')
  let first ← name.head?
  guard ((first == '_' || Text.isLetter first)
    && name.all fun c => c == '_' || c == '.' || c == '[' || c == ']' || Text.isLetterOrDigit c)
  match text.drop name.length with
  | _ :: rest => return (String.ofList name, rest)
  | [] => none

/-- the text behind an opening parenthesis: a name, flags, or nothing of the kind; looking around is refused -/
def opening? (text : List Char) : Option (Opening × List Char) :=
  let named (rest : List Char) : Option (Opening × List Char) :=
    (groupName? rest).map fun (name, rest) => (.group .none (some name), rest)
  match text with
  | '?' :: 'P' :: '<' :: rest => named rest
  | '?' :: '<' :: rest => named rest
  | '?' :: rest => do
    let letters := rest.takeWhile fun c => c != ':' && c != ')'
    let change ← FlagChange.ofText? letters
    match rest.drop letters.length with
    | ':' :: rest => return (.group change none, rest)
    | ')' :: rest => if letters.isEmpty then none else return (.flags change, rest)
    | _ => none
  | _ => some (.group .none none, text)

/-- what can be repeated: anything but flags -/
def isRepeatable : Pattern → Bool
  | flags _ => false
  | _ => true

/-- a pattern up to the end of the text or to a closing parenthesis, in at most so many steps. `branches` are the
alternatives read so far, `items` the parts of the one being read, both reversed; no two groups have one name. -/
def from? (steps : Nat) (spaced : Bool) (names : List String) (branches items : List Pattern) (text : List Char) :
    Option (Pattern × List String × List Char) :=
  match steps with
  | 0 => none
  | steps + 1 =>
    match skip spaced text with
    | [] => some (ofBranches (ofItems items :: branches), names, [])
    | c :: rest =>
      match c with
      | ')' => some (ofBranches (ofItems items :: branches), names, c :: rest)
      | '|' => from? steps spaced names (ofItems items :: branches) [] rest
      | '(' => do
        let (opening, rest) ← opening? (skip spaced rest)
        match opening with
        | .flags change => from? steps (change.apply .spaced spaced) names branches (flags change :: items) rest
        | .group change name =>
          guard (!name.any names.contains)
          let (inner, names, rest) ← from? steps (change.apply .spaced spaced) (name.toList ++ names) [] [] rest
          match rest with
          | [] => none
          | _ :: rest => from? steps spaced names branches (group change inner :: items) rest
      | '[' => do
        let (negated, inner, rest) ← bracket? (rest.length + 1) spaced rest
        from? steps spaced names branches (set negated inner :: items) rest
      | '\x7b' => none
      | '\\' => do
        let (p, rest) ← escape? spaced rest
        from? steps spaced names branches (p :: items) rest
      | '.' => from? steps spaced names branches (dot :: items) rest
      | c =>
        if c == '^' || c == '$' then from? steps spaced names branches (anchor :: items) rest
        else if c == '?' || c == '*' || c == '+' then
          match items with
          | [] => none
          | p :: items => do
            guard p.isRepeatable
            let rest := if rest.head? == some '?' then rest.drop 1 else rest
            from? steps spaced names branches (repeated p :: items) rest
        else from? steps spaced names branches (literal c false :: items) rest

/-- the pattern that a text means; every step takes a character -/
def ofText? (text : String) : Option Pattern := do
  let (p, _, rest) ← from? (text.length + 1) false [] [] [] text.toList
  guard rest.isEmpty
  return p

end Pattern

/-- the flags that decide what is supported -/
structure Mode where
  ignoreCase : Bool
  unicode : Bool

def FlagChange.mode (f : FlagChange) (m : Mode) : Mode :=
  ⟨f.apply .ignoreCase m.ignoreCase, f.apply .unicode m.unicode⟩

namespace CharSet

mutual

/-- how deep a set is nested -/
def depth : CharSet → Nat
  | empty | literal _ | range _ _ | named _ _ | shorthand _ => 0
  | bracketed _ inner => inner.depth + 1
  | union items => depthOfItems items + 1
  | combined _ left right => max left.depth right.depth + 1

def depthOfItems : List CharSet → Nat
  | [] => 0
  | item :: items => max item.depth (depthOfItems items)

end

mutual

/-- the set is supported where characters are read: no shorthand, and nothing at all to read in either case -/
def isSupported (ignoreCase : Bool) : CharSet → Bool
  | empty => true
  | literal _ | range _ _ | named _ _ => !ignoreCase
  | shorthand _ => false
  | bracketed _ inner => inner.isSupported ignoreCase
  | union items => areSupported ignoreCase items
  | combined _ left right => left.isSupported ignoreCase && right.isSupported ignoreCase

def areSupported (ignoreCase : Bool) : List CharSet → Bool
  | [] => true
  | item :: items => item.isSupported ignoreCase && areSupported ignoreCase items

end

mutual

/-- the set is supported where bytes are read: no part of it holds a byte beyond ASCII, so none is negated -/
def isAscii : CharSet → Bool
  | empty => true
  | literal c => c.toNat < 128
  | range _ high => high.toNat < 128
  | named _ negated | shorthand negated => !negated
  | bracketed negated inner => !negated && inner.isAscii
  | union items => areAscii items
  | combined _ left right => left.isAscii && right.isAscii

def areAscii : List CharSet → Bool
  | [] => true
  | item :: items => item.isAscii && areAscii items

end

end CharSet

namespace Pattern

mutual

/-- how deep a pattern is nested -/
def depth : Pattern → Nat
  | empty | flags _ | literal _ _ | dot | anchor | wordBoundary | shorthand _ => 0
  | set _ inner => inner.depth + 1
  | repeated p => p.depth + 1
  | group _ p => p.depth + 1
  | alternation branches => depthOfAll branches + 1
  | sequence items => depthOfAll items + 1

def depthOfAll : List Pattern → Nat
  | [] => 0
  | p :: ps => max p.depth (depthOfAll ps)

end

mutual

/-- the mode behind a pattern read in a mode, if all of it is supported -/
def modeBehind? (m : Mode) : Pattern → Option Mode
  | empty | anchor => some m
  | flags change => some (change.mode m)
  | literal c byte =>
    if m.unicode then (if m.ignoreCase then none else some m)
    else if byte && 128 ≤ c.toNat then none
    else some m
  | dot => if m.unicode then some m else none
  | wordBoundary => if m.unicode then none else some m
  | shorthand negated => if m.unicode || negated then none else some m
  | set negated inner =>
    if m.unicode then (if inner.isSupported m.ignoreCase then some m else none)
    else if !negated && inner.isAscii then some m
    else none
  | repeated p => p.modeBehind? m
  | group change p => (p.modeBehind? (change.mode m)).map fun _ => m
  | alternation branches => modeBehindAll? m branches
  | sequence items => modeBehindAll? m items

def modeBehindAll? (m : Mode) : List Pattern → Option Mode
  | [] => some m
  | p :: ps => do modeBehindAll? (← p.modeBehind? m) ps

end

/-- the pattern can be used: it is supported, and nested at most 250 deep -/
def isSupported (p : Pattern) : Bool :=
  (p.modeBehind? ⟨false, true⟩).isSome && p.depth ≤ 250

end Pattern

end EscapeTime.Log
