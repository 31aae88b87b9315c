/-
Log filters.

A filter is a list of directives, each a level, perhaps for one target. In its text directives are separated by commas:
`level` for all targets, `target=level` for one, and `target` alone for all of its lines. Behind the target a directive
may ask in square brackets for a span, for a field in braces, or for both. The directives of a filter are sorted: those
for a target come first, longer targets before shorter ones; of two for the same lines the later one counts. A line
passes if the first directive that speaks about it lets its level through; a directive that asks for a span or for the
value of a field speaks about none of the lines here, which are written outside of all spans.
-/
import EscapeTime.Log.Field

namespace EscapeTime.Log

/-- how much is let through, from nothing to everything -/
inductive Level where
  | off
  | error
  | warn
  | info
  | debug
  | trace
  deriving DecidableEq

namespace Level

def all : List Level :=
  [off, error, warn, info, debug, trace]

def name : Level → String
  | off => "off"
  | error => "error"
  | warn => "warn"
  | info => "info"
  | debug => "debug"
  | trace => "trace"

def rank : Level → Nat
  | off => 0
  | error => 1
  | warn => 2
  | info => 3
  | debug => 4
  | trace => 5

/-- the level that a text means: a name in any case, or a rank in digits -/
def ofText? (text : String) : Option Level :=
  let digits := match text.toList with
    | '+' :: rest => rest
    | chars => chars
  if !digits.isEmpty && digits.all Char.isDigit then
    all.find? (·.rank == Nat.ofDigitChars 10 digits 0)
  else all.find? (·.name.toList == text.toList.map Char.toLower)

end Level

/-- a level, perhaps for one target only, for one span, or for lines with one field -/
structure Directive where
  target : Option String
  span : Option String
  field : Option Field
  level : Level
  deriving DecidableEq

namespace Directive

/-- what is being read of a directive, with the offset at which it began -/
inductive Part where
  | nothing
  | levelOrTarget
  | span (start : Nat)
  | field (start : Nat)
  | behindField
  | behindSpan
  | level (start : Nat)

/-- a target may begin with the character -/
def startsTarget (c : Char) : Bool :=
  Text.isLetterOrDigit c || c == '-' || c == ':' || c == '_'

/-- the text between two offsets in bytes -/
def cut? (text : String) (start stop : Nat) : Option String :=
  String.fromUTF8? (text.toUTF8.extract start stop)

/-- read on over a character at an offset -/
def step? (text : String) (d : Directive) (part : Part) (offset : Nat) (c : Char) : Option (Directive × Part) :=
  match part, c with
  | .nothing, '[' => some (d, .span (offset + 1))
  | .nothing, c => if startsTarget c then some (d, .levelOrTarget) else none
  | .levelOrTarget, '=' => do return ({ d with target := some (← cut? text 0 offset) }, .level (offset + 1))
  | .levelOrTarget, '[' => do return ({ d with target := some (← cut? text 0 offset) }, .span (offset + 1))
  | .levelOrTarget, _ => some (d, part)
  | .span start, ']' => do return ({ d with span := some (← cut? text start offset) }, .behindSpan)
  | .span start, '\x7b' => do
    let name ← cut? text start offset
    return ({ d with span := if name.isEmpty then none else some name }, .field (offset + 1))
  | .span _, _ => some (d, part)
  | .field start, '\x7d' => do
    return ({ d with field := some (← Field.ofText? (← cut? text start offset)) }, .behindField)
  | .field _, _ => some (d, part)
  | .behindField, ']' => some (d, .behindSpan)
  | .behindSpan, '=' => some (d, .level (offset + 1))
  | .level _, _ => some (d, part)
  | _, _ => none

/-- read on over the characters from an offset on -/
def stepsFrom? (text : String) (d : Directive) (part : Part) (offset : Nat) : List Char → Option (Directive × Part)
  | [] => some (d, part)
  | c :: rest => do
    let (d, part) ← step? text d part offset c
    stepsFrom? text d part (offset + c.utf8Size) rest

/-- a text without the blanks around it -/
def trimmed (text : List Char) : List Char :=
  ((text.dropWhile Text.isWhiteSpace).reverse.dropWhile Text.isWhiteSpace).reverse

/-- the directive that a text means; nothing behind the equals sign means everything. Blanks around the text are passed
over while its parts are told apart, but they count when a part is cut out: what blanks stand around is no level. -/
def ofText? (text : String) : Option Directive := do
  let everything : Directive := ⟨none, none, none, .trace⟩
  match ← stepsFrom? text everything .nothing 0 (trimmed text.toList) with
  | (d, .levelOrTarget) =>
    match Level.ofText? text with
    | some level => return { d with level := level }
    | none => return { d with target := some text }
  | (d, .level start) =>
    let level ← cut? text start text.utf8ByteSize
    if level.isEmpty then return d else return { d with level := ← Level.ofText? level }
  | (d, .behindSpan) => return d
  | _ => none

/-- the directive is about spans, and perhaps about lines too -/
def isDynamic (d : Directive) : Bool :=
  d.span.isSome || d.field.isSome

/-- the directive is about lines: it asks neither for a span nor for the value of a field -/
def isStatic (d : Directive) : Bool :=
  d.span.isNone && d.field.all (·.value.isNone)

/-- nothing comes before something, which is ordered by `among` -/
def orderOption {α : Type} (among : α → α → Ordering) : Option α → Option α → Ordering
  | none, none => .eq
  | none, some _ => .lt
  | some _, none => .gt
  | some a, some b => among a b

def orderText (s t : String) : Ordering :=
  if s < t then .lt else if t < s then .gt else .eq

/-- from the least to the most special directive: by the length of the target, then by whether there is a span, then a
field; last the target, the span or the field itself decides -/
def order (a b : Directive) : Ordering :=
  let size (t : Option String) : Nat := t.elim 0 (·.utf8ByteSize + 1)
  (compare (size a.target) (size b.target)).then
    ((compare a.span.isSome.toNat b.span.isSome.toNat).then
      ((compare a.field.isSome.toNat b.field.isSome.toNat).then
        ((orderOption orderText a.target b.target).then
          ((orderOption orderText a.span b.span).then (orderOption Field.order a.field b.field)))))

/-- the directive speaks about lines of a target with certain fields -/
def covers (d : Directive) (target : String) (fields : List String) : Bool :=
  d.target.all (fun t => t.toList.isPrefixOf target.toList) && d.field.all fun f => fields.contains f.name

/-- what stands in front of the level -/
def scope (d : Directive) : String :=
  let field := match d.field with
    | some f => "\x7b" ++ f.text ++ "\x7d"
    | none => ""
  d.target.getD "" ++ (if d.isDynamic then "[" ++ d.span.getD "" ++ field ++ "]" else "")

def text (d : Directive) : String :=
  if d.target.isSome || d.isDynamic then d.scope ++ "=" ++ d.level.name else d.level.name

end Directive

/-- the directives about lines and those about spans, each in the order in which they are consulted -/
structure Filter where
  directives : List Directive
  spanDirectives : List Directive
  deriving DecidableEq

namespace Filter

/-- put a directive in its place, more special ones first; it replaces one for the same lines -/
def insert (sorted : List Directive) (d : Directive) : List Directive :=
  match sorted with
  | [] => [d]
  | e :: rest =>
    match d.order e with
    | .eq => d :: rest
    | .gt => d :: e :: rest
    | .lt => e :: insert rest d

/-- the filter that a text means. A directive that asks for a field only, whatever its value, is both about lines and
about spans. -/
def ofText? (text : String) : Option Filter := do
  let pieces := (text.splitOn ",").filter (!·.isEmpty)
  let found ← pieces.mapM Directive.ofText?
  let dynamic := found.filter Directive.isDynamic
  let static := found.filter (!·.isDynamic) ++ dynamic.filter Directive.isStatic
  return ⟨static.foldl insert [], dynamic.foldl insert []⟩

def text (f : Filter) : String :=
  ",".intercalate ((f.directives ++ f.spanDirectives).map Directive.text)

/-- the first candidate that is a filter; warnings only if none is -/
def choose (candidates : List String) : Filter :=
  (candidates.findSome? ofText?).getD ⟨[⟨none, none, none, .warn⟩], []⟩

/-- lines of a target and level with certain fields pass -/
def allows (f : Filter) (target : String) (fields : List String) (level : Level) : Bool :=
  match f.directives.find? (·.covers target fields) with
  | some d => level.rank ≤ d.level.rank
  | none => false

end Filter

end EscapeTime.Log
