/-
What compiling an equation logs.

Reading an equation logs how many tokens it has, compiling it whether it depends on z, and every emission how long the
code is. A rejected equation is logged as a warning, in front of the emission of z^2 + c.
-/
import EscapeTime.Compiler
import EscapeTime.Log.Filter
import EscapeTime.Text.Quoted

namespace EscapeTime.Log

inductive Event where
  | tokenized (tokens : Nat)
  | independentOfIterate (source : String)
  | rejected (error : Rejection) (source : String)
  | emitted (bytes : Nat)

namespace Event

/-- the target of all events -/
def target : String :=
  "fractaleq::equation"

def level : Event → Level
  | rejected _ _ => .warn
  | _ => .debug

/-- the names of the fields -/
def fields : Event → List String
  | tokenized _ => ["message", "tokens"]
  | independentOfIterate _ => ["message", "source"]
  | rejected _ _ => ["message", "kind", "position", "source"]
  | emitted _ => ["message", "len"]

/-- message and fields -/
def text : Event → String
  | tokenized tokens => "tokenized equation tokens=" ++ toString tokens
  | independentOfIterate source => "equation does not depend on z source=" ++ Text.quote source
  | rejected error source =>
    "equation rejected, using default: " ++ Text.terminalSafe error.cause.message ++
      " kind=" ++ error.cause.kind.name ++
      " position=" ++ toString error.position ++ " source=" ++ Text.quote source
  | emitted bytes => "emitted equation len=" ++ toString bytes

/-- level, message and fields -/
def line (e : Event) : String :=
  String.ofList (e.level.name.toList.map Char.toUpper) ++ " " ++ e.text

/-- the event passes a filter -/
def passes (f : Filter) (e : Event) : Bool :=
  f.allows target e.fields e.level

end Event

/-- the events of reading an equation -/
def parseEvents (source : String) : List Event :=
  match tokenize source with
  | .ok tokens => [.tokenized tokens.length]
  | .error _ => []

/-- the event of emitting code -/
def emission (e : Emitted) : Event :=
  .emitted e.code.utf8ByteSize

/-- the events of compiling an equation strictly -/
def strictEvents (k : Compiler) (source : String) : List Event :=
  parseEvents source ++
    match parse source with
    | .error _ => []
    | .ok e =>
      (if e.references .z then [] else [.independentOfIterate source]) ++ [emission (k.emitted (k.complete e))]

/-- the events of compiling an equation with z^2 + c to fall back on -/
def compileEvents (k : Compiler) (source : String) : List Event :=
  strictEvents k source ++
    match k.compileStrict source with
    | .ok _ => []
    | .error error => [.rejected error source, emission (k.fallback error)]

end EscapeTime.Log
