/-
Compiling an equation into shader code.

A compiler completes an equation with a final "+ c" if set to, when the equation does not end in one. `compileStrict`
rejects what is no equation; `compile` never fails: it puts the code of z^2 + c in place of a rejected one, and keeps
the reason.
-/
import EscapeTime.Grammar.Parser
import EscapeTime.Shader.Computation

namespace EscapeTime

/-- emitted code, the helpers it calls, and the reason if it stands in for a rejected equation -/
structure Emitted where
  code : String
  helpers : List Helper
  fallback : Option Rejection
  deriving DecidableEq

/-- the code stands in for a rejected equation -/
def Emitted.isFallback (e : Emitted) : Bool :=
  e.fallback.isSome

structure Compiler where
  emitter : Emitter := {}
  appendConstant : Bool := true
  deriving DecidableEq

namespace Compiler

/-- the equation with its final "+ c" -/
def complete (k : Compiler) (e : Expr) : Expr :=
  if k.appendConstant && !e.endsWithConstant then .binary .add e (.var .c) else e

/-- the code of an equation as it stands -/
def emitted (k : Compiler) (e : Expr) : Emitted :=
  ⟨k.emitter.emit e, k.emitter.helpers e, none⟩

/-- the code of an equation, or why it is rejected -/
def compileStrict (k : Compiler) (source : String) : Except Rejection Emitted :=
  (parse source).map fun e => k.emitted (k.complete e)

/-- the code that stands in for a rejected equation -/
def fallback (k : Compiler) (error : Rejection) : Emitted :=
  { k.emitted .mandelbrot with fallback := some error }

/-- the code of an equation, or that of z^2 + c with the reason -/
def compile (k : Compiler) (source : String) : Emitted :=
  match k.compileStrict source with
  | .ok e => e
  | .error error => k.fallback error

end Compiler

end EscapeTime
