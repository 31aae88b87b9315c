/-
Settings of a session: how code is emitted, how many failures are kept, and what is logged.
-/
import EscapeTime.Compiler

namespace EscapeTime

structure Settings where
  bindings : Bindings := {}
  appendConstant : Bool := true
  expandSmallPowers : Bool := true
  failureCapacity : Nat := 50
  logLevel : String := "warn"
  deriving DecidableEq

/-- the compiler that the settings describe -/
def Settings.compiler (s : Settings) : Compiler :=
  ⟨⟨s.bindings, s.expandSmallPowers⟩, s.appendConstant⟩

end EscapeTime
