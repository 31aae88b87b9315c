/-
An editing session: the text last submitted, the code now shown, and a log of failures.

Submitting a text compiles it and shows the result. A text that is rejected is logged with the reason, and z^2 + c is
shown in its place. Before anything is submitted, z^2 + c is shown.
-/
import EscapeTime.FailureLog
import EscapeTime.Settings.Basic
import EscapeTime.Warning

namespace EscapeTime

structure Session where
  compiler : Compiler
  failures : FailureLog Rejection
  source : String
  current : Emitted
  deriving DecidableEq

namespace Session

/-- a session in which nothing was submitted yet -/
def start (s : Settings) : Session :=
  { compiler := s.compiler
    failures := .withCapacity s.failureCapacity
    source := "z^2 + c"
    current := s.compiler.emitted .mandelbrot }

/-- submit a text -/
def submit (s : Session) (source : String) : Session :=
  let emitted := s.compiler.compile source
  { s with
    failures := match emitted.fallback with
      | some error => s.failures.push source error
      | none => s.failures
    source := source
    current := emitted }

/-- look at a text without submitting it -/
def check (_ : Session) (source : String) : Option Warning :=
  validate source

/-- the code shown is not that of the text submitted -/
def showsFallback (s : Session) : Bool :=
  s.current.isFallback

end Session

end EscapeTime
