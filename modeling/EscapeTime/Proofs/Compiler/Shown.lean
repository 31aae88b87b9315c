/-
What the compiler shows for a text.

For every text there is one equation whose code is shown (`Compiler.shown`): the equation that the text is, completed,
or z^2 + c where the text is none. `compile_eq` says all there is to say about a compilation in these terms.

- `parse_defaultText`: the text z^2 + c is the tree that stands in for rejected equations, so the code put in place is
  the one that this text compiles to (`compileStrict_defaultText`).
- `shown_eq_complete`: what is shown is always a completed equation, also when it stands in for another one.
-/
import Mathlib.Tactic
import EscapeTime.Compiler

namespace EscapeTime

/-- why a text is no equation -/
def rejection? (source : String) : Option Rejection :=
  match parse source with
  | .ok _ => none
  | .error r => some r

namespace Compiler

/-- the equation whose code is shown for a text -/
def shown (k : Compiler) (source : String) : Expr :=
  match parse source with
  | .ok e => k.complete e
  | .error _ => .mandelbrot

theorem compileStrict_of_ok {source : String} {e : Expr} (h : parse source = .ok e) (k : Compiler) :
    k.compileStrict source = .ok (k.emitted (k.complete e)) := by
  rw [compileStrict, h]
  rfl

theorem compileStrict_of_error {source : String} {r : Rejection} (h : parse source = .error r) (k : Compiler) :
    k.compileStrict source = .error r := by
  rw [compileStrict, h]
  rfl

/-- a compilation is the code of the equation shown, the helpers it calls, and the reason if there is one -/
theorem compile_eq (k : Compiler) (source : String) :
    k.compile source = ⟨k.emitter.emit (k.shown source), k.emitter.helpers (k.shown source), rejection? source⟩ := by
  cases h : parse source with
  | ok e =>
    simp only [compile, compileStrict_of_ok h, emitted, shown, rejection?, h]
  | error r =>
    simp only [compile, compileStrict_of_error h, fallback, emitted, shown, rejection?, h]

/-- z^2 + c needs no completion -/
theorem complete_mandelbrot (k : Compiler) : k.complete .mandelbrot = .mandelbrot := by
  simp [complete, Expr.mandelbrot, Expr.endsWithConstant]

/-- what is shown is a completed equation -/
theorem shown_eq_complete (k : Compiler) (source : String) : ∃ e, k.shown source = k.complete e := by
  cases h : parse source with
  | ok e => exact ⟨e, by simp only [shown, h]⟩
  | error r => exact ⟨.mandelbrot, by simp only [shown, h, complete_mandelbrot]⟩

end Compiler

/-! ## The text that is shown by default -/

/-- the text z^2 + c is the tree that stands in for rejected equations -/
theorem parse_defaultText : parse "z^2 + c" = .ok .mandelbrot := by
  decide +kernel

theorem Compiler.compileStrict_defaultText (k : Compiler) :
    k.compileStrict "z^2 + c" = .ok (k.emitted .mandelbrot) := by
  rw [k.compileStrict_of_ok parse_defaultText, k.complete_mandelbrot]

end EscapeTime
