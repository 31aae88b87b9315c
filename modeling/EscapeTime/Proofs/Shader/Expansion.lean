/-
Small powers as products: the code changes, its value does not.

An `Interpretation` gives a meaning to everything that emitted code is built from, on any carrier. `Expr.value` is the
value of an equation under it, with every power a call of the power function, and `Computation.value` that of a
computation. Nothing is assumed of the operations but, where it is said, that the power function agrees with the
products that stand for squares and cubes (`SmallPowers`).

- `value_powered`: a power has the value of the power function, be it written as a product or not.
- `value_ofExpr`: so a computation has the value of its equation, with expansion as without it.
- `ofExpr_expand_eq_iff`: the two computations are one and the same exactly when no small power occurs.
- `expansion_keeps_value`: both of the texts that are emitted.
-/
import EscapeTime.Proofs.Shader.Readability

namespace EscapeTime

universe u

/-- a meaning for variables, literals and all operations of emitted code -/
structure Interpretation (α : Type u) where
  var : Variable → α
  literal : Binary64 → α
  neg : α → α
  abs : α → α
  conj : α → α
  add : α → α → α
  sub : α → α → α
  cmul : α → α → α
  cdiv : α → α → α
  cpow : α → α → α
  apply : Elementary → α → α

variable {α : Type u}

/-- the power function gives squares and cubes as products -/
structure Interpretation.SmallPowers (I : Interpretation α) : Prop where
  square (x : α) : I.cpow x (I.literal .two) = I.cmul x x
  cube (x : α) : I.cpow x (I.literal .three) = I.cmul (I.cmul x x) x

namespace Computation

/-- what a computation amounts to -/
def value (I : Interpretation α) : Computation → α
  | var v => I.var v
  | number x => I.literal x
  | neg a => I.neg (a.value I)
  | abs a => I.abs (a.value I)
  | conj a => I.conj (a.value I)
  | add a b => I.add (a.value I) (b.value I)
  | sub a b => I.sub (a.value I) (b.value I)
  | mul a b => I.cmul (a.value I) (b.value I)
  | div a b => I.cdiv (a.value I) (b.value I)
  | pow a b => I.cpow (a.value I) (b.value I)
  | apply f a => I.apply f (a.value I)

end Computation

namespace Interpretation

/-- what an operator means; a power is a call of the power function -/
def operation (I : Interpretation α) : BinaryOp → α → α → α
  | .add => I.add
  | .sub => I.sub
  | .mul => I.cmul
  | .div => I.cdiv
  | .pow => I.cpow

/-- what a function means; both logarithms are one -/
def function (I : Interpretation α) : Func → α → α
  | .abs => I.abs
  | .conj => I.conj
  | .sin => I.apply .sin
  | .cos => I.apply .cos
  | .tan => I.apply .tan
  | .exp => I.apply .exp
  | .sqrt => I.apply .sqrt
  | .log | .ln => I.apply .log

end Interpretation

namespace Expr

/-- what an equation amounts to -/
def value (I : Interpretation α) : Expr → α
  | var v => I.var v
  | number x => I.literal x
  | unary .pos e => e.value I
  | unary .neg e => I.neg (e.value I)
  | binary op l r => I.operation op (l.value I) (r.value I)
  | call f e => I.function f (e.value I)
  | modulus e => I.abs (e.value I)

/-- a small power occurs -/
def HasSmallPower : Expr → Prop
  | var _ | number _ => False
  | unary _ e | call _ e | modulus e => e.HasSmallPower
  | binary .pow l r => IsSmallPower l r ∨ l.HasSmallPower ∨ r.HasSmallPower
  | binary _ l r => l.HasSmallPower ∨ r.HasSmallPower

end Expr

namespace Computation

variable {expand : Bool}

/-! ## One power -/

/-- a power has the value of the power function, if `b` is the literal wherever the exponent is one -/
theorem value_powered {I : Interpretation α} (hI : expand = true → I.SmallPowers) (l r : Expr) (a b : Computation)
    (hb : ∀ x, r = .number x → b.value I = I.literal x) :
    (powered expand l r a b).value I = I.cpow (a.value I) (b.value I) := by
  cases hpower : Expr.smallPower? expand l r with
  | none => rw [powered, hpower, value]
  | some p =>
    obtain ⟨hexpand, _, hexponent⟩ := Expr.smallPower?_eq_some_iff.1 hpower
    rw [powered, hpower, hb _ hexponent]
    cases p with
    | square => exact ((hI hexpand).square _).symm
    | cube => exact ((hI hexpand).cube _).symm

/-- a power that is expanded is no call of the power function -/
theorem powered_eq_pow_iff {l r : Expr} {a b a' b' : Computation} :
    powered expand l r a b = pow a' b' ↔ ¬ (expand = true ∧ Expr.IsSmallPower l r) ∧ a = a' ∧ b = b' := by
  rw [← Expr.smallPower?_eq_none_iff]
  cases hpower : Expr.smallPower? expand l r with
  | none => simp [powered, hpower]
  | some p => cases p <;> simp [powered, hpower]

/-! ## Whole equations -/

theorem value_applied (I : Interpretation α) (f : Func) (a : Computation) :
    (applied f a).value I = I.function f (a.value I) := by
  cases f <;> rfl

/-- **A computation has the value of its equation**, whether small powers are expanded or not. -/
theorem value_ofExpr {I : Interpretation α} (hI : expand = true → I.SmallPowers) (e : Expr) :
    (ofExpr expand e).value I = e.value I := by
  induction e with
  | var v => rfl
  | number x => rfl
  | unary sign e ih =>
    cases sign with
    | pos => exact ih
    | neg => rw [ofExpr, value, ih, Expr.value]
  | binary op l r ihl ihr =>
    rw [Expr.value, ← ihl, ← ihr]
    cases op with
    | add | sub | mul | div => rfl
    | pow =>
      refine value_powered hI l r _ _ fun x hx => ?_
      rw [hx]
      rfl
  | call f e ih => rw [ofExpr, value_applied, ih, Expr.value]
  | modulus e ih => rw [ofExpr, value, ih, Expr.value]

theorem applied_inj (f : Func) {a b : Computation} : applied f a = applied f b ↔ a = b := by
  cases f <;> simp [applied]

/-- the two computations are the same exactly when no small power occurs -/
theorem ofExpr_expand_eq_iff (e : Expr) : ofExpr true e = ofExpr false e ↔ ¬ e.HasSmallPower := by
  induction e with
  | var v => simp [ofExpr, Expr.HasSmallPower]
  | number x => simp [ofExpr, Expr.HasSmallPower]
  | unary sign e ih =>
    cases sign with
    | pos => exact ih
    | neg => simpa [ofExpr, Expr.HasSmallPower] using ih
  | binary op l r ihl ihr =>
    cases op with
    | add | sub | mul | div => simp [ofExpr, Expr.HasSmallPower, ihl, ihr, not_or]
    | pow =>
      have hplain : ofExpr false (.binary .pow l r) = pow (ofExpr false l) (ofExpr false r) := rfl
      rw [hplain, ofExpr, powered_eq_pow_iff, ihl, ihr]
      simp only [Expr.HasSmallPower, not_or, true_and]
  | call f e ih => exact (applied_inj f).trans ih
  | modulus e ih => simpa [ofExpr, Expr.HasSmallPower] using ih

end Computation

/-! ## Emitted code -/

namespace Emitter

/-- **Expanding small powers does not change the value.** The texts that are emitted with and without expansion are the
code of two computations. The plain one has the value of the equation under every interpretation, and the expanded one
has this value too wherever the power function gives squares and cubes as products. They are the same computation
exactly when no small power occurs, and then the two texts are the same. -/
theorem expansion_keeps_value (m : Emitter) (e : Expr) :
    (∃ expanded plain : Computation,
      ({ m with expandSmallPowers := true } : Emitter).emit e = expanded.code m.bindings ∧
      ({ m with expandSmallPowers := false } : Emitter).emit e = plain.code m.bindings ∧
      (∀ (α : Type u) (I : Interpretation α), plain.value I = e.value I) ∧
      (∀ (α : Type u) (I : Interpretation α), I.SmallPowers → expanded.value I = plain.value I) ∧
      (expanded = plain ↔ ¬ e.HasSmallPower)) ∧
    (¬ e.HasSmallPower →
      ({ m with expandSmallPowers := true } : Emitter).emit e =
        ({ m with expandSmallPowers := false } : Emitter).emit e) := by
  have hplain : ∀ (α : Type u) (I : Interpretation α), (Computation.ofExpr false e).value I = e.value I :=
    fun α I => Computation.value_ofExpr (by simp) e
  have hsame := Computation.ofExpr_expand_eq_iff e
  refine ⟨⟨Computation.ofExpr true e, Computation.ofExpr false e, rfl, rfl, hplain, fun α I hI => ?_, hsame⟩, ?_⟩
  · rw [hplain α I]
    exact Computation.value_ofExpr (fun _ => hI) e
  · exact fun hsmall => congrArg (Computation.code m.bindings) (hsame.2 hsmall)

/-- whole numbers with their powers; z is 5 and c is 7 -/
def wholeNumbers : Interpretation ℤ where
  var v := if v = .z then 5 else 7
  literal x := if x = .two then 2 else if x = .three then 3 else 0
  neg x := -x
  abs x := |x|
  conj x := x
  add := (· + ·)
  sub := (· - ·)
  cmul := (· * ·)
  cdiv := (· / ·)
  cpow x y := x ^ y.toNat
  apply _ x := x

theorem smallPowers_wholeNumbers : wholeNumbers.SmallPowers where
  square x := pow_two x
  cube x := pow_three' x

/-- `|z|^3 - (z^2)^2`: two small powers, and one that is none as its base `z^2` is not repeatable -/
def cubeAndSquares : Expr :=
  .binary .sub (.binary .pow (.modulus (.var .z)) (.number .three))
    (.binary .pow (.binary .pow (.var .z) (.number .two)) (.number .two))

/-- the products are written for the two small powers, and the value stays 5^3 - 25^2; `(z + c)^2` has no small power -/
theorem expansion_keeps_value_nested :
    (∃ expanded plain : Computation,
      expanded.code {} = "(cmul(cmul(abs(z), abs(z)), abs(z)) - cpow(cmul(z, z), vec2(2.0, 0.0)))" ∧
      plain.code {} = "(cpow(abs(z), vec2(3.0, 0.0)) - cpow(cpow(z, vec2(2.0, 0.0)), vec2(2.0, 0.0)))" ∧
      expanded.value wholeNumbers = -500 ∧ plain.value wholeNumbers = -500) ∧
    ¬ (Expr.binary .pow (.binary .add (.var .z) (.var .c)) (.number .two)).HasSmallPower ∧
    ({} : Emitter).emit (.binary .pow (.binary .add (.var .z) (.var .c)) (.number .two)) =
      ({ expandSmallPowers := false } : Emitter).emit
        (.binary .pow (.binary .add (.var .z) (.var .c)) (.number .two)) := by
  have hexpanded : ({} : Emitter).emit cubeAndSquares =
      "(cmul(cmul(abs(z), abs(z)), abs(z)) - cpow(cmul(z, z), vec2(2.0, 0.0)))" := by decide +kernel
  have hplain : ({ expandSmallPowers := false } : Emitter).emit cubeAndSquares =
      "(cpow(abs(z), vec2(3.0, 0.0)) - cpow(cpow(z, vec2(2.0, 0.0)), vec2(2.0, 0.0)))" := by decide +kernel
  have hnone : ¬ (Expr.binary .pow (.binary .add (.var .z) (.var .c)) (.number .two)).HasSmallPower := by
    simp [Expr.HasSmallPower, Expr.IsSmallPower, repeatable_iff, Expr.isCheap, Expr.isLeaf]
  obtain ⟨expanded, plain, hcode, hcode', hvalue, hsame, _⟩ := (expansion_keeps_value {} cubeAndSquares).1
  have hplainValue : plain.value wholeNumbers = -500 := (hvalue ℤ wholeNumbers).trans (by decide)
  refine ⟨⟨expanded, plain, hcode.symm.trans hexpanded, hcode'.symm.trans hplain, ?_, hplainValue⟩, hnone, ?_⟩
  · exact (hsame ℤ wholeNumbers smallPowers_wholeNumbers).trans hplainValue
  · exact (expansion_keeps_value.{0} {} _).2 hnone

end Emitter

end EscapeTime
