/-
Powers that are written as products.

With expansion, the square and the cube of a base that may be written several times become products; every other power
is a call of the power function. `Expr.smallPower?` decides which. Its two results are characterised once, and whatever
is said of powers elsewhere goes by them:

- `smallPower?_eq_some_iff`: the base is repeatable, and the exponent is the literal that belongs to the product.
- `smallPower?_eq_none_iff`: small powers are not expanded, or this is none (`IsSmallPower`).
-/
import Mathlib.Tactic
import EscapeTime.Shader.Computation

namespace EscapeTime

/-- a leaf, or the absolute value, conjugate or modulus of a leaf -/
inductive Repeatable : Expr → Prop where
  | var (v : Variable) : Repeatable (.var v)
  | number (x : Binary64) : Repeatable (.number x)
  | abs {e} (h : e.isLeaf = true) : Repeatable (.call .abs e)
  | conj {e} (h : e.isLeaf = true) : Repeatable (.call .conj e)
  | modulus {e} (h : e.isLeaf = true) : Repeatable (.modulus e)

theorem repeatable_iff (e : Expr) : Repeatable e ↔ e.isCheap = true := by
  constructor
  · rintro (_ | _ | h | h | h)
    · rfl
    · rfl
    all_goals exact h
  · intro h
    unfold Expr.isCheap at h
    split at h
    · exact .abs h
    · exact .conj h
    · exact .modulus h
    · cases e with
      | var v => exact .var v
      | number x => exact .number x
      | _ => cases h

/-- the literal that the exponent is -/
def SmallPower.exponent : SmallPower → Binary64
  | square => .two
  | cube => .three

namespace Expr

/-- a power that may be written as a product: the base is repeatable, the exponent the literal 2 or 3 -/
def IsSmallPower (base exponent : Expr) : Prop :=
  Repeatable base ∧ (exponent = .number .two ∨ exponent = .number .three)

variable {expand : Bool} {base exponent : Expr} {p : SmallPower}

theorem smallPower?_eq_some_iff :
    smallPower? expand base exponent = some p ↔
      expand = true ∧ Repeatable base ∧ exponent = .number p.exponent := by
  rw [← and_assoc, repeatable_iff, ← Bool.and_eq_true, smallPower?]
  split_ifs with hcheap htwo hthree
  · cases p <;> simp [hcheap, htwo, SmallPower.exponent, Binary64.two, Binary64.three]
  · cases p <;> simp [hcheap, hthree, SmallPower.exponent, Binary64.two, Binary64.three]
  · cases p <;> simp [hcheap, htwo, hthree, SmallPower.exponent]
  · simp [hcheap]

theorem smallPower?_eq_none_iff :
    smallPower? expand base exponent = none ↔ ¬ (expand = true ∧ IsSmallPower base exponent) := by
  rw [Option.eq_none_iff_forall_ne_some]
  constructor
  · rintro hnone ⟨hexpand, hbase, htwo | hthree⟩
    · exact hnone .square (smallPower?_eq_some_iff.2 ⟨hexpand, hbase, htwo⟩)
    · exact hnone .cube (smallPower?_eq_some_iff.2 ⟨hexpand, hbase, hthree⟩)
  · intro hnot p hsome
    obtain ⟨hexpand, hbase, hexponent⟩ := smallPower?_eq_some_iff.1 hsome
    cases p with
    | square => exact hnot ⟨hexpand, hbase, .inl hexponent⟩
    | cube => exact hnot ⟨hexpand, hbase, .inr hexponent⟩

end Expr

end EscapeTime
