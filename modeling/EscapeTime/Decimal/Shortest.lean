/-
The shortest decimal that reads back as a given binary64 value.

Every finite value is an exact decimal: a value of `u` units is `u * 5^1074` scaled by 10^-1074. Dropping the last
`k` digits of that coefficient leaves two neighbours on the grid 10^(k-1074), one below and one above the value. The
search drops as many digits as it can: starting from one leading digit it takes the first grid on which a neighbour
reads back as the value, the nearer neighbour if both do. On the finest grid the exact decimal itself is left, so the
search always ends with a decimal that reads back.
-/
import EscapeTime.Decimal.Basic

namespace EscapeTime.Decimal

/-- which of two equally near neighbours is taken -/
inductive Tie where
  | up
  | toEven
  deriving DecidableEq

/-- the coefficient, over 10^-1074, of the value with magnitude `n` -/
def exactCoefficient (n : Nat) : Nat :=
  Binary64.units n * Nat.pow 5 1074

/-- the exact decimal of the value with magnitude `n` -/
def exact (n : Nat) : Decimal :=
  ⟨exactCoefficient n, -1074⟩

/-- `d` denotes the value with magnitude `n` after rounding -/
def readsBack (n : Nat) (d : Decimal) : Bool :=
  d.toBinary64.magnitude == n

/-- the neighbour to take when `rest` of `10 ^ dropped` has been cut off, both neighbours reading back -/
def nearer (tie : Tie) (low up : Decimal) (rest dropped : Nat) : Decimal :=
  if 2 * rest < Nat.pow 10 dropped then low
  else if Nat.pow 10 dropped < 2 * rest then up
  else match tie with
    | .up => up
    | .toEven => if low.coefficient % 2 = 0 then low else up

/-- the decimal for magnitude `n` on the grid that drops the last `dropped` digits, if one reads back -/
def onGrid? (tie : Tie) (n dropped : Nat) : Option Decimal :=
  let kept := exactCoefficient n / Nat.pow 10 dropped
  let low : Decimal := ⟨kept, (dropped : Int) - 1074⟩
  let up : Decimal := ⟨kept + 1, (dropped : Int) - 1074⟩
  match readsBack n low, readsBack n up with
  | true, true => some (nearer tie low up (exactCoefficient n % Nat.pow 10 dropped) dropped)
  | true, false => some low
  | false, true => some up
  | false, false => none

/-- the first grid that serves, from `dropped` digits down to none -/
def search (tie : Tie) (n : Nat) : (dropped : Nat) → Decimal
  | 0 => exact n
  | k + 1 =>
    match onGrid? tie n (k + 1) with
    | some d => d
    | none => search tie n k

/-- the decimal with the fewest digits that reads back as the value of magnitude `n` -/
def shortest (tie : Tie) (n : Nat) : Decimal :=
  search tie n ((Nat.toDigits 10 (exactCoefficient n)).length - 1)

end EscapeTime.Decimal
