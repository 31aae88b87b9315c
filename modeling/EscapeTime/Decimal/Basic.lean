/-
Decimals: a coefficient scaled by a power of ten.

A decimal is read from a numeral (digits with at most one point), converted to the nearest binary64 value, and laid
out either positionally (`wholeDigits`, `fractionDigits`) or in scientific form (`significantDigits`, `pointOffset`).
Neither layout depends on trailing zeros of the coefficient.
-/
import EscapeTime.Binary64.Rounding

namespace EscapeTime

/-- the number `coefficient * 10 ^ exponent` -/
structure Decimal where
  coefficient : Nat
  exponent : Int
  deriving DecidableEq

/-- digits without the zeros at their end -/
def trimZeros (digits : List Char) : List Char :=
  (digits.reverse.dropWhile (· == '0')).reverse

/-- digits filled up with zeros on the left to at least `width` -/
def padZeros (width : Nat) (digits : List Char) : List Char :=
  List.replicate (width - digits.length) '0' ++ digits

namespace Decimal

/-- the decimal that a numeral denotes: digits, then optionally a point and further digits -/
def ofNumeral (text : List Char) : Decimal :=
  let fraction := (text.dropWhile Char.isDigit).drop 1
  ⟨Nat.ofDigitChars 10 (text.takeWhile Char.isDigit ++ fraction) 0, -(fraction.length : Int)⟩

/-- the nearest binary64 value -/
def toBinary64 (d : Decimal) : Binary64 :=
  if 0 ≤ d.exponent then Binary64.ofRatio (d.coefficient * Nat.pow 10 d.exponent.toNat) 1
  else Binary64.ofRatio d.coefficient (Nat.pow 10 (-d.exponent).toNat)

/-- the digits left of the point; a lone zero when there are none -/
def wholeDigits (d : Decimal) : List Char :=
  if 0 ≤ d.exponent then Nat.toDigits 10 (d.coefficient * Nat.pow 10 d.exponent.toNat)
  else Nat.toDigits 10 (d.coefficient / Nat.pow 10 (-d.exponent).toNat)

/-- the digits right of the point, without trailing zeros -/
def fractionDigits (d : Decimal) : List Char :=
  let places := (-d.exponent).toNat
  trimZeros (padZeros places (Nat.toDigits 10 (d.coefficient % Nat.pow 10 places)))

/-- the digits of the coefficient, without trailing zeros -/
def significantDigits (d : Decimal) : List Char :=
  trimZeros (Nat.toDigits 10 d.coefficient)

/-- the number of places from the first digit of the coefficient to the point: `k` with 10^(k-1) ≤ d < 10^k -/
def pointOffset (d : Decimal) : Int :=
  d.exponent + (Nat.toDigits 10 d.coefficient).length

end Decimal

end EscapeTime
