/-
Binary64 values, held as their 64 bits.

The top bit is the sign; the lower 63 bits read as a number are the *magnitude*. Magnitudes count the non-negative
values in order: 0 is zero, 1 the least positive value, and the next value up always has the next magnitude, across
every change of exponent. `units` gives the value of a magnitude as a whole number of least positive values (2^-1074
each), so every finite value is an exact natural number of units and all comparisons are comparisons of naturals.
-/
namespace EscapeTime

/-- an IEEE 754 binary64 value, given by its bits; two values are equal when their bits are -/
structure Binary64 where
  bits : UInt64
  deriving DecidableEq

namespace Binary64

/-- the bits below the sign, as a number -/
def magnitude (x : Binary64) : Nat :=
  x.bits.toNat % Nat.pow 2 63

/-- the sign bit is set; negative zero and negative NaNs count -/
def isNegative (x : Binary64) : Bool :=
  Nat.pow 2 63 ≤ x.bits.toNat

/-- the magnitude of infinity, one above that of the largest finite value -/
def infinity : Nat :=
  2047 * Nat.pow 2 52

def isFinite (x : Binary64) : Bool :=
  x.magnitude < infinity

def isNaN (x : Binary64) : Bool :=
  infinity < x.magnitude

/-- the non-negative value of a magnitude; too large magnitudes are infinity -/
def ofMagnitude (n : Nat) : Binary64 :=
  ⟨UInt64.ofNat (min n infinity)⟩

/-- the units (multiples of 2^-1074) in the value of magnitude `n`: a 52-bit fraction under an implicit leading one,
doubled for every exponent step; below 2^52 the leading one is absent -/
def units (n : Nat) : Nat :=
  if n < Nat.pow 2 52 then n else (Nat.pow 2 52 + n % Nat.pow 2 52) * Nat.pow 2 (n / Nat.pow 2 52 - 1)

/-- the number of units in one -/
def unitsPerOne : Nat :=
  Nat.pow 2 1074

/-- the value is finite and has no fraction -/
def isWhole (x : Binary64) : Bool :=
  x.isFinite && units x.magnitude % unitsPerOne == 0

/-- the value 2 -/
def two : Binary64 :=
  ⟨0x4000000000000000⟩

/-- the value 3 -/
def three : Binary64 :=
  ⟨0x4008000000000000⟩

end Binary64

end EscapeTime
