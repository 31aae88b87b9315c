/-
Rounding a ratio of naturals to the nearest binary64 value.

`floorMagnitude u` is the largest magnitude whose value is at most `u` units, in closed form. `ofRatio` takes the
magnitude below a ratio and the one above and keeps the nearer; halfway it keeps the even magnitude, which is the one
with an even fraction. A ratio nearer to the first power of two out of range than to the largest finite value becomes
infinity.
-/
import EscapeTime.Binary64.Basic

namespace EscapeTime.Binary64

/-- the largest magnitude whose value is at most `u` units -/
def floorMagnitude (u : Nat) : Nat :=
  if u < Nat.pow 2 52 then u else (u.log2 - 52) * Nat.pow 2 52 + u / Nat.pow 2 (u.log2 - 52)

/-- the magnitude nearest to `num / den`, ties to the even one -/
def nearestMagnitude (num den : Nat) : Nat :=
  let scaled := num * unitsPerOne
  let below := floorMagnitude (scaled / den)
  let middle := (units below + units (below + 1)) * den
  if 2 * scaled < middle then below
  else if middle < 2 * scaled then below + 1
  else if below % 2 = 0 then below
  else below + 1

/-- the binary64 value nearest to `num / den`, for a positive `den` -/
def ofRatio (num den : Nat) : Binary64 :=
  ofMagnitude (nearestMagnitude num den)

end EscapeTime.Binary64
