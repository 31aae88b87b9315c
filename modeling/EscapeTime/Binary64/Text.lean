/-
Texts of binary64 values.

- `display`: shortest digits, never an exponent, no point when whole; a tie between two shortest goes up.
- `json`: shortest digits, a tie goes to the even one; positional with at least one place from 10^-5 up to 10^16,
  otherwise with a signed exponent; not a number and the infinities are `null`.
-/
import EscapeTime.Decimal.Shortest

namespace EscapeTime.Binary64

/-- a minus sign in front of the text of a negative value -/
def signed (x : Binary64) (text : String) : String :=
  if x.isNegative then "-" ++ text else text

/-- positional text; the point is written only in front of a fraction -/
def positional (d : Decimal) : String :=
  String.ofList (match d.fractionDigits with
    | [] => d.wholeDigits
    | fraction => d.wholeDigits ++ '.' :: fraction)

/-- shortest positional text -/
def display (x : Binary64) : String :=
  if x.isNaN then "NaN"
  else if x.isFinite then x.signed (positional (Decimal.shortest .up x.magnitude))
  else x.signed "inf"

/-- positional text with at least one place -/
def pointed (d : Decimal) : String :=
  String.ofList (d.wholeDigits ++ '.' :: match d.fractionDigits with
    | [] => ['0']
    | fraction => fraction)

/-- scientific text: one digit, a point before any others, and a signed exponent -/
def scientific (d : Decimal) : String :=
  let mantissa := match d.significantDigits with
    | lead :: next :: rest => lead :: '.' :: next :: rest
    | digits => digits
  let power := d.pointOffset - 1
  String.ofList (mantissa ++ 'e' :: (if power < 0 then '-' else '+') :: Nat.toDigits 10 power.natAbs)

/-- JSON number text -/
def json (x : Binary64) : String :=
  if !x.isFinite then "null"
  else if x.magnitude = 0 then x.signed "0.0"
  else
    let d := Decimal.shortest .toEven x.magnitude
    x.signed (if -5 < d.pointOffset ∧ d.pointOffset ≤ 16 then pointed d else scientific d)

end EscapeTime.Binary64
