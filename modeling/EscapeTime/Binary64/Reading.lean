/-
Binary64 values from texts.

A number is written with an optional sign, digits with at most one point among them, and an optional exponent behind the
letter e; there is a digit on one side of the point at least. The words inf, infinity and nan are values too. Letters
count in either case. The value read is the nearest one; what is out of range is infinite, or zero.
-/
import EscapeTime.Decimal.Basic

namespace EscapeTime

/-- the decimal has a value of at least 10^310, beyond all finite binary64 values -/
def Decimal.isHuge (d : Decimal) : Bool :=
  d.coefficient != 0 && 310 < d.pointOffset

/-- the decimal is below 10^-330, and nearer to zero than to any other binary64 value -/
def Decimal.isTiny (d : Decimal) : Bool :=
  d.coefficient == 0 || d.pointOffset < -330

namespace Binary64

/-- the value nearest to a decimal of any size -/
def ofDecimal (d : Decimal) : Binary64 :=
  if d.isHuge then ofMagnitude infinity
  else if d.isTiny then ofMagnitude 0
  else d.toBinary64

def notANumber : Binary64 :=
  ⟨0x7ff8000000000000⟩

/-- the value under the opposite sign -/
def negate (x : Binary64) : Binary64 :=
  ⟨x.bits ^^^ 0x8000000000000000⟩

/-- a sign at the head of a text: whether it is a minus sign, and the rest -/
def splitSign : List Char → Bool × List Char
  | '-' :: rest => (true, rest)
  | '+' :: rest => (false, rest)
  | text => (false, text)

/-- the exponent behind the digits of a number; no text means none -/
def exponent? : List Char → Option Int
  | [] => some 0
  | e :: rest => do
    let (negative, digits) := splitSign rest
    guard ((e == 'e' || e == 'E') && !digits.isEmpty && digits.all Char.isDigit)
    let n : Int := Nat.ofDigitChars 10 digits 0
    return if negative then -n else n

/-- the decimal that a number without sign denotes -/
def decimal? (text : List Char) : Option Decimal := do
  let whole := text.takeWhile Char.isDigit
  let behind := text.drop whole.length
  let fraction := match behind with
    | '.' :: rest => rest.takeWhile Char.isDigit
    | _ => []
  let pointed := behind.head? == some '.'
  guard (!whole.isEmpty || !fraction.isEmpty)
  let exponent ← exponent? (behind.drop (if pointed then fraction.length + 1 else 0))
  return ⟨Nat.ofDigitChars 10 (whole ++ fraction) 0, exponent - fraction.length⟩

/-- the value that a text without sign denotes -/
def unsigned? (text : List Char) : Option Binary64 :=
  let word := String.ofList (text.map Char.toLower)
  if word == "inf" || word == "infinity" then some (ofMagnitude infinity)
  else if word == "nan" then some notANumber
  else (decimal? text).map ofDecimal

/-- the value that a text denotes -/
def ofText? (text : List Char) : Option Binary64 :=
  let (negative, rest) := splitSign text
  (unsigned? rest).map fun x => if negative then x.negate else x

end Binary64

end EscapeTime
