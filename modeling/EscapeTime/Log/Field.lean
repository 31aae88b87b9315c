/-
Conditions on the fields of a log line: a name, and perhaps a value.

A value is a truth value, a number or a pattern. Whole numbers without sign come before those with one, and both before
other numbers; what is none of them has to be a pattern that can be used.
-/
import EscapeTime.Binary64.Reading
import EscapeTime.Binary64.Text
import EscapeTime.Log.Pattern

namespace EscapeTime.Log

inductive Value where
  | truth (b : Bool)
  | number (x : Binary64)
  | notANumber
  | natural (n : Nat)
  | integer (i : Int)
  | pattern (text : String)
  deriving DecidableEq

namespace Value

def truth? (text : String) : Option Value :=
  if text == "true" then some (truth true) else if text == "false" then some (truth false) else none

/-- digits only, perhaps behind a plus sign, below 2^64 -/
def natural? (text : List Char) : Option Value := do
  let digits := match text with
    | '+' :: rest => rest
    | text => text
  guard (!digits.isEmpty && digits.all Char.isDigit)
  let n := Nat.ofDigitChars 10 digits 0
  if n < Nat.pow 2 64 then return natural n else none

/-- a minus sign and digits, from -2^63 on -/
def integer? : List Char → Option Value
  | '-' :: digits => do
    guard (!digits.isEmpty && digits.all Char.isDigit)
    let n := Nat.ofDigitChars 10 digits 0
    if n ≤ Nat.pow 2 63 then return integer (-n) else none
  | _ => none

def number? (text : List Char) : Option Value :=
  (Binary64.ofText? text).map fun x => if x.isNaN then notANumber else number x

def pattern? (text : String) : Option Value := do
  let p ← Pattern.ofText? text
  if p.isSupported then return pattern text else none

/-- the value that a text means -/
def ofText? (text : String) : Option Value :=
  let chars := text.toList
  (truth? text).or ((natural? chars).or ((integer? chars).or ((number? chars).or (pattern? text))))

def text : Value → String
  | truth b => if b then "true" else "false"
  | number x => x.display
  | notANumber => "NaN"
  | natural n => toString n
  | integer i => toString i
  | pattern text => text

/-- the kinds of values in order -/
def rank : Value → Nat
  | truth _ => 0
  | number _ => 1
  | notANumber => 2
  | natural _ => 3
  | integer _ => 4
  | pattern _ => 5

/-- where a number lies among all numbers; the two zeros lie in one place -/
def place (x : Binary64) : Int :=
  if x.isNegative then -(x.magnitude : Int) else x.magnitude

/-- by kind, then by value -/
def order (a b : Value) : Ordering :=
  match a, b with
  | truth x, truth y => compare x.toNat y.toNat
  | number x, number y => compare (place x) (place y)
  | natural x, natural y => compare x y
  | integer x, integer y => compare x y
  | pattern x, pattern y => if x < y then .lt else if y < x then .gt else .eq
  | _, _ => compare a.rank b.rank

end Value

/-- the name of a field, and the value asked for, if any -/
structure Field where
  name : String
  value : Option Value
  deriving DecidableEq

namespace Field

/-- a name, and behind an equals sign a value; what stands behind a second equals sign counts for nothing -/
def ofText? (text : String) : Option Field := do
  guard (!text.isEmpty)
  match text.splitOn "=" with
  | name :: value :: _ => return ⟨name, some (← Value.ofText? value)⟩
  | _ => return ⟨text, none⟩

def text (f : Field) : String :=
  match f.value with
  | some v => f.name ++ "=" ++ v.text
  | none => f.name

/-- fields with a value come last, then the name decides, then the value -/
def order (a b : Field) : Ordering :=
  let names : Ordering := if a.name < b.name then .lt else if b.name < a.name then .gt else .eq
  match a.value, b.value with
  | some x, some y => names.then (x.order y)
  | some _, none => .gt
  | none, some _ => .lt
  | none, none => names

end Field

end EscapeTime.Log
