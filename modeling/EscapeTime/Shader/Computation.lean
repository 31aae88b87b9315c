/-
What emitted code computes, as a tree.

A computation is an equation with everything settled that the shading language cannot express: signs without effect are
gone, the modulus is the componentwise absolute value, both logarithms are one, small powers of cheap bases may be
products. `ofExpr` settles an equation, `code` writes a computation as a shader expression, and `helpers` are the helper
functions that this expression calls.
-/
import EscapeTime.Shader.Helper

namespace EscapeTime

/-- how the code refers to the three variables -/
structure Bindings where
  iterate : String := "z"
  constant : String := "c"
  power : String := "vec2(power, 0.0)"
  deriving DecidableEq

def Bindings.text (b : Bindings) : Variable → String
  | .z => b.iterate
  | .c => b.constant
  | .n => b.power

/-- the elementary functions that have a helper -/
inductive Elementary where
  | sin
  | cos
  | tan
  | exp
  | sqrt
  | log
  deriving DecidableEq

def Elementary.helper : Elementary → Helper
  | sin => .csin
  | cos => .ccos
  | tan => .ctan
  | exp => .cexp
  | sqrt => .csqrt
  | log => .clog

inductive Computation where
  | var (v : Variable)
  | number (value : Binary64)
  | neg (a : Computation)
  | abs (a : Computation)
  | conj (a : Computation)
  | add (a b : Computation)
  | sub (a b : Computation)
  | mul (a b : Computation)
  | div (a b : Computation)
  | pow (a b : Computation)
  | apply (f : Elementary) (a : Computation)
  deriving DecidableEq

/-- a number as a shader literal: exactly with one place when it is whole, else in shortest form -/
def Binary64.literal (x : Binary64) : String :=
  if x.isWhole then
    x.signed (String.ofList (Nat.toDigits 10 (units x.magnitude / unitsPerOne) ++ ['.', '0']))
  else x.display

/-- the elementary function behind a function; absolute value and conjugate are written out instead -/
def Func.elementary? : Func → Option Elementary
  | abs | conj => none
  | sin => some .sin
  | cos => some .cos
  | tan => some .tan
  | exp => some .exp
  | sqrt => some .sqrt
  | log | ln => some .log

/-- the helper that backs a function -/
def Func.helper? (f : Func) : Option Helper :=
  f.elementary?.map Elementary.helper

namespace Expr

/-- a variable or a number -/
def isLeaf : Expr → Bool
  | var _ | number _ => true
  | _ => false

/-- cheap enough to be written several times: a leaf, or the absolute value, conjugate or modulus of a leaf -/
def isCheap : Expr → Bool
  | call .abs e | call .conj e | modulus e => e.isLeaf
  | e => e.isLeaf

end Expr

/-- a power that is written as a product -/
inductive SmallPower where
  | square
  | cube
  deriving DecidableEq

/-- how a power is written as a product, if it is: with `expand` the square and the cube of a cheap base are -/
def Expr.smallPower? (expand : Bool) (base exponent : Expr) : Option SmallPower :=
  if expand && base.isCheap then
    if exponent = .number .two then some .square
    else if exponent = .number .three then some .cube
    else none
  else none

namespace Computation

/-- a function applied to a computation -/
def applied (f : Func) (a : Computation) : Computation :=
  match f with
  | .abs => abs a
  | .conj => conj a
  | .sin => apply .sin a
  | .cos => apply .cos a
  | .tan => apply .tan a
  | .exp => apply .exp a
  | .sqrt => apply .sqrt a
  | .log | .ln => apply .log a

/-- a power; a small one is a product -/
def powered (expand : Bool) (base exponent : Expr) (a b : Computation) : Computation :=
  match Expr.smallPower? expand base exponent with
  | some .square => mul a a
  | some .cube => mul (mul a a) a
  | none => pow a b

/-- what the code of an equation computes -/
def ofExpr (expand : Bool) : Expr → Computation
  | .var v => var v
  | .number value => number value
  | .unary .pos e => ofExpr expand e
  | .unary .neg e => neg (ofExpr expand e)
  | .binary .add l r => add (ofExpr expand l) (ofExpr expand r)
  | .binary .sub l r => sub (ofExpr expand l) (ofExpr expand r)
  | .binary .mul l r => mul (ofExpr expand l) (ofExpr expand r)
  | .binary .div l r => div (ofExpr expand l) (ofExpr expand r)
  | .binary .pow l r => powered expand l r (ofExpr expand l) (ofExpr expand r)
  | .call f e => applied f (ofExpr expand e)
  | .modulus e => abs (ofExpr expand e)

/-- a call of a helper with one argument -/
def call1 (h : Helper) (a : String) : String :=
  h.name ++ "(" ++ a ++ ")"

/-- a call of a helper with two arguments -/
def call2 (h : Helper) (a b : String) : String :=
  h.name ++ "(" ++ a ++ ", " ++ b ++ ")"

/-- the computation as a shader expression -/
def code (names : Bindings) : Computation → String
  | var v => names.text v
  | number value => "vec2(" ++ value.literal ++ ", 0.0)"
  | neg a => "(-" ++ a.code names ++ ")"
  | abs a => "abs(" ++ a.code names ++ ")"
  | conj a => "(" ++ a.code names ++ " * vec2(1.0, -1.0))"
  | add a b => "(" ++ a.code names ++ " + " ++ b.code names ++ ")"
  | sub a b => "(" ++ a.code names ++ " - " ++ b.code names ++ ")"
  | mul a b => call2 .cmul (a.code names) (b.code names)
  | div a b => call2 .cdiv (a.code names) (b.code names)
  | pow a b => call2 .cpow (a.code names) (b.code names)
  | apply f a => call1 f.helper (a.code names)

/-- the helper is called -/
def calls (h : Helper) : Computation → Bool
  | var _ | number _ => false
  | neg a | abs a | conj a => a.calls h
  | add a b | sub a b => a.calls h || b.calls h
  | mul a b => h == .cmul || a.calls h || b.calls h
  | div a b => h == .cdiv || a.calls h || b.calls h
  | pow a b => h == .cpow || a.calls h || b.calls h
  | apply f a => h == f.helper || a.calls h

/-- the helpers that are called, in the order of `Helper.all` -/
def helpers (a : Computation) : List Helper :=
  Helper.all.filter (a.calls ·)

end Computation

/-- how code is emitted -/
structure Emitter where
  bindings : Bindings := {}
  expandSmallPowers : Bool := true
  deriving DecidableEq

namespace Emitter

/-- what the code of an equation computes, with small powers expanded or not -/
def computation (m : Emitter) (e : Expr) : Computation :=
  Computation.ofExpr m.expandSmallPowers e

/-- the shader expression of an equation -/
def emit (m : Emitter) (e : Expr) : String :=
  (m.computation e).code m.bindings

/-- the helpers that the shader expression of an equation calls -/
def helpers (m : Emitter) (e : Expr) : List Helper :=
  (m.computation e).helpers

end Emitter

end EscapeTime
