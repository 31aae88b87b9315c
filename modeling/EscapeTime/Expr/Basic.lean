/-
Equations as trees.

An equation is built from the three variables of an escape-time iteration (the iterate z, the constant c, the power n),
numbers, signs, five binary operators, nine functions and the modulus. `render` writes a tree in infix form with every
operator in parentheses.
-/
import EscapeTime.Binary64.Text

namespace EscapeTime

/-- the iterate z, the constant c and the power n -/
inductive Variable where
  | z
  | c
  | n
  deriving DecidableEq

namespace Variable

def name : Variable → String
  | z => "z"
  | c => "c"
  | n => "n"

def all : List Variable :=
  [z, c, n]

/-- the variable of a name -/
def ofName? (name : String) : Option Variable :=
  all.find? (·.name == name)

end Variable

/-- the functions that an equation may apply -/
inductive Func where
  | abs
  | conj
  | sin
  | cos
  | tan
  | exp
  | sqrt
  | log
  | ln
  deriving DecidableEq

namespace Func

def name : Func → String
  | abs => "abs"
  | conj => "conj"
  | sin => "sin"
  | cos => "cos"
  | tan => "tan"
  | exp => "exp"
  | sqrt => "sqrt"
  | log => "log"
  | ln => "ln"

def all : List Func :=
  [abs, conj, sin, cos, tan, exp, sqrt, log, ln]

/-- the function of a name -/
def ofName? (name : String) : Option Func :=
  all.find? (·.name == name)

end Func

/-- a sign in front of an operand -/
inductive Sign where
  | pos
  | neg
  deriving DecidableEq

def Sign.symbol : Sign → String
  | pos => "+"
  | neg => "-"

inductive BinaryOp where
  | add
  | sub
  | mul
  | div
  | pow
  deriving DecidableEq

def BinaryOp.symbol : BinaryOp → String
  | add => "+"
  | sub => "-"
  | mul => "*"
  | div => "/"
  | pow => "^"

/-- an equation -/
inductive Expr where
  | var (v : Variable)
  | number (value : Binary64)
  | unary (sign : Sign) (operand : Expr)
  | binary (op : BinaryOp) (left right : Expr)
  | call (f : Func) (argument : Expr)
  | modulus (operand : Expr)
  deriving DecidableEq

namespace Expr

/-- infix text, every operator in parentheses -/
def render : Expr → String
  | var v => v.name
  | number value => value.display
  | unary sign operand => "(" ++ sign.symbol ++ operand.render ++ ")"
  | binary op left right => "(" ++ left.render ++ " " ++ op.symbol ++ " " ++ right.render ++ ")"
  | call f argument => f.name ++ "(" ++ argument.render ++ ")"
  | modulus operand => "|" ++ operand.render ++ "|"

/-- the variable occurs -/
def references (v : Variable) : Expr → Bool
  | var w => w == v
  | number _ => false
  | unary _ operand => operand.references v
  | binary _ left right => left.references v || right.references v
  | call _ argument => argument.references v
  | modulus operand => operand.references v

/-- the numbers that occur, from left to right -/
def numbers : Expr → List Binary64
  | var _ => []
  | number value => [value]
  | unary _ operand => operand.numbers
  | binary _ left right => left.numbers ++ right.numbers
  | call _ argument => argument.numbers
  | modulus operand => operand.numbers

/-- the equation already adds c as its last step -/
def endsWithConstant : Expr → Bool
  | binary .add _ (var .c) => true
  | _ => false

/-- z^2 + c -/
def mandelbrot : Expr :=
  binary .add (binary .pow (var .z) (number .two)) (var .c)

end Expr

end EscapeTime
