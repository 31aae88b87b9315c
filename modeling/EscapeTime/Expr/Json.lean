/-
Equations as JSON documents: one object a node, named for the node, with its parts in a fixed order.
-/
import EscapeTime.Expr.Basic
import EscapeTime.Text.Json

namespace EscapeTime

open Text (Json)

def Variable.tag : Variable → String
  | z => "Z"
  | c => "C"
  | n => "N"

def Func.tag : Func → String
  | abs => "Abs"
  | conj => "Conj"
  | sin => "Sin"
  | cos => "Cos"
  | tan => "Tan"
  | exp => "Exp"
  | sqrt => "Sqrt"
  | log => "Log"
  | ln => "Ln"

def Sign.tag : Sign → String
  | pos => "Pos"
  | neg => "Neg"

def BinaryOp.tag : BinaryOp → String
  | add => "Add"
  | sub => "Sub"
  | mul => "Mul"
  | div => "Div"
  | pow => "Pow"

/-- the tree as a document -/
def Expr.toJson : Expr → Json
  | var v => .object [("Variable", .string v.tag)]
  | number value => .object [("Number", .literal value.json)]
  | unary sign operand => .object [("Unary", .object [("op", .string sign.tag), ("operand", operand.toJson)])]
  | binary op left right =>
    .object [("Binary", .object [("op", .string op.tag), ("left", left.toJson), ("right", right.toJson)])]
  | call f argument =>
    .object [("Call", .object [("function", .string f.tag), ("argument", argument.toJson)])]
  | modulus operand => .object [("Modulus", operand.toJson)]

end EscapeTime
