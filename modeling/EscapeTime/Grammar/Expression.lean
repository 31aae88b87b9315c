/-
Reading an expression, from loosest to tightest binding:

  sum      product, then any number of (+ or -) product
  product  unary, then any number of (* or /) unary
  unary    any number of signs, then power
  power    primary, then any number of ^ exponent
  exponent any number of signs, then primary
  primary  number, variable, function ( sum ), ( sum ), | sum |

All binary operators associate to the left. A run of signs counts as one sign, minus when the minus signs are odd in
number. A sum inside a group is read one level deeper; `expression levels` opens a sum with that many levels left and
closes it afterwards, be it read or not; with none left it is refused, and stays open. All other reading goes forward
over the stream, so reading ends; the one exception are signs at the very end of a stream, which are seen again for ever
and reported as `unendingSigns`.
-/
import EscapeTime.Expr.Basic
import EscapeTime.Grammar.Cursor

namespace EscapeTime.Grammar

/-- reads a value from a place in a stream -/
abbrev Reader (α : Type) :=
  Cursor → Outcome α

/-- what a run of signs amounts to -/
def signOf (run : List Kind) : Option Sign :=
  if run.isEmpty then none
  else if run.count .minus % 2 = 1 then some .neg
  else some .pos

/-- a run of signs, possibly empty -/
def signs : Reader (Option Sign) := fun c =>
  let run := c.rest.takeWhile Kind.isSign
  let after : Cursor := { c with passed := c.passed + run.length, rest := c.rest.dropWhile Kind.isSign }
  if after.rest.isEmpty && c.last.isSign then .fault ⟨.unendingSigns, after.index⟩ after
  else .done (signOf run) after

/-- an operand under the sign in front of it -/
def applySign : Option Sign → Expr → Expr
  | none, e => e
  | some sign, e => .unary sign e

/-- signs, then an operand -/
def signed (operand : Reader Expr) : Reader Expr := fun c =>
  (signs c).bind fun sign c => (operand c).bind fun e c => .done (applySign sign e) c

/-- the closing token of a group -/
def closing (kind : Kind) (e : Expr) : Reader Expr := fun c =>
  if c.sees kind then .done e c.advance
  else .fault ⟨.expectedToken kind c.peek, c.index⟩ c

/-- what an identifier stands for; `index` is its own, `c` the place behind it -/
def identifier (inner : Reader Expr) (name : String) (index : Nat) : Reader Expr := fun c =>
  match Variable.ofName? name, Func.ofName? name with
  | some v, _ => .done (.var v) c
  | none, some f =>
    if c.sees .leftParen then
      (inner c.advance).bind fun e c => closing .rightParen (.call f e) c
    else .fault ⟨.unknownIdentifier name, index⟩ c
  | none, none => .fault ⟨.unknownIdentifier name, index⟩ c

/-- a number, a variable, a function applied, or a group; `inner` reads what a group holds -/
def primary (inner : Reader Expr) : Reader Expr := fun c =>
  match c.peek with
  | .number value => .done (.number value) c.advance
  | .ident name => identifier inner name c.index c.advance
  | .leftParen => (inner c.advance).bind fun e c => closing .rightParen e c
  | .pipe => (inner c.advance).bind fun e c => closing .pipe (.modulus e) c
  | .endOfInput => .fault ⟨.unexpectedEnd, c.index⟩ c.advance
  | kind => .fault ⟨.expectedExpression kind, c.index⟩ c.advance

/-- further operands, each behind an operator that `op?` finds in view, combined to the left -/
def chain (op? : Cursor → Option BinaryOp) (operand : Reader Expr) (left : Expr) (c : Cursor) : Outcome Expr :=
  match op? c with
  | none => .done left c
  | some op =>
    match operand c.advance with
    | .fault f c' => .fault f c'
    | .done right c' =>
      if c'.rest.length < c.rest.length then chain op? operand (.binary op left right) c'
      else .fault ⟨.unendingSigns, c'.index⟩ c'
termination_by c.rest.length

/-- an operand, then further ones behind operators -/
def chained (op? : Cursor → Option BinaryOp) (first operand : Reader Expr) : Reader Expr := fun c =>
  (first c).bind fun e c => chain op? operand e c

def powerOp? (c : Cursor) : Option BinaryOp :=
  if c.sees .caret then some .pow else none

def productOp? (c : Cursor) : Option BinaryOp :=
  match c.peek with
  | .star => some .mul
  | .slash => some .div
  | _ => none

def sumOp? (c : Cursor) : Option BinaryOp :=
  match c.peek with
  | .plus => some .add
  | .minus => some .sub
  | _ => none

def power (inner : Reader Expr) : Reader Expr :=
  chained powerOp? (primary inner) (signed (primary inner))

def unary (inner : Reader Expr) : Reader Expr :=
  signed (power inner)

def product (inner : Reader Expr) : Reader Expr :=
  chained productOp? (unary inner) (unary inner)

def sum (inner : Reader Expr) : Reader Expr :=
  chained sumOp? (product inner) (product inner)

/-- a sum, with so many levels left -/
def expression : (levels : Nat) → Reader Expr
  | 0 => fun c => .fault ⟨.tooDeep, c.index⟩ c.enter
  | levels + 1 => fun c => (sum (expression levels) c.enter).leave

end EscapeTime.Grammar
