/-
A place in a stream of token kinds, with the number of sums open there, and the outcome of reading from it.

Behind its last token a stream goes on showing that token for ever: `peek` still answers, `advance` stays put. Yet
nothing is left to take there, so `sees` and `atEnd` answer as at the end. Faults name the token they are about by its
index in the stream.
-/
import EscapeTime.Rejection

namespace EscapeTime

/-- a place in a stream: tokens passed, kinds to come, the last kind of the stream, and the sums open -/
structure Cursor where
  passed : Nat
  rest : List Kind
  last : Kind
  depth : Nat
  deriving DecidableEq

namespace Cursor

/-- the kind in view -/
def peek (c : Cursor) : Kind :=
  c.rest.headD c.last

/-- past the kind in view -/
def advance (c : Cursor) : Cursor :=
  match c.rest with
  | [] => c
  | _ :: rest => { c with passed := c.passed + 1, rest := rest }

/-- the index of the token in view -/
def index (c : Cursor) : Nat :=
  if c.rest.isEmpty then c.passed - 1 else c.passed

/-- nothing is left, or the end marker is in view -/
def atEnd (c : Cursor) : Bool :=
  c.rest.isEmpty || c.peek == .endOfInput

/-- a token of this kind is there to be taken -/
def sees (c : Cursor) (kind : Kind) : Bool :=
  !c.atEnd && c.peek == kind

/-- one more sum is open -/
def enter (c : Cursor) : Cursor :=
  { c with depth := c.depth + 1 }

/-- the innermost sum is closed -/
def leave (c : Cursor) : Cursor :=
  { c with depth := c.depth - 1 }

@[simp] theorem leave_enter (c : Cursor) : c.enter.leave = c := rfl

end Cursor

/-- a cause and the index of the token it is about -/
structure Fault where
  cause : Cause
  index : Nat
  deriving DecidableEq

/-- a value or a fault, and the place where reading stopped -/
inductive Outcome (α : Type) where
  | done (value : α) (cursor : Cursor)
  | fault (fault : Fault) (cursor : Cursor)

namespace Outcome

/-- go on from a value; a fault stays -/
def bind {α β : Type} (o : Outcome α) (next : α → Cursor → Outcome β) : Outcome β :=
  match o with
  | done value c => next value c
  | fault f c => fault f c

/-- close the innermost sum, whatever came of it -/
def leave {α : Type} : Outcome α → Outcome α
  | done value c => done value c.leave
  | fault f c => fault f c.leave

@[simp] theorem bind_done {α β : Type} (a : α) (c : Cursor) (next : α → Cursor → Outcome β) :
    (done a c).bind next = next a c := rfl

@[simp] theorem bind_fault {α β : Type} (f : Fault) (c : Cursor) (next : α → Cursor → Outcome β) :
    (fault f c : Outcome α).bind next = fault f c := rfl

@[simp] theorem leave_done {α : Type} (a : α) (c : Cursor) : (done a c).leave = done a c.leave := rfl

@[simp] theorem leave_fault {α : Type} (f : Fault) (c : Cursor) :
    (fault f c : Outcome α).leave = fault f c.leave := rfl

end Outcome

end EscapeTime
