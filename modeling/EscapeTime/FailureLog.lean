/-
A bounded log of failures.

The log keeps the last `capacity` entries, oldest first; each new entry drops the oldest one once the log is full. A log
of capacity zero keeps nothing. Any number is a capacity: entries take space when they are made, and the allocation of
room for `capacity` of them in advance, which cannot succeed for huge numbers, is left out.
-/
namespace EscapeTime

/-- a text that failed, and how -/
structure Failure (ε : Type) where
  source : String
  error : ε
  deriving DecidableEq

structure FailureLog (ε : Type) where
  capacity : Nat := 50
  entries : List (Failure ε) := []
  deriving DecidableEq

namespace FailureLog

variable {ε : Type}

/-- an empty log -/
def withCapacity (capacity : Nat) : FailureLog ε :=
  { capacity }

/-- a new last entry -/
def push (log : FailureLog ε) (source : String) (error : ε) : FailureLog ε :=
  if log.capacity = 0 then log
  else
    let kept := if log.capacity ≤ log.entries.length then log.entries.drop 1 else log.entries
    { log with entries := kept ++ [⟨source, error⟩] }

/-- the last `n` entries, oldest first -/
def recent (log : FailureLog ε) (n : Nat) : List (Failure ε) :=
  log.entries.drop (log.entries.length - n)

/-- the last entry -/
def latest? (log : FailureLog ε) : Option (Failure ε) :=
  log.entries.getLast?

/-- no entries, same capacity -/
def clear (log : FailureLog ε) : FailureLog ε :=
  { log with entries := [] }

def size (log : FailureLog ε) : Nat :=
  log.entries.length

def isEmpty (log : FailureLog ε) : Bool :=
  log.entries.isEmpty

end FailureLog

end EscapeTime
