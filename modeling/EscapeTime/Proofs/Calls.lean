/-
Calls one after another on one object.

A call gives an answer and leaves an object for the next call. `after call s n` is the object after `n` calls, and
`answer call s n` the answer of call number `n`, the first one being number 0.

- `after_keeps`: what every call keeps holds after any number of calls.
- `after_counts`: a count that a call raises by one exactly when its answer passes a test is, after any calls, the
  number of answers that pass.
- `answer_fixed`: an object that a call leaves as it is gives the same answer for ever.
-/
import Mathlib.Logic.Function.Iterate

namespace EscapeTime.Calls

variable {σ α : Type} {call : σ → α × σ} {s : σ}

/-- the object after so many calls -/
def after (call : σ → α × σ) (s : σ) (n : Nat) : σ :=
  (fun s => (call s).2)^[n] s

/-- the answer of a call behind so many others -/
def answer (call : σ → α × σ) (s : σ) (n : Nat) : α :=
  (call (after call s n)).1

/-- the answers of so many calls, in order -/
def answers (call : σ → α × σ) (s : σ) (n : Nat) : List α :=
  (List.range n).map (answer call s)

theorem after_succ (call : σ → α × σ) (s : σ) (n : Nat) : after call s (n + 1) = (call (after call s n)).2 :=
  Function.iterate_succ_apply' _ n s

theorem answer_succ {a : α} {s' : σ} (h : call s = (a, s')) (n : Nat) : answer call s (n + 1) = answer call s' n := by
  have hnext : answer call s (n + 1) = answer call (call s).2 n := rfl
  rw [hnext, h]

/-- the last answer comes behind the others -/
theorem answers_concat (call : σ → α × σ) (s : σ) (n : Nat) :
    answers call s (n + 1) = answers call s n ++ [answer call s n] := by
  rw [answers, List.range_succ, List.map_append]
  rfl

theorem after_keeps {P : σ → Prop} (hcall : ∀ s, P s → P (call s).2) (hs : P s) (n : Nat) : P (after call s n) := by
  induction n with
  | zero => exact hs
  | succ n ih =>
    rw [after_succ]
    exact hcall _ ih

theorem after_counts {count : σ → Nat} {test : α → Bool}
    (hcall : ∀ s, count (call s).2 = count s + if test (call s).1 then 1 else 0) (s : σ) (n : Nat) :
    count (after call s n) = count s + (answers call s n).countP test := by
  induction n with
  | zero => rfl
  | succ n ih =>
    rw [after_succ, hcall, ih, answers_concat, List.countP_append, List.countP_singleton, Nat.add_assoc]
    rfl

theorem answer_fixed {a : α} (h : call s = (a, s)) (n : Nat) : answer call s n = a := by
  have hfixed : after call s n = s := Function.iterate_fixed (congrArg Prod.snd h) n
  rw [answer, hfixed, h]

end EscapeTime.Calls
