/-
The log of failures is a window on a history.

What a log holds is fixed by its capacity and by the failures logged so far: the last of them, as many as fit, oldest
first. `Window` says this, and `window_push` that a new entry keeps it. Clearing the log starts a new history
(`window_clear`), so the same holds after any pushes and clears:

- `run_entries`: the entries are the last of the failures pushed since the log was cleared last; the size, the latest
  entry and the recent ones are read off them.
-/
import Mathlib.Data.List.DropRight
import EscapeTime.FailureLog

namespace EscapeTime.FailureLog

variable {ε : Type} {log : FailureLog ε} {history : List (Failure ε)}

/-- the log holds the last of these failures, as many as fit -/
def Window (log : FailureLog ε) (history : List (Failure ε)) : Prop :=
  log.entries = history.rtake log.capacity

theorem window_withCapacity (capacity : Nat) : Window (withCapacity capacity : FailureLog ε) [] := by
  simp [Window, withCapacity]

theorem capacity_push (log : FailureLog ε) (source : String) (error : ε) :
    (log.push source error).capacity = log.capacity := by
  unfold push
  split_ifs <;> rfl

/-- a full log drops its first entry; any other one already holds the whole history -/
theorem Window.kept {n : Nat} (h : Window log history) (hcapacity : log.capacity = n + 1) :
    (if log.capacity ≤ log.entries.length then log.entries.drop 1 else log.entries) = history.rtake n := by
  rw [h, hcapacity]
  simp only [List.rtake, List.length_drop]
  split_ifs with hfull
  · rw [List.drop_drop]
    congr 1
    omega
  · have hwhole : history.length - (n + 1) = 0 ∧ history.length - n = 0 := by omega
    rw [hwhole.1, hwhole.2]

/-- a new entry moves the window on -/
theorem window_push (h : Window log history) (source : String) (error : ε) :
    Window (log.push source error) (history ++ [⟨source, error⟩]) := by
  unfold Window
  rw [capacity_push]
  cases hcapacity : log.capacity with
  | zero =>
    have hempty : log.entries = [] := by rw [h, hcapacity, List.rtake_zero]
    rw [push, if_pos hcapacity, hempty, List.rtake_zero]
  | succ n =>
    rw [List.rtake_concat_succ, ← h.kept hcapacity, push, if_neg (by omega)]

theorem window_clear (log : FailureLog ε) : Window log.clear [] := by
  simp [Window, clear]

theorem Window.suffix (h : Window log history) : log.entries <:+ history := by
  rw [h]
  exact List.drop_suffix _ _

theorem Window.length (h : Window log history) : log.entries.length = min history.length log.capacity := by
  rw [h, List.rtake, List.length_drop]
  omega

/-- the latest entry is the last failure of all, unless the log keeps nothing -/
theorem Window.latest (h : Window log history) : log.latest? = if log.capacity = 0 then none else history.getLast? := by
  rw [latest?, h, List.rtake, List.getLast?_drop]
  by_cases hcapacity : log.capacity = 0
  · rw [if_pos hcapacity, if_pos (by omega)]
  · cases history with
    | nil => simp
    | cons f history => rw [if_neg hcapacity, if_neg (by simp only [List.length_cons]; omega)]

/-- the recent entries are the last ones, however many are asked for -/
theorem recent_suffix (log : FailureLog ε) (n : Nat) :
    log.recent n <:+ log.entries ∧ (log.recent n).length = min n log.size := by
  refine ⟨List.drop_suffix _ _, ?_⟩
  rw [recent, List.length_drop, size]
  omega

/-! ## Runs -/

/-- what is done to a log -/
inductive Operation (ε : Type) where
  | push (source : String) (error : ε)
  | clear
  deriving DecidableEq

/-- the entry that an operation adds -/
def Operation.pushed? : Operation ε → Option (Failure ε)
  | push source error => some ⟨source, error⟩
  | clear => none

/-- the failures pushed since the log was cleared last, in order -/
def Operation.sinceClear (operations : List (Operation ε)) : List (Failure ε) :=
  (operations.rtakeWhile (·.pushed?.isSome)).filterMap pushed?

/-- the log after an operation -/
def apply (log : FailureLog ε) : Operation ε → FailureLog ε
  | .push source error => log.push source error
  | .clear => log.clear

/-- the log after operations, in order -/
def run (log : FailureLog ε) (operations : List (Operation ε)) : FailureLog ε :=
  operations.foldl apply log

theorem capacity_apply (log : FailureLog ε) (o : Operation ε) : (log.apply o).capacity = log.capacity := by
  cases o with
  | push source error => exact capacity_push log source error
  | clear => rfl

theorem sinceClear_concat (operations : List (Operation ε)) (o : Operation ε) :
    Operation.sinceClear (operations ++ [o]) =
      match o.pushed? with
      | some f => Operation.sinceClear operations ++ [f]
      | none => [] := by
  unfold Operation.sinceClear
  rw [List.rtakeWhile_concat]
  cases ho : o.pushed? <;> simp [ho]

theorem window_apply {operations : List (Operation ε)} (h : Window log (Operation.sinceClear operations))
    (o : Operation ε) :
    Window (log.apply o) (Operation.sinceClear (operations ++ [o])) := by
  rw [sinceClear_concat]
  cases o with
  | push source error => exact window_push h source error
  | clear => exact window_clear log

theorem run_window (capacity : Nat) (operations : List (Operation ε)) :
    ((withCapacity capacity).run operations).capacity = capacity ∧
    Window ((withCapacity capacity).run operations) (Operation.sinceClear operations) := by
  induction operations using List.reverseRecOn with
  | nil => exact ⟨rfl, window_withCapacity capacity⟩
  | append_singleton operations o ih =>
    obtain ⟨hcapacity, hwindow⟩ := ih
    rw [run, List.foldl_concat]
    exact ⟨(capacity_apply _ o).trans hcapacity, window_apply hwindow o⟩

/-- **A log is a sliding window.** After any pushes and clears on a new log, its entries are the last of the failures
pushed since it was cleared last, as many as fit, oldest first; so it never holds more than its capacity, its latest
entry is the failure pushed last if it keeps any, and of the entries the last are recent, all of them if more are asked
for. -/
theorem run_entries (capacity : Nat) (operations : List (Operation ε)) :
    let log := (withCapacity capacity).run operations
    let history := Operation.sinceClear operations
    log.entries <:+ history ∧
    log.entries.length = min history.length capacity ∧
    log.size = log.entries.length ∧
    log.size ≤ capacity ∧
    log.latest? = (if capacity = 0 then none else history.getLast?) ∧
    ∀ n, log.recent n <:+ log.entries ∧ (log.recent n).length = min n log.size := by
  intro log history
  obtain ⟨hcapacity, hwindow⟩ : log.capacity = capacity ∧ log.Window history := run_window capacity operations
  have hlength : log.entries.length = min history.length capacity := hcapacity ▸ hwindow.length
  have hsize : log.size ≤ capacity := hlength.trans_le (Nat.min_le_right _ _)
  exact ⟨hwindow.suffix, hlength, rfl, hsize, hcapacity ▸ hwindow.latest, log.recent_suffix⟩

end EscapeTime.FailureLog
