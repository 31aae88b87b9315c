/-
Open parentheses along a text, and the check that they match.

`level cs k` counts the parentheses that are open after `k` characters, below zero when closing ones are in excess.

- `unbalanced?_eq_none_iff`: the check passes exactly when a text is balanced.
- `unbalanced?_cases`: otherwise it finds the first closing parenthesis in excess, else the last opening one.
-/
import Mathlib.Tactic
import EscapeTime.Warning

namespace EscapeTime.Validation

/-! ## Levels -/

/-- what a character adds to the number of open parentheses -/
def weight (c : Char) : Int :=
  if c = '(' then 1 else if c = ')' then -1 else 0

/-- the opening parentheses less the closing ones among the first `k` characters -/
def level (cs : List Char) (k : Nat) : Int :=
  (cs.take k).count '(' - (cs.take k).count ')'

@[simp] theorem level_zero (cs : List Char) : level cs 0 = 0 := by
  simp [level]

@[simp] theorem level_nil (k : Nat) : level [] k = 0 := by
  simp [level]

theorem weight_eq (c : Char) : weight c = ([c].count '(' : Int) - [c].count ')' := by
  by_cases hl : c = '('
  · subst hl; rfl
  · by_cases hr : c = ')'
    · subst hr; rfl
    · simp [weight, hl, hr]

theorem level_cons (c : Char) (cs : List Char) (k : Nat) : level (c :: cs) (k + 1) = weight c + level cs k := by
  rw [level, List.take_succ_cons, ← List.singleton_append, List.count_append, List.count_append, weight_eq, level]
  omega

theorem level_succ {cs : List Char} {k : Nat} {c : Char} (h : cs[k]? = some c) :
    level cs (k + 1) = level cs k + weight c := by
  rw [level, List.take_add_one, h, Option.toList_some, List.count_append, List.count_append, weight_eq, level]
  omega

theorem level_drop (cs : List Char) (m k : Nat) : level (cs.drop m) k = level cs (m + k) - level cs m := by
  simp only [level, List.take_add, List.count_append]
  omega

theorem level_take (cs : List Char) {m k : Nat} (h : k ≤ m) : level (cs.take m) k = level cs k := by
  rw [level, List.take_take, Nat.min_eq_left h, level]

/-- behind the end the level stays as it is -/
theorem level_of_length_le {cs : List Char} {k : Nat} (h : cs.length ≤ k) : level cs k = level cs cs.length := by
  rw [level, level, List.take_of_length_le h, List.take_length]

/-- one character: the level rises at an opening parenthesis, falls at a closing one, and stays as it is elsewhere -/
theorem level_step (cs : List Char) (k : Nat) :
    (cs[k]? = some '(' ∧ level cs (k + 1) = level cs k + 1) ∨
    (cs[k]? = some ')' ∧ level cs (k + 1) = level cs k - 1) ∨
    (cs[k]? ≠ some '(' ∧ cs[k]? ≠ some ')' ∧ level cs (k + 1) = level cs k) := by
  cases hc : cs[k]? with
  | none =>
    have hk : cs.length ≤ k := List.getElem?_eq_none_iff.1 hc
    refine .inr (.inr ⟨by simp, by simp, ?_⟩)
    rw [level_of_length_le hk, level_of_length_le (Nat.le_succ_of_le hk)]
  | some c =>
    rw [level_succ hc, weight]
    split_ifs with hl hr
    · exact .inl ⟨by rw [hl], rfl⟩
    · exact .inr (.inl ⟨by rw [hr], rfl⟩)
    · exact .inr (.inr ⟨by simpa using hl, by simpa using hr, add_zero _⟩)

/-- no closing parenthesis is in excess anywhere, and none is left open -/
def Balanced (cs : List Char) : Prop :=
  (∀ k, 0 ≤ level cs k) ∧ level cs cs.length = 0

/-- a closing parenthesis for which there is no open one -/
def Excess (cs : List Char) (j : Nat) : Prop :=
  cs[j]? = some ')' ∧ level cs (j + 1) < 0

/-- up to the first closing parenthesis in excess the level is not below zero -/
theorem level_nonneg_of_no_excess {cs : List Char} {i : Nat} (h : ∀ j < i, ¬ Excess cs j) :
    ∀ k ≤ i, 0 ≤ level cs k := by
  intro k hk
  induction k with
  | zero => rw [level_zero]
  | succ k ih =>
    have hbefore := ih (by omega)
    rcases level_step cs k with ⟨_, hrises⟩ | ⟨hclose, _⟩ | ⟨_, _, hsame⟩
    · omega
    · by_contra hneg
      exact h k hk ⟨hclose, not_le.1 hneg⟩
    · omega

/-! ## The check -/

/-- one character: a closing parenthesis with none open ends the check, any other one changes the number of open ones -/
theorem unbalanced?_cons (d lastOpen n : Nat) (c : Char) (cs : List Char) :
    unbalanced? d lastOpen ((c :: cs).zipIdx n) =
      if c = ')' ∧ d = 0 then some n
      else unbalanced? (d + weight c).toNat (if c = '(' then n else lastOpen) (cs.zipIdx (n + 1)) := by
  rw [List.zipIdx_cons, unbalanced?, weight]
  by_cases hl : c = '('
  · subst hl
    simp
  · by_cases hr : c = ')'
    · subst hr
      by_cases hd : d = 0
      · simp [hd]
      · have hdown : ((d : Int) + -1).toNat = d - 1 := by omega
        simp [hd, hdown]
    · simp [hl, hr]

/-- a level is not below zero from the start of a text on exactly when it is not from the second character on -/
theorem nonneg_cons_iff (d : Nat) (c : Char) (cs : List Char) :
    (∀ k, 0 ≤ d + level (c :: cs) k) ↔ ∀ k, 0 ≤ (d + weight c) + level cs k := by
  constructor
  · intro h k
    have hk := h (k + 1)
    rwa [level_cons, ← add_assoc] at hk
  · intro h k
    cases k with
    | zero => simp
    | succ k =>
      rw [level_cons, ← add_assoc]
      exact h k

/-- behind a parenthesis that closes an open one, and behind any other character, the number of open ones is the level
-/
theorem toNat_add_weight {d : Nat} {c : Char} (h : ¬ (c = ')' ∧ d = 0)) :
    ((d + weight c).toNat : Int) = d + weight c := by
  rw [weight]
  split_ifs with hl hr
  · omega
  · have hd : d ≠ 0 := fun hd => h ⟨hr, hd⟩
    omega
  · omega

/-- the check passes at a level `d` exactly when the level does not fall below zero and ends at zero -/
theorem unbalanced?_eq_none_iff_level (cs : List Char) : ∀ (d lastOpen n : Nat),
    unbalanced? d lastOpen (cs.zipIdx n) = none ↔ (∀ k, 0 ≤ d + level cs k) ∧ d + level cs cs.length = 0 := by
  induction cs with
  | nil =>
    intro d lastOpen n
    simp [unbalanced?]
  | cons c cs ih =>
    intro d lastOpen n
    rw [unbalanced?_cons, nonneg_cons_iff, List.length_cons, level_cons, ← add_assoc]
    by_cases hstuck : c = ')' ∧ d = 0
    · obtain ⟨rfl, rfl⟩ := hstuck
      simp only [and_self, if_true, reduceCtorEq, false_iff, not_and]
      intro h
      exact absurd (h 0) (by rw [level_zero]; decide)
    · rw [if_neg hstuck, ih, toNat_add_weight hstuck]

theorem unbalanced?_eq_none_iff (cs : List Char) : unbalanced? 0 0 cs.zipIdx = none ↔ Balanced cs := by
  simpa [Balanced] using unbalanced?_eq_none_iff_level cs 0 0 0

theorem isLeast_succ_iff {P : Nat → Prop} {j : Nat} (hzero : ¬ P 0) :
    IsLeast {j | P j} (j + 1) ↔ IsLeast {j | P (j + 1)} j := by
  constructor
  · intro h
    exact ⟨h.1, fun m hm => Nat.le_of_succ_le_succ (h.2 hm)⟩
  · intro h
    refine ⟨h.1, fun m hm => ?_⟩
    cases m with
    | zero => exact absurd hm hzero
    | succ m => exact Nat.succ_le_succ (h.2 hm)

theorem isGreatest_succ {P : Nat → Prop} {j : Nat} (h : IsGreatest {j | P (j + 1)} j) :
    IsGreatest {j | P j} (j + 1) := by
  refine ⟨h.1, fun m hm => ?_⟩
  cases m with
  | zero => exact Nat.zero_le _
  | succ m => exact Nat.succ_le_succ (h.2 hm)

/-- what the check finds at a level `d`: the first closing parenthesis that brings the level below zero, or, at a level
that ends above zero, the last opening parenthesis -/
inductive Found (d lastOpen n : Nat) (cs : List Char) : Nat → Prop where
  | excess {j : Nat} (h : IsLeast {j | cs[j]? = some ')' ∧ d + level cs (j + 1) < 0} j) : Found d lastOpen n cs (n + j)
  | opening {j : Nat} (hup : 0 < d + level cs cs.length) (hnone : ∀ k, 0 ≤ d + level cs k)
      (h : IsGreatest {j | cs[j]? = some '('} j) : Found d lastOpen n cs (n + j)
  | before (hup : 0 < d + level cs cs.length) (hnone : ∀ k, 0 ≤ d + level cs k) (h : '(' ∉ cs) :
      Found d lastOpen n cs lastOpen

/-- what the check finds behind a character is what it finds from there on -/
theorem Found.cons {d lastOpen n : Nat} {c : Char} {cs : List Char} {p : Nat} (hc : ¬ (c = ')' ∧ d = 0))
    (h : Found (d + weight c).toNat (if c = '(' then n else lastOpen) (n + 1) cs p) :
    Found d lastOpen n (c :: cs) p := by
  have hlevel := toNat_add_weight hc
  have hend : (d : Int) + level (c :: cs) (c :: cs).length = (d + weight c) + level cs cs.length := by
    rw [List.length_cons, level_cons, add_assoc]
  cases h with
  | @excess j h =>
    rw [Nat.add_right_comm, Nat.add_assoc]
    refine .excess ((isLeast_succ_iff ?_).2 ?_)
    · rintro ⟨hclose, hneg⟩
      obtain rfl : c = ')' := by simpa using hclose
      have hd : d ≠ 0 := fun hd => hc ⟨rfl, hd⟩
      have hdown : weight ')' = -1 := rfl
      rw [level_cons, level_zero] at hneg
      omega
    · simpa only [List.getElem?_cons_succ, level_cons, ← add_assoc, hlevel] using h
  | @opening j hup hnone h =>
    rw [Nat.add_right_comm, Nat.add_assoc]
    rw [hlevel] at hup hnone
    exact .opening (hend ▸ hup) ((nonneg_cons_iff d c cs).2 hnone) (isGreatest_succ (by simpa using h))
  | before hup hnone h =>
    rw [hlevel] at hup hnone
    by_cases hl : c = '('
    · subst hl
      rw [if_pos rfl]
      refine .opening (j := 0) (hend ▸ hup) ((nonneg_cons_iff d _ cs).2 hnone) ⟨rfl, fun m hm => ?_⟩
      cases m with
      | zero => exact le_rfl
      | succ m => exact absurd (List.mem_of_getElem? (l := cs) hm) h
    · rw [if_neg hl]
      exact .before (hend ▸ hup) ((nonneg_cons_iff d c cs).2 hnone) (by simpa [Ne.symm hl] using h)

theorem unbalanced?_found {cs : List Char} : ∀ {d lastOpen n p : Nat},
    unbalanced? d lastOpen (cs.zipIdx n) = some p → Found d lastOpen n cs p := by
  induction cs with
  | nil =>
    intro d lastOpen n p h
    simp only [List.zipIdx_nil, unbalanced?, Option.ite_none_left_eq_some, Option.some.injEq] at h
    obtain ⟨hd, rfl⟩ := h
    exact .before (by simpa [Nat.pos_iff_ne_zero] using hd) (by simp) (by simp)
  | cons c cs ih =>
    intro d lastOpen n p h
    rw [unbalanced?_cons] at h
    by_cases hstuck : c = ')' ∧ d = 0
    · rw [if_pos hstuck] at h
      obtain ⟨rfl, rfl⟩ := hstuck
      cases h
      exact .excess (j := 0) ⟨⟨rfl, by rw [level_cons, level_zero]; decide⟩, fun m _ => Nat.zero_le m⟩
    · rw [if_neg hstuck] at h
      exact (ih h).cons hstuck

/-- the check finds the first closing parenthesis in excess, or the last opening one of a text in which none is in
excess -/
theorem unbalanced?_cases {cs : List Char} {i : Nat} (h : unbalanced? 0 0 cs.zipIdx = some i) :
    IsLeast {j | Excess cs j} i ∨
      ((∀ k, 0 ≤ level cs k) ∧ 0 < level cs cs.length ∧ IsGreatest {j | cs[j]? = some '('} i) := by
  have hfound := unbalanced?_found h
  generalize hi : i = p at hfound
  cases hfound with
  | excess h => exact .inl (by simpa [Excess, hi] using h)
  | @opening j hup hnone h =>
    obtain rfl : i = j := by simpa using hi
    simp only [Nat.cast_zero, zero_add] at hup hnone ⊢
    exact .inr ⟨hnone, hup, h⟩
  | before hup _ hno =>
    -- a text without opening parentheses does not rise above zero
    have hzero : cs.count '(' = 0 := List.count_eq_zero.2 hno
    rw [level, List.take_length, hzero] at hup
    omega

end EscapeTime.Validation
