/-
Which parentheses of a text have a partner, and which one a warning points at.

Two parentheses are partners when what stands between them is balanced (`Partners`), so partners begin and end at one
level.

- `partnerless_of_excess`, `exists_partnerless`: the first closing parenthesis in excess has no partner, and where the
  level ends above zero some opening one has none.
- `exists_partner`, `partnerless_last_iff`: the last opening parenthesis has a partner exactly when a closing one stands
  behind it.
- `unbalanced_points_at`: so a warning points at a parenthesis without a partner, unless none is in excess and a closing
  one stands behind the last opening one.
-/
import EscapeTime.Proofs.Warning.Checks

namespace EscapeTime

namespace Validation

/-- the parentheses at two offsets belong together: what stands between them is balanced -/
structure Partners (cs : List Char) (i j : Nat) : Prop where
  opening : cs[i]? = some '('
  closing : cs[j]? = some ')'
  lt : i < j
  inside : Balanced ((cs.drop (i + 1)).take (j - (i + 1)))

/-- at the offset stands a parenthesis that belongs to no other -/
def Partnerless (cs : List Char) (i : Nat) : Prop :=
  (cs[i]? = some '(' ∨ cs[i]? = some ')') ∧ ∀ j, ¬ Partners cs i j ∧ ¬ Partners cs j i

/-- behind a parenthesis and its partner the level is what it was in front of them -/
theorem Partners.level_eq {cs : List Char} {i j : Nat} (h : Partners cs i j) : level cs (j + 1) = level cs i := by
  have hj : j < cs.length := (List.getElem?_eq_some_iff.1 h.closing).1
  have hlength : ((cs.drop (i + 1)).take (j - (i + 1))).length = j - (i + 1) := by
    rw [List.length_take, List.length_drop]
    omega
  have hinside := h.inside.2
  rw [hlength, level_take _ le_rfl, level_drop, Nat.add_sub_cancel' h.lt, level_succ h.opening] at hinside
  rw [level_succ h.closing]
  have hopen : weight '(' = 1 := rfl
  have hclose : weight ')' = -1 := rfl
  omega

/-- a partner would stand at a level below zero -/
theorem partnerless_of_excess {cs : List Char} {i : Nat} (h : IsLeast {j | Excess cs j} i) : Partnerless cs i := by
  have hbefore : ∀ k ≤ i, 0 ≤ level cs k := level_nonneg_of_no_excess fun j hj hex => absurd (h.2 hex) (not_le.2 hj)
  refine ⟨.inr h.1.1, fun j => ⟨fun hp => ?_, fun hp => ?_⟩⟩
  · exact absurd (hp.opening.symm.trans h.1.1) (by decide)
  · have hlevel := h.1.2
    rw [hp.level_eq] at hlevel
    exact absurd (hbefore j hp.lt.le) (not_le.2 hlevel)

/-- where more parentheses are opened than closed, one is never closed -/
theorem exists_partnerless {cs : List Char} (h : 0 < level cs cs.length) :
    ∃ k, cs[k]? = some '(' ∧ Partnerless cs k := by
  -- the last place below the level of the end: from there the level rises, and it never falls back
  let below : Nat → Prop := fun k => level cs k < level cs cs.length
  have hstart : below 0 := by simpa [below] using h
  let k := Nat.findGreatest below cs.length
  have hk : below k := Nat.findGreatest_spec (Nat.zero_le _) hstart
  have habove : ∀ m, k < m → level cs cs.length ≤ level cs m := by
    intro m hm
    by_cases hle : m ≤ cs.length
    · exact not_lt.1 (Nat.findGreatest_is_greatest hm hle)
    · exact (level_of_length_le (by omega)).ge
  have hrises : level cs k < level cs (k + 1) := lt_of_lt_of_le hk (habove (k + 1) (Nat.lt_succ_self k))
  have hopen : cs[k]? = some '(' := by
    rcases level_step cs k with ⟨hopen, _⟩ | ⟨_, hfalls⟩ | ⟨_, _, hsame⟩
    · exact hopen
    · omega
    · omega
  refine ⟨k, hopen, .inl hopen, fun j => ⟨fun hp => ?_, fun hp => ?_⟩⟩
  · have hback := habove (j + 1) (by have := hp.lt; omega)
    rw [hp.level_eq] at hback
    exact absurd hk (not_lt.2 hback)
  · exact absurd (hp.closing.symm.trans hopen) (by decide)

theorem balanced_of_no_parenthesis {cs : List Char} (hopen : '(' ∉ cs) (hclose : ')' ∉ cs) : Balanced cs := by
  have hzero : ∀ k, level cs k = 0 := by
    intro k
    have hopens : (cs.take k).count '(' = 0 := List.count_eq_zero.2 fun h => hopen (List.mem_of_mem_take h)
    have hcloses : (cs.take k).count ')' = 0 := List.count_eq_zero.2 fun h => hclose (List.mem_of_mem_take h)
    rw [level, hopens, hcloses]
    rfl
  exact ⟨fun k => (hzero k).ge, hzero cs.length⟩

/-- an opening parenthesis with no other behind it is closed by the next closing one -/
theorem exists_partner {cs : List Char} {i : Nat} (hi : cs[i]? = some '(') (hlast : '(' ∉ cs.drop (i + 1))
    (hclose : ')' ∈ cs.drop (i + 1)) : ∃ j, Partners cs i j := by
  obtain ⟨inside, after, hsplit, hinside⟩ := List.eq_append_cons_of_mem hclose
  rw [hsplit] at hlast
  refine ⟨i + 1 + inside.length, hi, ?_, by omega, ?_⟩
  · rw [← List.getElem?_drop, hsplit, List.getElem?_append_right le_rfl, Nat.sub_self, List.getElem?_cons_zero]
  · rw [Nat.add_sub_cancel_left, hsplit, List.take_left]
    exact balanced_of_no_parenthesis (fun h => hlast (List.mem_append_left _ h)) hinside

/-- the last opening parenthesis is closed by the next closing one, and is open for good if there is none -/
theorem partnerless_last_iff {cs : List Char} {i : Nat} (h : IsGreatest {j | cs[j]? = some '('} i) :
    Partnerless cs i ↔ ')' ∉ cs.drop (i + 1) := by
  constructor
  · rintro ⟨_, hnone⟩ hclose
    have hlast : '(' ∉ cs.drop (i + 1) := by
      intro hmem
      obtain ⟨n, hn⟩ := List.mem_iff_getElem?.1 hmem
      rw [List.getElem?_drop] at hn
      have hle := h.2 hn
      omega
    obtain ⟨j, hp⟩ := exists_partner h.1 hlast hclose
    exact (hnone j).1 hp
  · intro hnone
    refine ⟨.inl h.1, fun j => ⟨fun hp => hnone ?_, fun hp => ?_⟩⟩
    · refine List.mem_iff_getElem?.2 ⟨j - (i + 1), ?_⟩
      rw [List.getElem?_drop, Nat.add_sub_cancel' hp.lt]
      exact hp.closing
    · exact absurd (hp.closing.symm.trans h.1) (by decide)

end Validation

open Validation

/-- **What a warning of unbalanced parentheses points at.** It points at the first closing parenthesis in excess, which
has no partner, if there is one. Otherwise it points at the last opening parenthesis. That one has no partner exactly
when no closing parenthesis stands behind it, while some opening parenthesis, there or in front of it, has none in any
case. -/
theorem unbalanced_points_at (s : String) (p : Option Nat) (h : validate s = some ⟨.unbalancedParentheses, p⟩) :
    ∃ i, p = some i ∧
      ((IsLeast {j | Excess s.toList j} i ∧ Partnerless s.toList i) ∨
       ((∀ j, ¬ Excess s.toList j) ∧ IsGreatest {j | s.toList[j]? = some '('} i ∧
        (Partnerless s.toList i ↔ ')' ∉ s.toList.drop (i + 1)) ∧
        ∃ k ≤ i, s.toList[k]? = some '(' ∧ Partnerless s.toList k)) := by
  obtain ⟨_, _, _, hfound, _⟩ := first?_eq_some_iff.1 h
  obtain ⟨i, hi, rfl⟩ := Option.map_eq_some_iff.1 hfound
  refine ⟨i, rfl, ?_⟩
  rcases unbalanced?_cases hi with hexcess | ⟨hnone, hup, hlast⟩
  · exact .inl ⟨hexcess, partnerless_of_excess hexcess⟩
  · obtain ⟨k, hopen, hk⟩ := exists_partnerless hup
    exact .inr ⟨fun j hj => absurd (hnone (j + 1)) (not_le.2 hj.2), hlast, partnerless_last_iff hlast, k, hlast.2 hopen,
      hopen, hk⟩

/-- `((z) + (c`: the last opening parenthesis is one of two that are never closed -/
theorem unbalanced_points_at_open :
    validate "((z) + (c" = some ⟨.unbalancedParentheses, some 7⟩ ∧ Partnerless "((z) + (c".toList 7 := by
  have h : validate "((z) + (c" = some ⟨.unbalancedParentheses, some 7⟩ := by decide
  obtain ⟨i, hi, hcase⟩ := unbalanced_points_at _ _ h
  obtain rfl : 7 = i := Option.some.inj hi
  rcases hcase with ⟨_, hpartnerless⟩ | ⟨_, _, hiff, _⟩
  · exact ⟨h, hpartnerless⟩
  · exact ⟨h, hiff.2 (by decide)⟩

/-- `(()`: the warning points at the second parenthesis, which is closed by the third, and not at the first, which is
not -/
theorem unbalanced_points_at_closed :
    validate "(()" = some ⟨.unbalancedParentheses, some 1⟩ ∧ Partners "(()".toList 1 2 ∧ ¬ Partnerless "(()".toList 1 ∧
    Partnerless "(()".toList 0 := by
  have hpartners : Partners "(()".toList 1 2 := ⟨rfl, rfl, by decide, fun k => (level_nil k).ge, rfl⟩
  refine ⟨by decide, hpartners, fun h => (h.2 2).1 hpartners, .inl rfl, fun j => ⟨fun hp => ?_, fun hp => ?_⟩⟩
  · -- the level does not come back to zero behind the first parenthesis
    have habove : ∀ j < 3, level "(()".toList (j + 1) ≠ 0 := by decide
    exact habove j (List.getElem?_eq_some_iff.1 hp.closing).1 hp.level_eq
  · exact absurd hp.closing (by decide)

end EscapeTime
