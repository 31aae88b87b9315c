/-
Rounding to binary64 is exact on binary64 values.

Magnitudes count the non-negative values in order, and `units` is their value in units of 2^-1074. The order is strict
(`units_lt_succ`), and `floorMagnitude` inverts `units` (`floorMagnitude_units`). So a ratio that is exactly the value
of a magnitude rounds to that magnitude (`nearestMagnitude_exact`), and rounding depends on the ratio only, not on how
it is written as a fraction (`nearestMagnitude_scale`).

- `exact_readsBack`: the exact decimal of a finite value reads back as that value.
- `toBinary64_shortest`: so does the shortest one, since the search stops only at a decimal that does.
- `eq_of_magnitude`: a value is its sign and its magnitude.
-/
import Mathlib.Tactic
import EscapeTime.Decimal.Shortest

namespace EscapeTime

namespace Binary64

/-! ## Magnitudes and units -/

theorem units_small {n : Nat} (h : n < 2 ^ 52) : units n = n :=
  if_pos h

/-- a magnitude past the subnormal ones, by exponent and fraction -/
theorem units_large (q f : Nat) (hf : f < 2 ^ 52) : units ((q + 1) * 2 ^ 52 + f) = (2 ^ 52 + f) * 2 ^ q := by
  have hbig : ¬ (q + 1) * 2 ^ 52 + f < 2 ^ 52 := by omega
  have hdiv : ((q + 1) * 2 ^ 52 + f) / 2 ^ 52 = q + 1 := by omega
  have hmod : ((q + 1) * 2 ^ 52 + f) % 2 ^ 52 = f := by omega
  simp only [units, Nat.pow_eq, hbig, if_false, hdiv, hmod, Nat.add_sub_cancel]

/-- the same up to the first magnitude of the next exponent -/
theorem units_upTo (q f : Nat) (hf : f ≤ 2 ^ 52) : units ((q + 1) * 2 ^ 52 + f) = (2 ^ 52 + f) * 2 ^ q := by
  rcases Nat.lt_or_eq_of_le hf with hlt | rfl
  · exact units_large q f hlt
  · have hn : (q + 1) * 2 ^ 52 + 2 ^ 52 = (q + 1 + 1) * 2 ^ 52 + 0 := by omega
    rw [hn, units_large (q + 1) 0 (by decide)]
    ring

/-- every magnitude is subnormal or has an exponent and a fraction -/
theorem magnitude_cases (n : Nat) : n < 2 ^ 52 ∨ ∃ q f, f < 2 ^ 52 ∧ n = (q + 1) * 2 ^ 52 + f := by
  by_cases h : n < 2 ^ 52
  · exact .inl h
  · exact .inr ⟨n / 2 ^ 52 - 1, n % 2 ^ 52, by omega, by omega⟩

/-- the next magnitude is a larger value, also where the exponent changes -/
theorem units_lt_succ (n : Nat) : units n < units (n + 1) := by
  rcases magnitude_cases n with h | ⟨q, f, hf, rfl⟩
  · rw [units_small h]
    by_cases h' : n + 1 < 2 ^ 52
    · rw [units_small h']; omega
    · have hn : n + 1 = (0 + 1) * 2 ^ 52 + 0 := by omega
      rw [hn, units_large 0 0 (by decide)]
      omega
  · rw [units_large q f hf, Nat.add_assoc, units_upTo q (f + 1) hf]
    exact Nat.mul_lt_mul_of_pos_right (by omega) (Nat.two_pow_pos q)

theorem floorMagnitude_units (n : Nat) : floorMagnitude (units n) = n := by
  rcases magnitude_cases n with h | ⟨q, f, hf, rfl⟩
  · rw [units_small h]
    exact if_pos h
  · have hpos : 0 < 2 ^ q := Nat.two_pow_pos q
    have hlow : 2 ^ (52 + q) ≤ (2 ^ 52 + f) * 2 ^ q := by
      rw [Nat.pow_add]
      exact Nat.mul_le_mul_right _ (by omega)
    have hhigh : (2 ^ 52 + f) * 2 ^ q < 2 ^ (52 + q + 1) := by
      rw [Nat.add_right_comm, Nat.pow_add]
      exact Nat.mul_lt_mul_of_pos_right (by omega) hpos
    have hne : (2 ^ 52 + f) * 2 ^ q ≠ 0 := by positivity
    have hlog : ((2 ^ 52 + f) * 2 ^ q).log2 = 52 + q := (Nat.log2_eq_iff hne).2 ⟨hlow, hhigh⟩
    have hbig : ¬ (2 ^ 52 + f) * 2 ^ q < 2 ^ 52 := by
      have := Nat.le_mul_of_pos_right (2 ^ 52 + f) hpos
      omega
    simp only [units_large q f hf, floorMagnitude, Nat.pow_eq, hbig, if_false, hlog, Nat.add_sub_cancel_left,
      Nat.mul_div_cancel _ hpos]
    omega

/-! ## Rounding -/

/-- a ratio that is exactly the value of a magnitude rounds to it -/
theorem nearestMagnitude_exact {num den n : Nat} (hden : 0 < den) (h : num * unitsPerOne = units n * den) :
    nearestMagnitude num den = n := by
  have hfloor : floorMagnitude (num * unitsPerOne / den) = n := by
    rw [h, Nat.mul_div_cancel _ hden, floorMagnitude_units]
  have hbelow : 2 * (num * unitsPerOne) < (units n + units (n + 1)) * den := by
    rw [h, ← Nat.mul_assoc]
    exact Nat.mul_lt_mul_of_pos_right (by have := units_lt_succ n; omega) hden
  simp only [nearestMagnitude, hfloor, hbelow, if_true]

/-- rounding depends on the ratio only -/
theorem nearestMagnitude_scale (num den : Nat) {k : Nat} (hk : 0 < k) :
    nearestMagnitude (num * k) (den * k) = nearestMagnitude num den := by
  have hscaled : num * k * unitsPerOne = num * unitsPerOne * k := Nat.mul_right_comm _ _ _
  have hdouble : ∀ a b : Nat, 2 * (a * k) < b * (den * k) ↔ 2 * a < b * den := by
    intro a b
    rw [← Nat.mul_assoc, ← Nat.mul_assoc]
    exact Nat.mul_lt_mul_right hk
  have hdouble' : ∀ a b : Nat, b * (den * k) < 2 * (a * k) ↔ b * den < 2 * a := by
    intro a b
    rw [← Nat.mul_assoc, ← Nat.mul_assoc]
    exact Nat.mul_lt_mul_right hk
  simp only [nearestMagnitude, hscaled, Nat.mul_div_mul_right _ _ hk, hdouble, hdouble']

theorem ofRatio_scale (num den : Nat) {k : Nat} (hk : 0 < k) : ofRatio (num * k) (den * k) = ofRatio num den := by
  rw [ofRatio, ofRatio, nearestMagnitude_scale num den hk]

theorem infinity_lt : infinity < 2 ^ 63 := by decide

theorem magnitude_ofMagnitude {n : Nat} (h : n ≤ infinity) : (ofMagnitude n).magnitude = n := by
  have := infinity_lt
  simp only [magnitude, ofMagnitude, Nat.pow_eq, Nat.min_eq_left h, UInt64.toNat_ofNat']
  omega

theorem isNegative_ofMagnitude (n : Nat) : (ofMagnitude n).isNegative = false := by
  have := infinity_lt
  have hle : min n infinity ≤ infinity := Nat.min_le_right _ _
  simp only [isNegative, ofMagnitude, Nat.pow_eq, UInt64.toNat_ofNat', decide_eq_false_iff_not]
  omega

/-- a value is its sign and its magnitude -/
theorem eq_of_magnitude {x y : Binary64} (hs : x.isNegative = y.isNegative) (hm : x.magnitude = y.magnitude) :
    x = y := by
  have hx := x.bits.toNat_lt
  have hy := y.bits.toNat_lt
  have hbits : x.bits.toNat = y.bits.toNat := by
    simp only [isNegative, Nat.pow_eq, decide_eq_decide] at hs
    simp only [magnitude, Nat.pow_eq] at hm
    omega
  cases x; cases y
  simpa using UInt64.toNat_inj.1 hbits

end Binary64

namespace Decimal

open Binary64

/-! ## Decimals that read back -/

theorem isNegative_toBinary64 (d : Decimal) : d.toBinary64.isNegative = false := by
  unfold toBinary64
  split_ifs <;> exact isNegative_ofMagnitude _

/-- where one is 2^k units, the decimal over 10^-k with the same value as so many units -/
theorem nearestMagnitude_decimal (n k : Nat) (h : unitsPerOne = Nat.pow 2 k) :
    nearestMagnitude (units n * Nat.pow 5 k) (Nat.pow 10 k) = n := by
  refine nearestMagnitude_exact (Nat.pow_pos (by decide)) ?_
  rw [h, Nat.mul_assoc]
  exact congrArg _ (Nat.mul_pow 5 2 k).symm

/-- the exact decimal of a finite value reads back -/
theorem exact_readsBack {n : Nat} (h : n < infinity) : readsBack n (exact n) = true := by
  have hneg : ¬ (0 : Int) ≤ -1074 := by decide
  have hplaces : (-(-1074 : Int)).toNat = 1074 := rfl
  simp only [readsBack, exact, toBinary64, hneg, if_false, hplaces, ofRatio, exactCoefficient,
    nearestMagnitude_decimal n 1074 unitsPerOne.eq_1, magnitude_ofMagnitude (Nat.le_of_lt h), beq_self_eq_true]

theorem nearer_cases (tie : Tie) (low up : Decimal) (rest dropped : Nat) :
    nearer tie low up rest dropped = low ∨ nearer tie low up rest dropped = up := by
  unfold nearer
  split
  · exact .inl rfl
  · split
    · exact .inr rfl
    · cases tie with
      | up => exact .inr rfl
      | toEven => dsimp only; split <;> simp

theorem onGrid?_readsBack {tie : Tie} {n dropped : Nat} {d : Decimal} (h : onGrid? tie n dropped = some d) :
    readsBack n d = true := by
  simp only [onGrid?] at h
  split at h
  · rename_i hlow hup
    cases h
    rcases nearer_cases tie _ _ _ dropped with heq | heq
    · rw [heq]; exact hlow
    · rw [heq]; exact hup
  · rename_i hlow _; cases h; exact hlow
  · rename_i _ hup; cases h; exact hup
  · cases h

/-- whatever grid the search stops at -/
theorem search_readsBack {tie : Tie} {n : Nat} (h : n < infinity) (dropped : Nat) :
    readsBack n (search tie n dropped) = true := by
  induction dropped with
  | zero => exact exact_readsBack h
  | succ k ih =>
    rw [search]
    split
    · rename_i d hd; exact onGrid?_readsBack hd
    · exact ih

/-- **The shortest decimal of a finite value without sign reads back as that value.** -/
theorem toBinary64_shortest {x : Binary64} {tie : Tie} (hfin : x.isFinite = true) (hpos : x.isNegative = false) :
    (shortest tie x.magnitude).toBinary64 = x := by
  have hread : readsBack x.magnitude (shortest tie x.magnitude) = true :=
    search_readsBack (by simpa [isFinite] using hfin) _
  exact eq_of_magnitude ((isNegative_toBinary64 _).trans hpos.symm) (beq_iff_eq.1 hread)

end Decimal

end EscapeTime
