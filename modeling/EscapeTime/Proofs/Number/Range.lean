/-
Which numbers are out of range.

Rounding finds the magnitudes on both sides of a ratio (`floorMagnitude_bounds`). From halfway between the largest
finite value and the power of two behind it on, a ratio rounds to infinity:

- `infinity_le_nearestMagnitude_iff`, `isFinite_toBinary64_iff`: a decimal has a finite value exactly when it is less
  than 2^1024 - 2^970.
- `ofDecimal_eq`: so the reader of numbers may settle very large and very small decimals without rounding.
- `ofText?_normalized`: a number of an equation, with a zero put where its point has no digit, is a text that the reader
  accepts, and both give it the same value.
-/
import EscapeTime.Binary64.Reading
import EscapeTime.Proofs.Number.Numeral

namespace EscapeTime

namespace Binary64

/-! ## Bounds -/

/-- rounding down keeps the first 53 binary digits -/
theorem floorMagnitude_large {u : Nat} (h : ¬ u < 2 ^ 52) :
    ∃ q f, f < 2 ^ 52 ∧ floorMagnitude u = (q + 1) * 2 ^ 52 + f ∧ u / 2 ^ q = 2 ^ 52 + f := by
  have hne : u ≠ 0 := by omega
  obtain ⟨q, hq⟩ : ∃ q, u.log2 = 52 + q := Nat.exists_eq_add_of_le ((Nat.le_log2 hne).2 (by omega))
  have hpos : 0 < 2 ^ q := Nat.two_pow_pos q
  have hlow : 2 ^ 52 ≤ u / 2 ^ q := by
    rw [Nat.le_div_iff_mul_le hpos, ← Nat.pow_add, ← hq]
    exact Nat.log2_self_le hne
  have hhigh : u / 2 ^ q < 2 ^ 53 := by
    rw [Nat.div_lt_iff_lt_mul hpos, ← Nat.pow_add]
    have hlog : u < 2 ^ (u.log2 + 1) := Nat.lt_log2_self
    rwa [hq, Nat.add_right_comm] at hlog
  obtain ⟨f, hf⟩ := Nat.exists_eq_add_of_le hlow
  refine ⟨q, f, by omega, ?_, hf⟩
  simp only [floorMagnitude, Nat.pow_eq, h, if_false, hq, Nat.add_sub_cancel_left, hf]
  omega

/-- rounding down finds the magnitudes on both sides -/
theorem floorMagnitude_bounds (u : Nat) : units (floorMagnitude u) ≤ u ∧ u < units (floorMagnitude u + 1) := by
  by_cases hsmall : u < 2 ^ 52
  · have hfloor : floorMagnitude u = u := if_pos hsmall
    have hnext := units_lt_succ u
    rw [units_small hsmall] at hnext
    rw [hfloor, units_small hsmall]
    exact ⟨le_rfl, hnext⟩
  · obtain ⟨q, f, hlt, hfloor, hf⟩ := floorMagnitude_large hsmall
    rw [hfloor, Nat.add_assoc, units_upTo q f hlt.le, units_upTo q (f + 1) hlt, ← Nat.add_assoc, ← hf]
    exact ⟨Nat.div_mul_le_self u _, (Nat.div_lt_iff_lt_mul (Nat.two_pow_pos q)).1 (Nat.lt_succ_self _)⟩

theorem units_strictMono : StrictMono units :=
  strictMono_nat_of_lt_succ units_lt_succ

/-- where one is 2^k units, the value 2^(j + 54) and the one in front of it -/
theorem units_power (j : Nat) {k : Nat} (hone : unitsPerOne = Nat.pow 2 k) :
    units ((j + k + 2 + 1) * 2 ^ 52) = 2 ^ 54 * (2 ^ j * unitsPerOne) ∧
    units ((j + k + 2 + 1) * 2 ^ 52 - 1) = (2 ^ 54 - 2) * (2 ^ j * unitsPerOne) := by
  have hbefore : (j + k + 2 + 1) * 2 ^ 52 - 1 = (j + k + 1 + 1) * 2 ^ 52 + (2 ^ 52 - 1) := by omega
  rw [hone, Nat.pow_eq]
  constructor
  · rw [← Nat.add_zero ((j + k + 2 + 1) * 2 ^ 52), units_large (j + k + 2) 0 (by decide)]
    ring
  · rw [hbefore, units_large (j + k + 1) _ (by decide)]
    ring

theorem unitsPerOne_pos : 0 < unitsPerOne := by
  obtain ⟨k, hk⟩ : ∃ k, unitsPerOne = Nat.pow 2 k := ⟨_, unitsPerOne.eq_1⟩
  rw [hk]
  exact Nat.two_pow_pos k

theorem infinity_eq : infinity = (970 + 1074 + 2 + 1) * 2 ^ 52 := by decide

/-- the value behind the largest finite one would be 2^1024 -/
theorem units_infinity : units infinity = 2 ^ 54 * (2 ^ 970 * unitsPerOne) := by
  have hpower := (units_power 970 unitsPerOne.eq_1).1
  rwa [← infinity_eq] at hpower

theorem units_largest : units (infinity - 1) = (2 ^ 54 - 2) * (2 ^ 970 * unitsPerOne) := by
  have hpower := (units_power 970 unitsPerOne.eq_1).2
  rwa [← infinity_eq] at hpower

/-! ## Rounding to infinity and to zero -/

/-- **A ratio rounds to infinity** exactly from 2^1024 - 2^970 on. That is halfway between the largest finite value and
2^1024, and halfway counts, since the magnitude of the largest finite value is odd. -/
theorem infinity_le_nearestMagnitude_iff (num : Nat) {den : Nat} (hden : 0 < den) :
    infinity ≤ nearestMagnitude num den ↔ (2 ^ 54 - 1) * 2 ^ 970 * den ≤ num := by
  have hscale : (2 ^ 54 - 1) * 2 ^ 970 * den ≤ num ↔
      (2 ^ 54 - 1) * (2 ^ 970 * unitsPerOne * den) ≤ num * unitsPerOne := by
    rw [← Nat.mul_le_mul_right_iff unitsPerOne_pos]
    have hcomm : (2 ^ 54 - 1) * 2 ^ 970 * den * unitsPerOne = (2 ^ 54 - 1) * (2 ^ 970 * unitsPerOne * den) := by
      rw [Nat.mul_assoc, Nat.mul_assoc, Nat.mul_assoc, Nat.mul_comm den]
    rw [hcomm]
  rw [hscale]
  simp only [nearestMagnitude]
  generalize num * unitsPerOne = scaled
  obtain ⟨hlow, hhigh⟩ := floorMagnitude_bounds (scaled / den)
  generalize floorMagnitude (scaled / den) = below at hlow hhigh
  rw [Nat.le_div_iff_mul_le hden] at hlow
  rw [Nat.div_lt_iff_lt_mul hden] at hhigh
  rcases Nat.lt_trichotomy below (infinity - 1) with hlt | rfl | hgt
  · -- the ratio is less than the largest finite value
    have hle : units (below + 1) ≤ units (infinity - 1) := units_strictMono.monotone hlt
    have hbound := hhigh.trans_le (Nat.mul_le_mul_right den hle)
    rw [units_largest, Nat.mul_assoc] at hbound
    generalize 2 ^ 970 * unitsPerOne * den = x at hbound ⊢
    have hnot : ¬ (2 ^ 54 - 1) * x ≤ scaled := by omega
    refine iff_of_false ?_ hnot
    split_ifs <;> omega
  · have hsucc : infinity - 1 + 1 = infinity := by decide
    have hodd : (infinity - 1) % 2 = 1 := by decide
    have hless : ¬ infinity ≤ infinity - 1 := by decide
    rw [hsucc, units_infinity, units_largest, ← Nat.add_mul, Nat.mul_assoc]
    generalize 2 ^ 970 * unitsPerOne * den = x
    split_ifs <;> omega
  · have hle : units infinity ≤ units below := units_strictMono.monotone (by omega)
    have hbound := (Nat.mul_le_mul_right den hle).trans hlow
    rw [units_infinity, Nat.mul_assoc] at hbound
    generalize 2 ^ 970 * unitsPerOne * den = x at hbound ⊢
    have hyes : (2 ^ 54 - 1) * x ≤ scaled := by omega
    refine iff_of_true ?_ hyes
    split_ifs <;> omega

/-- a ratio nearer to zero than to the least positive value -/
theorem nearestMagnitude_eq_zero {num den : Nat} (h : 2 * (num * unitsPerOne) < den) :
    nearestMagnitude num den = 0 := by
  have hfloor : num * unitsPerOne / den = 0 := Nat.div_eq_of_lt (by omega)
  have hzero : floorMagnitude 0 = 0 := by decide
  have hmiddle : (units 0 + units (0 + 1)) * den = den := by
    rw [units_small (by decide), units_small (by decide), Nat.zero_add, Nat.one_mul]
  simp only [nearestMagnitude, hfloor, hzero, hmiddle, h, if_true]

theorem ofMagnitude_of_le {n : Nat} (h : infinity ≤ n) : ofMagnitude n = ofMagnitude infinity := by
  rw [ofMagnitude, ofMagnitude, Nat.min_eq_right h, Nat.min_self]

theorem isFinite_ofMagnitude_iff (n : Nat) : (ofMagnitude n).isFinite = true ↔ n < infinity := by
  rw [isFinite, decide_eq_true_eq]
  rcases Nat.lt_or_ge n infinity with h | h
  · rw [magnitude_ofMagnitude h.le]
  · rw [ofMagnitude_of_le h, magnitude_ofMagnitude le_rfl]
    omega

end Binary64

/-! ## Decimals in range -/

namespace Decimal

open Binary64

/-- the number that a decimal stands for -/
def value (d : Decimal) : ℚ :=
  d.coefficient * 10 ^ d.exponent

/-- a decimal as a ratio of naturals -/
theorem exists_ratio (d : Decimal) :
    ∃ num den, 0 < den ∧ d.toBinary64 = ofRatio num den ∧ d.value = (num : ℚ) / den := by
  obtain ⟨m, e⟩ := d
  by_cases he : 0 ≤ e
  · obtain ⟨k, rfl⟩ := Int.eq_ofNat_of_zero_le he
    refine ⟨m * 10 ^ k, 1, Nat.one_pos, by simp [toBinary64], ?_⟩
    simp [value]
  · obtain ⟨k, hk⟩ := Int.eq_ofNat_of_zero_le (show 0 ≤ -e by omega)
    obtain rfl : e = -(k : Int) := by omega
    refine ⟨m, 10 ^ k, Nat.pow_pos (by decide), toBinary64_places m k, ?_⟩
    simp [value, zpow_neg, div_eq_mul_inv]

/-- a ratio rounds to infinity exactly from 2^1024 - 2^970 on -/
theorem limit_le_iff (num : Nat) {den : Nat} (hden : 0 < den) :
    (2 ^ 1024 - 2 ^ 970 : ℚ) ≤ num / den ↔ infinity ≤ nearestMagnitude num den := by
  have hlimit : (2 ^ 1024 - 2 ^ 970 : ℚ) = ((2 ^ 54 - 1) * 2 ^ 970 : ℕ) := by
    have hpow : (2 : ℚ) ^ 1024 = 2 ^ 54 * 2 ^ 970 := pow_add 2 54 970
    rw [hpow, Nat.cast_mul, Nat.cast_pow, Nat.cast_ofNat, ← sub_one_mul]
    norm_num only
  rw [infinity_le_nearestMagnitude_iff num hden, hlimit, le_div_iff₀ (by exact_mod_cast hden)]
  norm_cast

/-- **A decimal has a finite value** exactly when it is less than 2^1024 - 2^970. -/
theorem isFinite_toBinary64_iff (d : Decimal) : d.toBinary64.isFinite = true ↔ d.value < 2 ^ 1024 - 2 ^ 970 := by
  obtain ⟨num, den, hden, hround, hvalue⟩ := d.exists_ratio
  rw [hround, hvalue, ofRatio, isFinite_ofMagnitude_iff, ← not_le, ← not_le, limit_le_iff num hden]

theorem toBinary64_of_large {d : Decimal} (h : 2 ^ 1024 - 2 ^ 970 ≤ d.value) : d.toBinary64 = ofMagnitude infinity := by
  obtain ⟨num, den, hden, hround, hvalue⟩ := d.exists_ratio
  rw [hvalue, limit_le_iff num hden] at h
  rw [hround, ofRatio, ofMagnitude_of_le h]

theorem toBinary64_of_small {d : Decimal} (h : d.value * (2 * unitsPerOne) < 1) : d.toBinary64 = ofMagnitude 0 := by
  obtain ⟨num, den, hden, hround, hvalue⟩ := d.exists_ratio
  have hsmall : 2 * (num * unitsPerOne) < den := by
    have hden' : (0 : ℚ) < den := by exact_mod_cast hden
    rw [hvalue, div_mul_eq_mul_div, div_lt_one hden'] at h
    have hnat : num * (2 * unitsPerOne) < den := by exact_mod_cast h
    rwa [Nat.mul_left_comm] at hnat
  rw [hround, ofRatio, nearestMagnitude_eq_zero hsmall]

/-! ## Very large and very small decimals -/

/-- a decimal lies between two powers of ten, by the place of its first digit -/
theorem value_bounds {d : Decimal} (hne : d.coefficient ≠ 0) :
    (10 : ℚ) ^ (d.pointOffset - 1) ≤ d.value ∧ d.value < 10 ^ d.pointOffset := by
  have hten : (10 : ℚ) ≠ 0 := by norm_num
  have hpos : (0 : ℚ) < 10 ^ d.exponent := by positivity
  obtain ⟨k, hk⟩ : ∃ k, (Nat.toDigits 10 d.coefficient).length = k + 1 :=
    Nat.exists_eq_succ_of_ne_zero (List.length_pos_iff.2 Nat.toDigits_ne_nil).ne'
  have hhigh : d.coefficient < 10 ^ (k + 1) := (Nat.length_toDigits_le_iff (by decide) (by omega)).1 hk.le
  have hlow : 10 ^ k ≤ d.coefficient := by
    rcases Nat.eq_zero_or_pos k with rfl | hkpos
    · rw [Nat.pow_zero]
      omega
    · by_contra hless
      have := (Nat.length_toDigits_le_iff (by decide) hkpos).2 (Nat.lt_of_not_le hless)
      omega
  have hfirst : d.pointOffset - 1 = k + d.exponent := by
    rw [pointOffset, hk]
    push_cast
    ring
  have hlast : d.pointOffset = (k + 1 : ℕ) + d.exponent := by rw [pointOffset, hk, add_comm]
  rw [hfirst, hlast, zpow_add₀ hten, zpow_add₀ hten, zpow_natCast, zpow_natCast, value]
  constructor
  · exact mul_le_mul_of_nonneg_right (by exact_mod_cast hlow) hpos.le
  · exact mul_lt_mul_of_pos_right (by exact_mod_cast hhigh) hpos

/-- **Settling very large and very small decimals without rounding changes nothing.** -/
theorem ofDecimal_eq (d : Decimal) : ofDecimal d = d.toBinary64 := by
  unfold ofDecimal
  split_ifs with hhuge htiny
  · simp only [isHuge, Bool.and_eq_true, bne_iff_ne, decide_eq_true_eq] at hhuge
    obtain ⟨hne, hpoint⟩ := hhuge
    refine (toBinary64_of_large ?_).symm
    have hpow : (2 : ℚ) ^ 1024 ≤ 10 ^ 310 := by
      have : 2 ^ 1024 ≤ 10 ^ 310 := by decide +kernel
      exact_mod_cast this
    calc (2 : ℚ) ^ 1024 - 2 ^ 970 ≤ 2 ^ 1024 := sub_le_self _ (by positivity)
      _ ≤ 10 ^ 310 := hpow
      _ = 10 ^ (310 : ℤ) := (zpow_natCast _ _).symm
      _ ≤ 10 ^ (d.pointOffset - 1) := zpow_le_zpow_right₀ (by norm_num) (by omega)
      _ ≤ d.value := (value_bounds hne).1
  · simp only [isTiny, Bool.or_eq_true, beq_iff_eq, decide_eq_true_eq] at htiny
    refine (toBinary64_of_small ?_).symm
    by_cases hzero : d.coefficient = 0
    · rw [value, hzero, Nat.cast_zero, zero_mul, zero_mul]
      exact one_pos
    · have hpoint := htiny.resolve_left hzero
      have hpos : (0 : ℚ) < 2 * unitsPerOne := mul_pos two_pos (Nat.cast_pos.2 unitsPerOne_pos)
      have hunits : (2 * unitsPerOne : ℚ) ≤ 10 ^ 331 := by
        have : 2 * unitsPerOne ≤ 10 ^ 331 := by decide +kernel
        exact_mod_cast this
      calc d.value * (2 * unitsPerOne)
          < 10 ^ d.pointOffset * (2 * unitsPerOne) := mul_lt_mul_of_pos_right (value_bounds hzero).2 hpos
        _ ≤ 10 ^ (-331 : ℤ) * 10 ^ 331 :=
          mul_le_mul (zpow_le_zpow_right₀ (by norm_num) (by omega)) hunits hpos.le (by positivity)
        _ = 1 := by rw [zpow_neg, ← zpow_natCast]; exact inv_mul_cancel₀ (by positivity)
  · rfl

end Decimal

/-! ## Numbers of an equation -/

/-- how numbers are written in an equation: digits, at most one point, and a digit behind a point that comes first -/
inductive Literal : List Char → Prop where
  | numeral {text : List Char} (h : Numeral text) : Literal text
  | fraction {f : List Char} (hne : f ≠ []) (hf : ∀ d ∈ f, d.isDigit = true) : Literal ('.' :: f)

/-- the text with a zero where its point has no digit in front of it or behind it -/
def normalized (text : List Char) : List Char :=
  let whole := if text.head? = some '.' then '0' :: text else text
  if whole.getLast? = some '.' then whole ++ ['0'] else whole

namespace Binary64

open Decimal

/-- a numeral is read as the decimal it denotes -/
theorem decimal?_numeral {text : List Char} (h : Numeral text) : decimal? text = some (ofNumeral text) := by
  cases h with
  | whole hne hw =>
    have htake := takeWhile_run [] hw (by simp)
    rw [List.append_nil] at htake
    simp [decimal?, ofNumeral_whole hw, htake, hne, exponent?]
  | @pointed w f hne hw hf =>
    have hpoint : ∀ c ∈ ('.' :: f).head?, c.isDigit = false := by simp
    have htake := takeWhile_run [] hf (by simp)
    rw [List.append_nil] at htake
    simp [decimal?, ofNumeral_pointed hw, takeWhile_run _ hw hpoint, htake, hne, exponent?]

/-- a text that begins with a digit is neither a signed one nor a word -/
theorem ofText?_digit {c : Char} (hc : c.isDigit = true) (rest : List Char) :
    ofText? (c :: rest) = (decimal? (c :: rest)).map ofDecimal := by
  have hne : ∀ d : Char, d.isDigit = false → c ≠ d := by
    rintro d hd rfl
    rw [hc] at hd
    cases hd
  have hlower : c.toLower = c := by
    refine dif_neg fun hupper => ?_
    have hletter : 'A'.toNat ≤ c.toNat := hupper.1
    have hdigit : c.toNat ≤ '9'.toNat := (Char.isDigit_iff_toNat.1 hc).2
    exact absurd (hletter.trans hdigit) (by decide)
  have hsign : splitSign (c :: rest) = (false, c :: rest) := by
    unfold splitSign
    split
    · rename_i heq
      exact absurd (List.cons.inj heq).1 (hne '-' rfl)
    · rename_i heq
      exact absurd (List.cons.inj heq).1 (hne '+' rfl)
    · rfl
  have hword : ∀ w ∈ ["inf", "infinity", "nan"], String.ofList ((c :: rest).map Char.toLower) ≠ w := by
    have hletter : ∀ w ∈ ["inf", "infinity", "nan"], w.toList.head?.any Char.isDigit = false := by decide
    intro w hw heq
    have hfirst := hletter w hw
    rw [← heq, String.toList_ofList, List.map_cons, List.head?_cons, hlower, Option.any_some, hc] at hfirst
    cases hfirst
  have hinf := hword "inf" (by simp)
  have hinfinity := hword "infinity" (by simp)
  have hnan := hword "nan" (by simp)
  simp only [ofText?, hsign, unsigned?, beq_false_of_ne hinf, beq_false_of_ne hinfinity, beq_false_of_ne hnan,
    Bool.or_self, Bool.false_eq_true, if_false, Option.map_map]
  rfl

/-- **A numeral is read as its value.** -/
theorem ofText?_numeral {text : List Char} (h : Numeral text) : ofText? text = some (ofNumeral text).toBinary64 := by
  obtain ⟨c, rest, rfl, hc⟩ := numeral_head h
  rw [ofText?_digit hc, decimal?_numeral h, Option.map_some, ofDecimal_eq]

end Binary64

theorem getLast?_digits {f : List Char} (hf : ∀ d ∈ f, d.isDigit = true) : f.getLast? ≠ some '.' :=
  fun h => absurd (hf '.' (List.mem_of_getLast? h)) (by decide)

theorem getLast?_pointed (w : List Char) {f : List Char} (hne : f ≠ []) (hf : ∀ d ∈ f, d.isDigit = true) :
    (w ++ '.' :: f).getLast? ≠ some '.' := by
  rw [List.append_cons, List.getLast?_append_of_ne_nil _ hne]
  exact getLast?_digits hf

theorem head?_numeral {text : List Char} (h : Numeral text) : text.head? ≠ some '.' := by
  obtain ⟨c, rest, rfl, hc⟩ := Binary64.numeral_head h
  intro hpoint
  cases hpoint
  exact absurd hc (by decide)

/-- with digits on both sides of the point, or without a point, no zero is put in -/
theorem normalized_eq {text : List Char} (hhead : text.head? ≠ some '.') (hlast : text.getLast? ≠ some '.') :
    normalized text = text := by
  simp only [normalized, hhead, hlast, if_false]

/-- a zero behind the point does not change the value -/
theorem toBinary64_closed {w : List Char} (hw : ∀ c ∈ w, c.isDigit = true) :
    (Decimal.ofNumeral (w ++ '.' :: ['0'])).toBinary64 = (Decimal.ofNumeral (w ++ '.' :: [])).toBinary64 := by
  have hcoefficient : Nat.ofDigitChars 10 (w ++ ['0']) 0 = Nat.ofDigitChars 10 (w ++ []) 0 * 10 := by
    rw [List.append_nil, Nat.ofDigitChars_append, Nat.mul_comm]
    rfl
  rw [Decimal.ofNumeral_pointed hw, Decimal.ofNumeral_pointed hw, hcoefficient, Decimal.toBinary64_places,
    Decimal.toBinary64_places]
  exact Binary64.ofRatio_scale _ 1 (by decide)

/-- the zeros make a numeral of the text and do not change its value -/
theorem numeral_normalized {text : List Char} (h : Literal text) :
    Numeral (normalized text) ∧
    (Decimal.ofNumeral (normalized text)).toBinary64 = (Decimal.ofNumeral text).toBinary64 := by
  cases h with
  | @fraction f hne hf =>
    have hlast : ('0' :: '.' :: f).getLast? ≠ some '.' := getLast?_pointed ['0'] hne hf
    have htext : normalized ('.' :: f) = ['0'] ++ '.' :: f := by
      simp only [normalized, List.head?_cons, if_true, hlast, if_false, List.singleton_append]
    have hcoefficient : Nat.ofDigitChars 10 (['0'] ++ f) 0 = Nat.ofDigitChars 10 ([] ++ f) 0 :=
      Nat.ofDigitChars_append 0
    have hfraction : Decimal.ofNumeral ([] ++ '.' :: f) = _ := Decimal.ofNumeral_pointed (by simp)
    rw [htext, Decimal.ofNumeral_pointed (by simp), hcoefficient, ← hfraction]
    exact ⟨.pointed (by simp) (by simp) hf, rfl⟩
  | numeral hnum =>
    have hhead := head?_numeral hnum
    cases hnum with
    | whole hne hw =>
      rw [normalized_eq hhead (getLast?_digits hw)]
      exact ⟨.whole hne hw, rfl⟩
    | @pointed w f hne hw hf =>
      by_cases hf0 : f = []
      · subst hf0
        have htext : normalized (w ++ ['.']) = w ++ '.' :: ['0'] := by
          simp only [normalized, hhead, if_false, List.getLast?_concat, if_true, List.append_assoc,
            List.singleton_append]
        rw [htext]
        exact ⟨.pointed hne hw (by simp), toBinary64_closed hw⟩
      · rw [normalized_eq hhead (getLast?_pointed w hf0 hf)]
        exact ⟨.pointed hne hw hf, rfl⟩

/-- **Every number of an equation can be read.** With the zeros put in, the reader of numbers accepts it and gives it
the value that the lexer gives it. -/
theorem ofText?_normalized {text : List Char} (h : Literal text) :
    Binary64.ofText? (normalized text) = some (Decimal.ofNumeral text).toBinary64 := by
  obtain ⟨hnum, hvalue⟩ := numeral_normalized h
  rw [Binary64.ofText?_numeral hnum, hvalue]

end EscapeTime
