/-
Texts of binary64 values read back.

A *numeral* is a run of digits, with or without a point and further digits behind it. The positional text of a decimal
is a numeral (`numeral_positional`), and the numeral denotes a decimal of the same value, whatever zeros were cut off or
filled in (`toBinary64_positional`). With `toBinary64_shortest` this gives the two round trips:

- `ofNumeral_display`: the display text of a finite value without sign reads back as that value.
- `literal_eq`: the shader literal of any finite value is its sign and a numeral that reads back as its magnitude; hence
  distinct finite values have distinct literals (`literal_inj`).
-/
import EscapeTime.Proofs.Number.Rounding
import EscapeTime.Shader.Computation

namespace EscapeTime

/-- digits, or digits with a point and further digits behind them -/
inductive Numeral : List Char → Prop where
  | whole {w : List Char} (hne : w ≠ []) (hw : ∀ c ∈ w, c.isDigit = true) : Numeral w
  | pointed {w f : List Char} (hne : w ≠ []) (hw : ∀ c ∈ w, c.isDigit = true) (hf : ∀ c ∈ f, c.isDigit = true) :
      Numeral (w ++ '.' :: f)

/-! ## Zeros that do not count -/

theorem trimZeros_append (ds : List Char) : ∃ j, ds = trimZeros ds ++ List.replicate j '0' := by
  have hzeros : ds.reverse.takeWhile (· == '0') = List.replicate (ds.reverse.takeWhile (· == '0')).length '0' :=
    List.eq_replicate_of_mem fun c hc => by simpa using List.all_eq_true.1 List.all_takeWhile c hc
  refine ⟨(ds.reverse.takeWhile (· == '0')).length, ?_⟩
  have hsplit : ds.reverse = ds.reverse.takeWhile (· == '0') ++ ds.reverse.dropWhile (· == '0') :=
    List.takeWhile_append_dropWhile.symm
  calc ds = ds.reverse.reverse := ds.reverse_reverse.symm
    _ = trimZeros ds ++ (ds.reverse.takeWhile (· == '0')).reverse := by
      rw [trimZeros, ← List.reverse_append, ← hsplit]
    _ = trimZeros ds ++ List.replicate (ds.reverse.takeWhile (· == '0')).length '0' := by
      rw [hzeros, List.reverse_replicate, List.length_replicate]

theorem mem_of_mem_trimZeros {ds : List Char} {c : Char} (h : c ∈ trimZeros ds) : c ∈ ds := by
  obtain ⟨j, hj⟩ := trimZeros_append ds
  rw [hj]
  exact List.mem_append_left _ h

theorem isDigit_padZeros {w : Nat} {ds : List Char} (h : ∀ c ∈ ds, c.isDigit = true) :
    ∀ c ∈ padZeros w ds, c.isDigit = true := by
  intro c hc
  rcases List.mem_append.1 hc with hc | hc
  · rw [(List.mem_replicate.1 hc).2]; rfl
  · exact h c hc

theorem ofDigitChars_padZeros (w : Nat) (ds : List Char) :
    Nat.ofDigitChars 10 (padZeros w ds) 0 = Nat.ofDigitChars 10 ds 0 := by
  rw [padZeros, Nat.ofDigitChars_append, Nat.ofDigitChars_replicate_zero, Nat.mul_zero]

theorem length_padZeros {w : Nat} {ds : List Char} (h : ds.length ≤ w) : (padZeros w ds).length = w := by
  rw [padZeros, List.length_append, List.length_replicate]
  omega

theorem isDigit_toDigits (n : Nat) : ∀ c ∈ Nat.toDigits 10 n, c.isDigit = true :=
  fun _ hc => Nat.isDigit_of_mem_toDigits (by decide) (by decide) hc

/-- a run ends where a character outside its class, or nothing, follows -/
theorem takeWhile_run {p : Char → Bool} {w : List Char} (rest : List Char) (hw : ∀ c ∈ w, p c = true)
    (hrest : ∀ c ∈ rest.head?, p c = false) : (w ++ rest).takeWhile p = w := by
  rw [List.takeWhile_append_of_pos hw]
  cases rest with
  | nil => simp
  | cons c rest => simp [hrest c rfl]

theorem dropWhile_run {p : Char → Bool} {w : List Char} (rest : List Char) (hw : ∀ c ∈ w, p c = true)
    (hrest : ∀ c ∈ rest.head?, p c = false) : (w ++ rest).dropWhile p = rest := by
  rw [List.dropWhile_append_of_pos hw]
  cases rest with
  | nil => simp
  | cons c rest => simp [hrest c rfl]

namespace Decimal

open Binary64

/-! ## What a numeral denotes -/

theorem ofNumeral_whole {w : List Char} (hw : ∀ c ∈ w, c.isDigit = true) :
    ofNumeral w = ⟨Nat.ofDigitChars 10 w 0, 0⟩ := by
  have htake := takeWhile_run [] hw (by simp)
  have hdrop := dropWhile_run [] hw (by simp)
  rw [List.append_nil] at htake hdrop
  simp [ofNumeral, htake, hdrop]

theorem ofNumeral_pointed {w f : List Char} (hw : ∀ c ∈ w, c.isDigit = true) :
    ofNumeral (w ++ '.' :: f) = ⟨Nat.ofDigitChars 10 (w ++ f) 0, -(f.length : Int)⟩ := by
  have hpoint : ∀ c ∈ ('.' :: f).head?, c.isDigit = false := by simp
  simp only [ofNumeral, takeWhile_run _ hw hpoint, dropWhile_run _ hw hpoint, List.drop_succ_cons, List.drop_zero]

/-- the value of a decimal with `k` places -/
theorem toBinary64_places (m k : Nat) : toBinary64 ⟨m, -(k : Int)⟩ = ofRatio m (10 ^ k) := by
  cases k with
  | zero => simp [toBinary64]
  | succ k =>
    have hneg : ¬ (0 : Int) ≤ -((k + 1 : Nat) : Int) := by omega
    simp only [toBinary64, hneg, if_false, Int.neg_neg, Int.toNat_natCast, Nat.pow_eq]

/-! ## Positional texts -/

/-- without places there is no fraction, and the digits are those of the whole number -/
theorem fractionDigits_nat (m q : Nat) : fractionDigits ⟨m, (q : Int)⟩ = [] := by
  have hplaces : (-(q : Int)).toNat = 0 := by omega
  simp only [fractionDigits, hplaces, Nat.pow_eq, Nat.pow_zero, Nat.mod_one, Nat.toDigits_zero]
  rfl

/-- with `k` places: the fraction and some zeros behind it are the last `k` digits -/
theorem fractionDigits_places (m : Nat) {k : Nat} (hk : 0 < k) :
    ∃ j, (fractionDigits ⟨m, -(k : Int)⟩).length + j = k ∧
      Nat.ofDigitChars 10 (fractionDigits ⟨m, -(k : Int)⟩) 0 * 10 ^ j = m % 10 ^ k := by
  have hplaces : (-(-(k : Int))).toNat = k := by omega
  have hlen : (Nat.toDigits 10 (m % 10 ^ k)).length ≤ k :=
    (Nat.length_toDigits_le_iff (by decide) hk).2 (Nat.mod_lt _ (Nat.pow_pos (by decide)))
  simp only [fractionDigits, hplaces, Nat.pow_eq]
  set digits := padZeros k (Nat.toDigits 10 (m % 10 ^ k))
  have hvalue : Nat.ofDigitChars 10 digits 0 = m % 10 ^ k := by
    rw [ofDigitChars_padZeros, Nat.ofDigitChars_ten_toDigits]
  obtain ⟨j, hj⟩ := trimZeros_append digits
  refine ⟨j, ?_, ?_⟩
  · rw [← length_padZeros hlen]
    exact (congrArg List.length hj).trans (by simp) |>.symm
  · rw [← hvalue, Nat.mul_comm]
    conv_rhs => rw [hj, Nat.ofDigitChars_append, Nat.ofDigitChars_replicate_zero]

theorem isDigit_fractionDigits (d : Decimal) : ∀ c ∈ d.fractionDigits, c.isDigit = true :=
  fun c hc => isDigit_padZeros (isDigit_toDigits _) c (mem_of_mem_trimZeros hc)

theorem isDigit_wholeDigits (d : Decimal) : d.wholeDigits ≠ [] ∧ ∀ c ∈ d.wholeDigits, c.isDigit = true := by
  unfold wholeDigits
  split_ifs <;> exact ⟨Nat.toDigits_ne_nil, isDigit_toDigits _⟩

theorem numeral_positional (d : Decimal) : Numeral (positional d).toList := by
  obtain ⟨hne, hw⟩ := isDigit_wholeDigits d
  rw [positional, String.toList_ofList]
  split
  · exact .whole hne hw
  · exact .pointed hne hw (isDigit_fractionDigits d)

/-- with or without a fraction -/
theorem ofNumeral_positional (d : Decimal) :
    ofNumeral (positional d).toList =
      ⟨Nat.ofDigitChars 10 (d.wholeDigits ++ d.fractionDigits) 0, -(d.fractionDigits.length : Int)⟩ := by
  obtain ⟨_, hw⟩ := isDigit_wholeDigits d
  rw [positional, String.toList_ofList]
  split
  · rename_i hnil
    rw [ofNumeral_whole hw, hnil]
    simp
  · exact ofNumeral_pointed hw

/-- **The positional text of a decimal denotes a decimal of the same value.** -/
theorem toBinary64_positional (d : Decimal) : (ofNumeral (positional d).toList).toBinary64 = d.toBinary64 := by
  rw [ofNumeral_positional, toBinary64_places]
  obtain ⟨m, q⟩ := d
  obtain ⟨k, hq⟩ := Int.eq_nat_or_neg q
  by_cases hneg : q = k
  · have hpos : (0 : Int) ≤ (k : Int) := by omega
    subst hneg
    simp only [fractionDigits_nat, wholeDigits, hpos, if_true, List.append_nil, Nat.ofDigitChars_ten_toDigits,
      List.length_nil, Nat.pow_zero, toBinary64]
  · obtain rfl : q = -(k : Int) := hq.resolve_left hneg
    have hk : 0 < k := by omega
    have hlt : ¬ (0 : Int) ≤ -(k : Int) := by omega
    obtain ⟨j, hlen, hfrac⟩ := fractionDigits_places m hk
    have hwhole : Nat.ofDigitChars 10 (wholeDigits ⟨m, -(k : Int)⟩) 0 = m / 10 ^ k := by
      simp only [wholeDigits, hlt, if_false, Int.neg_neg, Int.toNat_natCast, Nat.ofDigitChars_ten_toDigits, Nat.pow_eq]
    set f := fractionDigits ⟨m, -(k : Int)⟩
    set w := wholeDigits ⟨m, -(k : Int)⟩
    -- the zeros that were cut off put the coefficient back
    have hm : Nat.ofDigitChars 10 (w ++ f) 0 * 10 ^ j = m := by
      rw [Nat.ofDigitChars_append, Nat.ofDigitChars_eq_ofDigitChars_zero, hwhole]
      calc (10 ^ f.length * (m / 10 ^ k) + Nat.ofDigitChars 10 f 0) * 10 ^ j
          = 10 ^ (f.length + j) * (m / 10 ^ k) + Nat.ofDigitChars 10 f 0 * 10 ^ j := by ring
        _ = 10 ^ k * (m / 10 ^ k) + m % 10 ^ k := by rw [hlen, hfrac]
        _ = m := Nat.div_add_mod m (10 ^ k)
    rw [toBinary64_places, ← ofRatio_scale _ _ (Nat.pow_pos (n := j) (by decide : 0 < 10)), hm, ← Nat.pow_add, hlen]

end Decimal

namespace Binary64

open Decimal

/-! ## Round trips -/

theorem display_eq {x : Binary64} (hfin : x.isFinite = true) (hpos : x.isNegative = false) :
    x.display = positional (shortest .up x.magnitude) := by
  have hnan : x.isNaN = false := by
    simp only [isNaN, isFinite, decide_eq_true_eq, decide_eq_false_iff_not] at hfin ⊢
    omega
  simp [display, hnan, hfin, signed, hpos]

/-- **The display text of a finite value without sign reads back as that value.** -/
theorem ofNumeral_display {x : Binary64} (hfin : x.isFinite = true) (hpos : x.isNegative = false) :
    Numeral x.display.toList ∧ (ofNumeral x.display.toList).toBinary64 = x := by
  rw [display_eq hfin hpos]
  exact ⟨numeral_positional _, (toBinary64_positional _).trans (toBinary64_shortest hfin hpos)⟩

/-- the literal of a finite value is its sign in front of a numeral that reads back as its magnitude -/
theorem literal_eq {x : Binary64} (hfin : x.isFinite = true) :
    ∃ text, x.literal = x.signed text ∧ Numeral text.toList ∧
      (ofNumeral text.toList).toBinary64.magnitude = x.magnitude := by
  have hlt : x.magnitude < infinity := by simpa [isFinite] using hfin
  unfold literal
  split_ifs with hwhole
  · refine ⟨_, rfl, ?_⟩
    simp only [isWhole, hfin, Bool.true_and, beq_iff_eq] at hwhole
    set w := units x.magnitude / unitsPerOne
    have hunits : w * unitsPerOne = units x.magnitude * 1 := by
      rw [Nat.mul_one]
      exact Nat.div_mul_cancel (Nat.dvd_of_mod_eq_zero hwhole)
    rw [String.toList_ofList]
    refine ⟨.pointed Nat.toDigits_ne_nil (isDigit_toDigits w) (List.forall_mem_singleton.2 rfl), ?_⟩
    have hvalue : Nat.ofDigitChars 10 (Nat.toDigits 10 w ++ ['0']) 0 = w * 10 := by
      rw [Nat.ofDigitChars_append, Nat.ofDigitChars_ten_toDigits, Nat.mul_comm]
      rfl
    rw [ofNumeral_pointed (isDigit_toDigits w), toBinary64_places, hvalue]
    have hround : ofRatio (w * 10) (10 ^ ['0'].length) = ofRatio w 1 := ofRatio_scale w 1 (k := 10) (by decide)
    rw [hround, ofRatio, nearestMagnitude_exact Nat.one_pos hunits, magnitude_ofMagnitude (Nat.le_of_lt hlt)]
  · have hnan : x.isNaN = false := by simp only [isNaN, decide_eq_false_iff_not]; omega
    refine ⟨positional (shortest .up x.magnitude), by simp [display, hnan, hfin], numeral_positional _, ?_⟩
    rw [toBinary64_positional]
    exact beq_iff_eq.1 (search_readsBack hlt _)

theorem numeral_chars {text : List Char} (h : Numeral text) : ∀ c ∈ text, c.isDigit = true ∨ c = '.' := by
  cases h with
  | whole _ hw => exact fun c hc => .inl (hw c hc)
  | pointed _ hw hf =>
    intro c hc
    rcases List.mem_append.1 hc with hc | hc
    · exact .inl (hw c hc)
    · rcases List.mem_cons.1 hc with rfl | hc
      · exact .inr rfl
      · exact .inl (hf c hc)

theorem numeral_head {text : List Char} (h : Numeral text) : ∃ c rest, text = c :: rest ∧ c.isDigit = true := by
  cases h with
  | @whole w hne hw | @pointed w f hne hw hf =>
    obtain ⟨c, rest, rfl⟩ := List.exists_cons_of_ne_nil hne
    exact ⟨c, _, rfl, hw c List.mem_cons_self⟩

theorem toList_signed (x : Binary64) (text : String) :
    (x.signed text).toList = if x.isNegative then '-' :: text.toList else text.toList := by
  unfold signed
  split_ifs
  · rw [String.toList_append]; rfl
  · rfl

theorem literal_chars {x : Binary64} (hfin : x.isFinite = true) :
    ∀ c ∈ x.literal.toList, c = '-' ∨ c = '.' ∨ c.isDigit = true := by
  obtain ⟨text, heq, hnum, _⟩ := literal_eq hfin
  have htext : ∀ c ∈ text.toList, c = '-' ∨ c = '.' ∨ c.isDigit = true :=
    fun c hc => .inr (numeral_chars hnum c hc).symm
  rw [heq, toList_signed]
  split_ifs
  · exact List.forall_mem_cons.2 ⟨.inl rfl, htext⟩
  · exact htext

/-- **Distinct finite values have distinct literals.** -/
theorem literal_inj {x y : Binary64} (hx : x.isFinite = true) (hy : y.isFinite = true) (h : x.literal = y.literal) :
    x = y := by
  obtain ⟨s, hs, hsn, hsm⟩ := literal_eq hx
  obtain ⟨t, ht, htn, htm⟩ := literal_eq hy
  obtain ⟨c, srest, hsc, hc⟩ := numeral_head hsn
  obtain ⟨d, trest, htd, hd⟩ := numeral_head htn
  have hlist : (x.signed s).toList = (y.signed t).toList := by rw [← hs, ← ht, h]
  rw [toList_signed, toList_signed, hsc, htd] at hlist
  have hminus : ∀ c : Char, c.isDigit = true → c ≠ '-' := by rintro _ h rfl; exact absurd h (by decide)
  have key : x.isNegative = y.isNegative ∧ c :: srest = d :: trest := by
    cases hxn : x.isNegative <;> cases hyn : y.isNegative <;>
      simp only [hxn, hyn, if_true, if_false, Bool.false_eq_true, List.cons.injEq] at hlist
    · exact ⟨rfl, by rw [hlist.1, hlist.2]⟩
    · exact absurd hlist.1 (hminus c hc)
    · exact absurd hlist.1.symm (hminus d hd)
    · exact ⟨rfl, by rw [hlist.2.1, hlist.2.2]⟩
  refine eq_of_magnitude key.1 ?_
  rw [← hsm, ← htm, hsc, htd, key.2]

end Binary64

end EscapeTime
