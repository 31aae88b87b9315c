/-
Literals read back.

The literal of a finite number is its sign and digits on both sides of a point (`Pointed`): all digits of a whole number
and a zero, or the shortest digits that read back. That the latter have a fraction is a matter of rounding. Without one
they would denote a natural number, and a natural number rounds to a whole one: it is a value itself, or so large that
all values around it are whole.

- `dvd_units_nearestMagnitude`: rounding a natural number gives a whole number.
- `fractionDigits_shortest`: so the shortest digits of any other number have a fraction.
- `literal_pointed`, `tokenize_literal`: the form of a literal, and the lexer on one.
- `literal_reads_back`: a number without sign is read back from its literal bit by bit, so a number of an equation and
  its literal in the code denote the same value.
-/
import EscapeTime.Proofs.Shader.Vocabulary
import EscapeTime.Proofs.Token.Failure

namespace EscapeTime

/-- digits on both sides of a point -/
inductive Pointed : List Char → Prop where
  | mk {w f : List Char} (hw : w ≠ []) (hf : f ≠ []) (hwhole : ∀ c ∈ w, c.isDigit = true)
      (hfraction : ∀ c ∈ f, c.isDigit = true) : Pointed (w ++ '.' :: f)

theorem Pointed.numeral {text : List Char} (h : Pointed text) : Numeral text := by
  cases h with
  | mk hw hf hwhole hfraction => exact .pointed hw hwhole hfraction

namespace Binary64

/-! ## Natural numbers round to whole numbers -/

/-- a multiple of a power of two is a value itself, or the values on both sides of it are multiples too -/
theorem dvd_units_floorMagnitude {u k : Nat} (h : 2 ^ k ∣ u) :
    units (floorMagnitude u) = u ∨ (2 ^ k ∣ units (floorMagnitude u) ∧ 2 ^ k ∣ units (floorMagnitude u + 1)) := by
  by_cases hsmall : u < 2 ^ 52
  · have hfloor : floorMagnitude u = u := if_pos hsmall
    exact .inl (by rw [hfloor, units_small hsmall])
  · obtain ⟨q, f, hlt, hfloor, hf⟩ := floorMagnitude_large hsmall
    have hbelow : units (floorMagnitude u) = (2 ^ 52 + f) * 2 ^ q := by rw [hfloor, units_large q f hlt]
    have habove : units (floorMagnitude u + 1) = (2 ^ 52 + (f + 1)) * 2 ^ q := by
      rw [hfloor, Nat.add_assoc, units_upTo q (f + 1) hlt]
    -- 2^q is the step between values around u
    rcases Nat.le_total q k with hfine | hcoarse
    · refine .inl ?_
      rw [hbelow, ← hf]
      exact Nat.div_mul_cancel ((Nat.pow_dvd_pow 2 hfine).trans h)
    · refine .inr ⟨?_, ?_⟩
      · rw [hbelow]
        exact (Nat.pow_dvd_pow 2 hcoarse).trans (Nat.dvd_mul_left _ _)
      · rw [habove]
        exact (Nat.pow_dvd_pow 2 hcoarse).trans (Nat.dvd_mul_left _ _)

/-- **Rounding a natural number gives a whole number.** -/
theorem dvd_units_nearestMagnitude (w : Nat) : unitsPerOne ∣ units (nearestMagnitude w 1) := by
  obtain ⟨k, hk⟩ : ∃ k, unitsPerOne = Nat.pow 2 k := ⟨_, unitsPerOne.eq_1⟩
  rw [Nat.pow_eq] at hk
  have hdvd : 2 ^ k ∣ w * unitsPerOne := by
    rw [hk]
    exact Nat.dvd_mul_left _ _
  rcases dvd_units_floorMagnitude hdvd with hexact | ⟨hbelow, habove⟩
  · have hnearest : nearestMagnitude w 1 = floorMagnitude (w * unitsPerOne) :=
      nearestMagnitude_exact Nat.one_pos (by rw [hexact, Nat.mul_one])
    rw [hnearest, hexact]
    exact Nat.dvd_mul_left _ _
  · rw [← hk] at hbelow habove
    simp only [nearestMagnitude, Nat.div_one]
    split_ifs
    · exact hbelow
    · exact habove
    · exact hbelow
    · exact habove

/-- a finite number that a natural number rounds to is whole -/
theorem isWhole_of_natural {x : Binary64} (hfin : x.isFinite = true) {w : Nat}
    (h : (ofRatio w 1).magnitude = x.magnitude) :
    x.isWhole = true := by
  have hround : (ofRatio w 1).isFinite = true := by
    rw [isFinite, h]
    exact hfin
  have hmagnitude : x.magnitude = nearestMagnitude w 1 := by
    rw [← h, ofRatio]
    exact magnitude_ofMagnitude ((isFinite_ofMagnitude_iff _).1 hround).le
  rw [isWhole, hfin, hmagnitude, Nat.mod_eq_zero_of_dvd (dvd_units_nearestMagnitude w)]
  rfl

open Decimal

/-- **The shortest digits of a number that is not whole have a fraction.** -/
theorem fractionDigits_shortest {x : Binary64} (hfin : x.isFinite = true) (hwhole : x.isWhole = false) (tie : Tie) :
    (shortest tie x.magnitude).fractionDigits ≠ [] := by
  intro hnone
  have hread : (shortest tie x.magnitude).toBinary64.magnitude = x.magnitude :=
    beq_iff_eq.1 (search_readsBack (by simpa [isFinite] using hfin) _)
  rw [← toBinary64_positional, ofNumeral_positional, toBinary64_places, hnone, List.length_nil, Nat.pow_zero] at hread
  rw [isWhole_of_natural hfin hread] at hwhole
  cases hwhole

/-! ## Literals -/

theorem signed_inj {x : Binary64} {a b : String} (h : x.signed a = x.signed b) : a = b := by
  have hlist := congrArg String.toList h
  rw [toList_signed, toList_signed] at hlist
  refine String.toList_inj.1 ?_
  split_ifs at hlist
  · exact (List.cons.inj hlist).2
  · exact hlist

/-- the literal of a finite number is its sign and digits on both sides of a point -/
theorem pointed_of_literal {x : Binary64} (hfin : x.isFinite = true) :
    ∃ text : String, x.literal = x.signed text ∧ Pointed text.toList := by
  cases hwhole : x.isWhole with
  | true =>
    refine ⟨String.ofList (Nat.toDigits 10 (units x.magnitude / unitsPerOne) ++ ['.', '0']), ?_, ?_⟩
    · rw [literal, if_pos hwhole]
    · rw [String.toList_ofList]
      exact .mk Nat.toDigits_ne_nil (by simp) (isDigit_toDigits _) (by simp)
  | false =>
    obtain ⟨hne, hdigits⟩ := isDigit_wholeDigits (shortest .up x.magnitude)
    have hfraction := fractionDigits_shortest hfin hwhole .up
    have hnan : x.isNaN = false := by
      simp only [isNaN, isFinite, decide_eq_true_eq, decide_eq_false_iff_not] at hfin ⊢
      omega
    refine ⟨positional (shortest .up x.magnitude), by simp [literal, hwhole, display, hnan, hfin], ?_⟩
    rw [positional, String.toList_ofList]
    split
    · rename_i hnone
      exact absurd hnone hfraction
    · exact .mk hne hfraction hdigits (isDigit_fractionDigits _)

/-- with the value it reads back as -/
theorem literal_pointed {x : Binary64} (hfin : x.isFinite = true) :
    ∃ text : String, x.literal = x.signed text ∧ Pointed text.toList ∧
      (ofNumeral text.toList).toBinary64.magnitude = x.magnitude := by
  obtain ⟨text, hliteral, hpointed⟩ := pointed_of_literal hfin
  obtain ⟨text', hliteral', _, hread⟩ := literal_eq hfin
  obtain rfl : text = text' := signed_inj (hliteral.symm.trans hliteral')
  exact ⟨text, hliteral, hpointed, hread⟩

/-- the literal of a finite number without sign is a numeral with this value -/
theorem numeral_literal {x : Binary64} (hfin : x.isFinite = true) (hpos : x.isNegative = false) :
    Numeral x.literal.toList ∧ (ofNumeral x.literal.toList).toBinary64 = x := by
  obtain ⟨text, hliteral, hpointed, hread⟩ := literal_pointed hfin
  have hunsigned : x.signed text = text := by
    rw [signed, hpos]
    rfl
  rw [hliteral, hunsigned]
  exact ⟨hpointed.numeral, eq_of_magnitude ((isNegative_toBinary64 _).trans hpos.symm) hread⟩

/-- the lexer reads such a literal as one token -/
theorem tokenize_literal {x : Binary64} (hfin : x.isFinite = true) (hpos : x.isNegative = false) :
    tokenize x.literal = .ok [⟨.number x, x.literal, 0⟩, ⟨.endOfInput, "", x.literal.length⟩] := by
  obtain ⟨hnumeral, hvalue⟩ := numeral_literal hfin hpos
  exact tokenize_numeral hnumeral hvalue hfin

end Binary64

/-! ## Numbers of an equation -/

/-- a number token is finite and without sign, and its text is a number with its value -/
theorem number_of_tokenize {s : String} {ts : List Token} {t : Token} {x : Binary64} (h : tokenize s = .ok ts)
    (ht : t ∈ ts) (hkind : t.kind = .number x) :
    x.isFinite = true ∧ x.isNegative = false ∧ Literal t.text.toList ∧
      (Decimal.ofNumeral t.text.toList).toBinary64 = x := by
  obtain ⟨htiles, hvalued⟩ := tokenization_of_tokenize h
  obtain ⟨tokens, eof, rfl, htokens, heof, _⟩ := htiles.ends
  have hmem : t ∈ tokens := by
    rcases List.mem_append.1 ht with hmem | hmem
    · exact hmem
    · rw [List.mem_singleton.1 hmem, heof] at hkind
      cases hkind
  obtain ⟨tokens', eof', heq, _, hspells⟩ := spells_of_scan 0 s.toList _ h
  obtain rfl : tokens = tokens' := (List.append_inj' heq rfl).1
  obtain ⟨hfin, hpos⟩ := spells_numbers hspells x (hkind ▸ List.mem_map_of_mem hmem)
  have hwritten := (htokens t hmem).written
  rw [hkind] at hwritten
  exact ⟨hfin, hpos, (literal_iff_writtenAs _ x).2 hwritten, ((hvalued t ht).value x hkind).symm⟩

/-- **Literals read back as the same number.** The literal of a finite number has digits on both sides of a point, and
in front of them a minus sign if the number has one, and nothing else. The literal of a finite number without sign is
read as one token, which is this number bit by bit. So for every number of an equation, what it was written as and what
stands for it in the code are read as the same value. -/
theorem literal_reads_back :
    (∀ x : Binary64, x.isFinite = true →
      (∃ text, Pointed text ∧ x.literal.toList = if x.isNegative then '-' :: text else text) ∧
      (x.isNegative = false →
        tokenize x.literal = .ok [⟨.number x, x.literal, 0⟩, ⟨.endOfInput, "", x.literal.length⟩])) ∧
    ∀ (s : String) (ts : List Token) (t : Token) (x : Binary64), tokenize s = .ok ts → t ∈ ts → t.kind = .number x →
      Binary64.ofText? (normalized t.text.toList) = some x ∧
      (∀ m : Emitter, m.emit (.number x) = "vec2(" ++ x.literal ++ ", 0.0)") ∧
      Binary64.ofText? x.literal.toList = some x ∧
      tokenize x.literal = .ok [⟨.number x, x.literal, 0⟩, ⟨.endOfInput, "", x.literal.length⟩] := by
  constructor
  · intro x hfin
    refine ⟨?_, Binary64.tokenize_literal hfin⟩
    obtain ⟨text, hliteral, hpointed⟩ := Binary64.pointed_of_literal hfin
    exact ⟨text.toList, hpointed, by rw [hliteral, Binary64.toList_signed]⟩
  · intro s ts t x h ht hkind
    obtain ⟨hfin, hpos, hwritten, hvalue⟩ := number_of_tokenize h ht hkind
    obtain ⟨hnumeral, hvalue'⟩ := Binary64.numeral_literal hfin hpos
    refine ⟨?_, fun m => rfl, ?_, Binary64.tokenize_literal hfin hpos⟩
    · rw [ofText?_normalized hwritten, hvalue]
    · rw [Binary64.ofText?_numeral hnumeral, hvalue']

/-- the least positive value, with 323 zeros behind its point -/
def Binary64.least : Binary64 :=
  ⟨1⟩

/-- negative zero -/
def Binary64.negativeZero : Binary64 :=
  ⟨0x8000000000000000⟩

/-- a tenth, written without a zero in front and with one at its end; the least value, and negative zero -/
theorem literal_reads_back_tenth :
    tokenize "z*.10" =
      .ok [⟨.ident "z", "z", 0⟩, ⟨.star, "*", 1⟩, ⟨.number ⟨0x3FB999999999999A⟩, ".10", 2⟩, ⟨.endOfInput, "", 5⟩] ∧
    Binary64.literal ⟨0x3FB999999999999A⟩ = "0.1" ∧
    Binary64.ofText? (normalized ".10".toList) = some ⟨0x3FB999999999999A⟩ ∧
    Binary64.ofText? "0.1".toList = some ⟨0x3FB999999999999A⟩ ∧
    tokenize Binary64.least.literal =
      .ok [⟨.number .least, Binary64.least.literal, 0⟩, ⟨.endOfInput, "", Binary64.least.literal.length⟩] ∧
    Binary64.negativeZero.literal = "-0.0" ∧
    ∃ text, Pointed text ∧ Binary64.negativeZero.literal.toList = '-' :: text := by
  obtain ⟨hforms, hnumbers⟩ := literal_reads_back
  have htokens : tokenize "z*.10" =
      .ok [⟨.ident "z", "z", 0⟩, ⟨.star, "*", 1⟩, ⟨.number ⟨0x3FB999999999999A⟩, ".10", 2⟩, ⟨.endOfInput, "", 5⟩] := by
    decide +kernel
  have htenth : Binary64.literal ⟨0x3FB999999999999A⟩ = "0.1" := by decide +kernel
  obtain ⟨hread, _, hliteral, _⟩ := hnumbers _ _ ⟨.number ⟨0x3FB999999999999A⟩, ".10", 2⟩ _ htokens (by simp) rfl
  have hleast := (hforms .least (by decide)).2 (by decide)
  rw [htenth] at hliteral
  exact ⟨htokens, htenth, hread, hliteral, hleast, by decide +kernel, (hforms .negativeZero (by decide)).1⟩

end EscapeTime
