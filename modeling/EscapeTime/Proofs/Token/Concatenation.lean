/-
Texts one behind the other.

What stands at a character depends on the text behind it only as far as the token goes. A text that no identifier and no
numeral runs on into therefore leaves the tokens in front of it as they are:

- `lexeme_append`: the token at a character is the same whether such a text follows or nothing does.
- `spells_append`: the kinds of two texts, one behind the other, are the kinds of the one and then those of the other.
- `kinds_of_tokenize`: the tokens in front of the end marker are of the kinds that the text spells.
-/
import EscapeTime.Proofs.Token.Spelling

namespace EscapeTime

variable {c : Char} {rest : List Char}

theorem takeWhile_stop {p : Char → Bool} (text : List Char) (hrest : ∀ c ∈ rest.head?, p c = false) :
    (text ++ rest).takeWhile p = text.takeWhile p := by
  induction text with
  | nil => exact takeWhile_run rest (by simp) hrest
  | cons d text ih =>
    rw [List.cons_append, List.takeWhile_cons, List.takeWhile_cons, ih]

theorem dropWhile_stop {p : Char → Bool} (text : List Char) (hrest : ∀ c ∈ rest.head?, p c = false) :
    (text ++ rest).dropWhile p = text.dropWhile p ++ rest := by
  induction text with
  | nil => exact dropWhile_run rest (by simp) hrest
  | cons d text ih =>
    rw [List.cons_append, List.dropWhile_cons, List.dropWhile_cons, ih]
    split_ifs <;> rfl

/-! ## One token -/

theorem startsNumeral_append (text : List Char) (hrest : Separated rest) :
    startsNumeral c (text ++ rest) = startsNumeral c text := by
  cases text with
  | cons d text => rfl
  | nil =>
    cases rest with
    | nil => rfl
    | cons d rest => simp [startsNumeral, hrest.digit d rfl]

theorem numeralTail_append (text : List Char) (hrest : Separated rest) :
    numeralTail c (text ++ rest) = numeralTail c text := by
  unfold numeralTail
  rw [takeWhile_stop text hrest.digit, dropWhile_stop text hrest.digit]
  cases text.dropWhile Char.isDigit with
  | nil =>
    -- the digits reach up to the second text, which does not begin with a point
    cases rest with
    | nil => rfl
    | cons d rest =>
      have hpoint : d ≠ '.' := (hrest d rfl).2
      simp [hpoint]
  | cons d more =>
    by_cases hpoint : d = '.'
    · subst hpoint
      simp only [List.cons_append, takeWhile_stop more hrest.digit]
    · simp [hpoint]

/-- the token at a character, with a text behind it that does not run on from it -/
theorem lexeme_append (c : Char) (text : List Char) (hrest : Separated rest) :
    lexeme c (text ++ rest) = lexeme c text := by
  have hident : ∀ d ∈ rest.head?, isIdentPart d = false := fun d hd => (hrest d hd).1
  unfold lexeme
  rw [startsNumeral_append text hrest, numeralTail_append text hrest, takeWhile_stop text hident]

/-! ## Texts -/

theorem spells_append {cs : List Char} {ks ks' : List Kind} (h : Spells cs ks) (hsep : Separated rest)
    (hrest : Spells rest ks') : Spells (cs ++ rest) (ks ++ ks') := by
  induction h with
  | nil => exact hrest
  | blank hc _ ih => exact .blank hc ih
  | @token c tail cs kind ks hc hlex _ ih =>
    rw [List.cons_append, List.cons_append, List.append_assoc]
    refine .token hc ?_ ih
    rw [← List.append_assoc, lexeme_append c _ hsep]
    exact hlex

theorem kinds_of_tokenize {s : String} {ks : List Kind} {tokens : List Token} (h : Spells s.toList ks)
    (htokens : tokenize s = .ok tokens) : (tokens.takeWhile (·.kind != .endOfInput)).map Token.kind = ks := by
  obtain ⟨ts, eof, hscan, heof, rfl⟩ := scan_of_spells h 0
  obtain rfl : tokens = ts ++ [eof] := by
    have hsame : tokenize s = .ok (ts ++ [eof]) := hscan
    rw [htokens] at hsame
    exact Except.ok.inj hsame
  have hts : ∀ t ∈ ts, (t.kind != .endOfInput) = true := by simpa using spells_no_end h
  rw [List.takeWhile_append_of_pos hts]
  simp [heof]

end EscapeTime
