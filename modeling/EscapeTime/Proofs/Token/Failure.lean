/-
Where a run of the lexer fails.

A run that fails has read everything in front of the place it reports, and would succeed if the text ended there:
cutting the text behind a token leaves the token as it is (`lexeme_cut`). At that place stands a character that begins
no token, or a number that is out of range (`scan_fails`).

- `tokenize_error_located`: where a failure is reported, what it is and how it is worded; and no number of a text is one
  that the reader of numbers does not accept.
-/
import EscapeTime.Proofs.Number.Range
import EscapeTime.Proofs.Token.Tiling

namespace EscapeTime

/-! ## What may fail at a character -/

/-- no token begins with the character in front of this text -/
structure BeginsNoToken (c : Char) (after : List Char) : Prop where
  notBlank : ¬ Blank c
  notSymbol : c ∉ ['+', '-', '*', '/', '^', '(', ')', '|', ',']
  notWord : c.isAlphanum = false ∧ c ≠ '_'
  notFraction : ¬ (c = '.' ∧ ∃ d ∈ after.head?, d.isDigit = true)

/-- the longest number with which a text begins -/
structure LongestLiteral (ahead text : List Char) : Prop where
  literal : Literal text
  begins : text <+: ahead
  longest : ∀ other, Literal other → other <+: ahead → other.length ≤ text.length

theorem literal_iff_writtenAs (text : List Char) (x : Binary64) : Literal text ↔ (Kind.number x).WrittenAs text := by
  constructor
  · intro h
    cases h with
    | numeral hnum => exact .numeral x hnum
    | fraction hne hf => exact .fraction x hne hf
  · intro h
    cases h with
    | symbol hmem => exact absurd hmem (by simp [symbols])
    | numeral _ hnum => exact .numeral hnum
    | fraction _ hne hf => exact .fraction hne hf

/-- a number is digits and at most one point -/
theorem Literal.chars {text : List Char} (h : Literal text) :
    (∀ c ∈ text, c.isDigit = true ∨ c = '.') ∧ text.count '.' ≤ 1 := by
  have hnone : ∀ {ds : List Char}, (∀ c ∈ ds, c.isDigit = true) → ds.count '.' = 0 :=
    fun hds => List.count_eq_zero.2 fun hmem => absurd (hds '.' hmem) (by decide)
  cases h with
  | fraction hne hf =>
    refine ⟨List.forall_mem_cons.2 ⟨.inr rfl, fun c hc => .inl (hf c hc)⟩, ?_⟩
    rw [List.count_cons_self, hnone hf]
  | numeral hnum =>
    refine ⟨Binary64.numeral_chars hnum, ?_⟩
    cases hnum with
    | whole _ hw => rw [hnone hw]; omega
    | pointed _ hw hf => rw [List.count_append, List.count_cons_self, hnone hw, hnone hf]

/-- a number that what follows does not go on with is the longest one -/
theorem longestLiteral_of_not_runsOn {text after : List Char} {x : Binary64} (h : Literal text)
    (hafter : ∀ d ∈ after.head?, ¬ (Kind.number x).RunsOn text d) : LongestLiteral (text ++ after) text := by
  refine ⟨h, List.prefix_append _ _, fun other hother hbegins => ?_⟩
  by_contra hlonger
  -- a longer number would go on with a digit, or with a second point
  obtain ⟨more, rfl⟩ := List.prefix_of_prefix_length_le (List.prefix_append text after) hbegins (by omega)
  obtain ⟨d, more, rfl⟩ := List.exists_cons_of_ne_nil (l := more) (by rintro rfl; simp at hlonger)
  obtain ⟨hchars, hpoints⟩ := hother.chars
  have hd : d ∈ after.head? := by
    obtain ⟨rest, rfl⟩ := List.prefix_append_right_inj text |>.1 hbegins
    rfl
  refine hafter d hd ((hchars d (by simp)).imp_right fun hpoint => ⟨hpoint, fun hmem => ?_⟩)
  subst hpoint
  have hcount := List.count_pos_iff.2 hmem
  rw [List.count_append, List.count_cons_self] at hpoints
  omega

/-- a character at which the lexer finds nothing begins no token -/
theorem beginsNoToken_of_stray {c : Char} {after : List Char} (hblank : isBlank c = false)
    (h : lexeme c after = .stray) :
    BeginsNoToken c after := by
  unfold lexeme at h
  cases hsym : Kind.ofSymbol? c with
  | some kind =>
    rw [hsym] at h
    cases h
  | none =>
    rw [hsym] at h
    simp only at h
    split_ifs at h with hnum hfin hident
    simp only [startsNumeral, Bool.or_eq_true, Bool.and_eq_true, beq_iff_eq, Option.any_eq_true, not_or] at hnum
    simp only [isIdentStart_iff, not_or] at hident
    refine ⟨fun hc => ?_, fun hmem => ?_, ⟨?_, hident.2⟩, ?_⟩
    · rw [← isBlank_iff, hblank] at hc
      cases hc
    · have hsome : ∀ d ∈ ['+', '-', '*', '/', '^', '(', ')', '|', ','], (Kind.ofSymbol? d).isSome = true :=
        List.forall_iff_forall_mem.1 (by decide)
      have hkind := hsome c hmem
      rw [hsym] at hkind
      cases hkind
    · rw [Char.isAlphanum, Bool.or_eq_false_iff]
      exact ⟨by simpa using hident.1, by simpa using hnum.1⟩
    · rintro ⟨hpoint, d, hd, hdigit⟩
      exact hnum.2 ⟨hpoint, d, hd, hdigit⟩

/-- a number that is too large is the longest one there, and out of range -/
theorem longestLiteral_of_tooLarge {c : Char} {after tail : List Char} (h : lexeme c after = .tooLarge tail) :
    LongestLiteral (c :: after) (c :: tail) ∧ 2 ^ 1024 - 2 ^ 970 ≤ (Decimal.ofNumeral (c :: tail)).value := by
  unfold lexeme at h
  cases hsym : Kind.ofSymbol? c with
  | some kind =>
    rw [hsym] at h
    cases h
  | none =>
    rw [hsym] at h
    simp only at h
    split_ifs at h with hnum hfin
    obtain rfl : numeralTail c after = tail := Lexeme.tooLarge.inj h
    obtain ⟨hwritten, hends⟩ := numeralTail_written hnum Binary64.two
    constructor
    · have hlongest := longestLiteral_of_not_runsOn ((literal_iff_writtenAs _ _).2 hwritten) hends
      have hbegins := numeralTail_prefix c after
      rwa [List.cons_append, List.prefix_iff_eq_append.1 hbegins] at hlongest
    · rw [← not_lt, ← Decimal.isFinite_toBinary64_iff]
      exact hfin

/-! ## Runs that fail -/

/-- why the lexer stops at a character -/
inductive Refused (c : Char) (after : List Char) : Cause → Prop where
  | stray (h : lexeme c after = .stray) : Refused c after (.unexpectedCharacter c)
  | tooLarge {tail : List Char} (h : lexeme c after = .tooLarge tail) :
      Refused c after (.numberOutOfRange (String.ofList (c :: tail)))

/-- a token stays as it is when the text is cut behind it -/
theorem lexeme_cut {c : Char} {tail rest more : List Char} {kind : Kind}
    (h : lexeme c (tail ++ rest) = .token kind tail) (hmore : more <+: rest)
    : lexeme c (tail ++ more) = .token kind tail := by
  have hhead : ∀ d ∈ more.head?, d ∈ rest.head? := by
    obtain ⟨cut, rfl⟩ := hmore
    cases more with
    | nil => simp
    | cons d more => simp
  have hends : ∀ d ∈ more.head?, ¬ kind.RunsOn (c :: tail) d := by
    intro d hd
    have hlongest := (lexeme_written h).2 d
    rw [List.drop_left] at hlongest
    exact hlongest (hhead d hd)
  rcases lexeme_cases h with ⟨hsym, rfl⟩ | ⟨hsym, hstart, htail, x, rfl⟩ | ⟨hsym, hstart, htail, rfl⟩
  · simp only [lexeme, hsym]
  · obtain ⟨hstart', htail'⟩ := numeralTail_exact (lexeme_written h).1 hends
    simp only [lexeme, hsym, hstart, hstart', if_true, htail', ← htail] at h ⊢
    exact h
  · have hpart : ∀ d ∈ tail, isIdentPart d = true := by
      intro d hd
      rw [htail] at hd
      exact List.all_eq_true.1 List.all_takeWhile d hd
    have hstop : ∀ d ∈ more.head?, isIdentPart d = false := by
      intro d hd
      by_contra hd'
      exact hends d hd ((isIdentPart_iff d).1 (by simpa using hd'))
    simp only [lexeme, hsym, startsNumeral_of_isIdentStart hstart, Bool.false_eq_true, if_false, hstart, if_true,
      takeWhile_run more hpart hstop]

/-- a run that fails succeeds on what it has read, and stops in front of a character for a reason -/
theorem scan_fails (position : Nat) (source : List Char) :
    ∀ r, (Lexer.scan position source).1 = .error r → ∃ before c after, source = before ++ c :: after ∧
      r.position = position + before.length ∧ (∃ ts, (Lexer.scan position before).1 = .ok ts) ∧
      isBlank c = false ∧ Refused c after r.cause := by
  fun_induction Lexer.scan position source with
  | case1 position =>
    intro r h
    cases h
  | case2 position c rest hblank ih =>
    intro r h
    obtain ⟨before, d, after, rfl, hposition, ⟨ts, hts⟩, hd, hcause⟩ := ih r h
    refine ⟨c :: before, d, after, rfl, ?_, ⟨ts, ?_⟩, hd, hcause⟩
    · rw [hposition, List.length_cons]
      omega
    · rw [Lexer.scan, if_pos hblank]
      exact hts
  | case3 position c rest hblank kind tail hlex next ih =>
    intro r h
    have hnext : next.1 = .error r := by
      cases hresult : next.1 with
      | ok us => rw [hresult] at h; cases h
      | error r' => rw [hresult] at h; cases h; rfl
    obtain ⟨before, d, after, hrest, hposition, ⟨ts, hts⟩, hd, hcause⟩ := ih r hnext
    have hsplit := lexeme_prefix hlex
    rw [hrest] at hsplit
    refine ⟨c :: (tail ++ before), d, after, by simp [← hsplit], ?_, ?_, hd, hcause⟩
    · rw [hposition, List.length_cons, List.length_append]
      omega
    · have hcut : lexeme c (tail ++ before) = .token kind tail := lexeme_cut (hsplit ▸ hlex) (List.prefix_append _ _)
      rw [Lexer.scan, if_neg hblank, hcut]
      simp only [List.drop_left, hts]
      exact ⟨_, rfl⟩
  | case4 position c rest hblank tail hlex =>
    intro r h
    cases h
    exact ⟨[], c, rest, rfl, rfl, ⟨_, by rw [Lexer.scan]⟩, by simpa using hblank, .tooLarge hlex⟩
  | case5 position c rest hblank hlex =>
    intro r h
    cases h
    exact ⟨[], c, rest, rfl, rfl, ⟨_, by rw [Lexer.scan]⟩, by simpa using hblank, .stray hlex⟩

/-! ## Wording -/

/-- texts that begin with different letters -/
theorem append_ne_append {u v : String} {c d : Char} (hu : u.toList.head? = some c) (hv : v.toList.head? = some d)
    (hne : c ≠ d) (a b : String) : u ++ a ≠ v ++ b := by
  intro h
  have hhead : (u ++ a).toList.head? = (v ++ b).toList.head? := by rw [h]
  rw [String.toList_append, String.toList_append, List.head?_append, List.head?_append, hu, hv] at hhead
  exact hne (Option.some.inj hhead)

/-- **Failures of the lexer are located exactly.** A failure is a lexical one and lies in the text; the text in front of
it has tokens. Either the character there begins no token and is named, or the longest number there is out of range and
is named, and not both. No failure is that a number cannot be read, since the reader of numbers accepts every number of
a text. -/
theorem tokenize_error_located (s : String) (r : Rejection) (h : tokenize s = .error r) :
    r.report.kind = .lexical ∧
    r.position < s.length ∧
    (∃ ts, tokenize (String.ofList (s.toList.take r.position)) = .ok ts) ∧
    Xor
      (∃ x, s.toList[r.position]? = some x ∧ r.report.message = "unexpected character '" ++ x.toString ++ "'" ∧
        BeginsNoToken x (s.toList.drop (r.position + 1)))
      (∃ t : String, r.report.message = "number out of range: " ++ t ∧
        LongestLiteral (s.toList.drop r.position) t.toList ∧
        2 ^ 1024 - 2 ^ 970 ≤ (Decimal.ofNumeral t.toList).value ∧
        Binary64.ofText? (normalized t.toList) = some (Binary64.ofMagnitude Binary64.infinity)) ∧
    (∀ t, r.report.message ≠ "invalid number: " ++ t) ∧
    ∀ p t, LongestLiteral (s.toList.drop p) t →
      Binary64.ofText? (normalized t) = some (Decimal.ofNumeral t).toBinary64 := by
  obtain ⟨before, c, after, hsource, hposition, ⟨ts, hts⟩, hblank, hrefused⟩ := scan_fails 0 s.toList r h
  rw [Nat.zero_add] at hposition
  have hlength : s.length = before.length + (after.length + 1) := by
    rw [← String.length_toList, hsource, List.length_append, List.length_cons]
  have htake : s.toList.take r.position = before := by rw [hsource, hposition, List.take_left]
  have hdrop : s.toList.drop r.position = c :: after := by rw [hsource, hposition, List.drop_left]
  have hbehind : s.toList.drop (r.position + 1) = after := by rw [← List.drop_drop, hdrop]; rfl
  have hbefore : tokenize (String.ofList (s.toList.take r.position)) = .ok ts := by
    rw [htake, tokenize, Lexer.tokenize, Lexer.ofSource, String.toList_ofList]
    exact hts
  have hread : ∀ p t, LongestLiteral (s.toList.drop p) t →
      Binary64.ofText? (normalized t) = some (Decimal.ofNumeral t).toBinary64 :=
        fun _ _ ht => ofText?_normalized ht.literal
  have hmessage : r.report.message = r.cause.message := rfl
  rw [hdrop, hbehind, hmessage, Rejection.report]
  generalize r.cause = cause at hrefused ⊢
  cases hrefused with
  | stray hlex =>
    have htext : (Cause.unexpectedCharacter c).message = "unexpected character '" ++ (c.toString ++ "'") :=
      String.append_assoc
    refine ⟨rfl, by omega, ⟨ts, hbefore⟩,
      .inl ⟨⟨c, getElem?_of_drop hdrop, rfl, beginsNoToken_of_stray hblank hlex⟩, ?_⟩,
      fun t => ?_, hread⟩
    · rintro ⟨t, ht, _⟩
      rw [htext] at ht
      exact append_ne_append (c := 'u') (d := 'n') rfl rfl (by decide) _ _ ht
    · rw [htext]
      exact append_ne_append (c := 'u') (d := 'i') rfl rfl (by decide) _ _
  | @tooLarge tail hlex =>
    obtain ⟨hlongest, hlimit⟩ := longestLiteral_of_tooLarge hlex
    have hinfinite : Binary64.ofText? (normalized (c :: tail)) = some (Binary64.ofMagnitude Binary64.infinity) := by
      rw [ofText?_normalized hlongest.literal, Decimal.toBinary64_of_large hlimit]
    refine ⟨rfl, by omega, ⟨ts, hbefore⟩, .inr ⟨⟨String.ofList (c :: tail), rfl, ?_⟩, ?_⟩, fun t => ?_, hread⟩
    · rw [String.toList_ofList]
      exact ⟨hlongest, hlimit, hinfinite⟩
    · rintro ⟨x, _, hx, _⟩
      rw [String.append_assoc] at hx
      exact append_ne_append (c := 'n') (d := 'u') rfl rfl (by decide) _ _ hx
    · exact append_ne_append (c := 'n') (d := 'i') rfl rfl (by decide) _ _

/-- 10^309 with a point behind it -/
def hugeNumeral : List Char :=
  '1' :: (List.replicate 309 '0' ++ ['.'])

/-- a product of one and 10^309 -/
def hugeProduct : String :=
  String.ofList (['1', '.', '*'] ++ hugeNumeral)

/-- the number behind the star is out of range; what stands in front of it has tokens -/
theorem tokenize_error_located_huge :
    tokenize hugeProduct = .error ⟨.numberOutOfRange (String.ofList hugeNumeral), 3⟩ ∧
    (∃ ts, tokenize (String.ofList (hugeProduct.toList.take 3)) = .ok ts) ∧
    ∃ t : String, "number out of range: " ++ String.ofList hugeNumeral = "number out of range: " ++ t ∧
      LongestLiteral (hugeProduct.toList.drop 3) t.toList ∧
        2 ^ 1024 - 2 ^ 970 ≤ (Decimal.ofNumeral t.toList).value := by
  have h : tokenize hugeProduct = .error ⟨.numberOutOfRange (String.ofList hugeNumeral), 3⟩ := by
    rw [tokenize, Lexer.tokenize, Lexer.ofSource, hugeProduct, String.toList_ofList]
    decide +kernel
  obtain ⟨_, _, hbefore, hcase, _⟩ := tokenize_error_located _ _ h
  refine ⟨h, hbefore, ?_⟩
  rcases hcase with ⟨⟨x, _, hx, _⟩, _⟩ | ⟨⟨t, ht, hlongest, hlimit, _⟩, _⟩
  · rw [String.append_assoc] at hx
    exact absurd hx (append_ne_append (c := 'n') (d := 'u') rfl rfl (by decide) _ _)
  · exact ⟨t, ht, hlongest, hlimit⟩

end EscapeTime
