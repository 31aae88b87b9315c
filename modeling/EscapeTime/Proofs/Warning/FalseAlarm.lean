/-
Warnings about texts that are equations.

The checks look at characters, the parser at tokens. What is known of the kinds of an equation is carried over to its
characters by `Written`, which forgets where a token ends: a text is blanks, symbols, and words whose characters no
check is interested in.

- `written_symbols`: the symbols of a text are those of its kinds, so parentheses match and bars are even in number.
- `written_followed`: without blanks, a character that may begin an operand stands behind every operator and every
  opening parenthesis.
- `validate_accepted`: the only warning about an equation is one of a run of operators, and then the second and the
  third operator of the run are signs; a text with any other warning is not compiled.
-/
import EscapeTime.Proofs.Compiler.Shown
import EscapeTime.Proofs.Grammar.Adjacency
import EscapeTime.Proofs.Token.Spelling
import EscapeTime.Warning

namespace EscapeTime

/-! ## From kinds to characters -/

/-- the characters that words, which are identifiers and numerals, are made of -/
def isWordPart (c : Char) : Bool :=
  isIdentPart c || c == '.'

/-- the characters are blanks, symbols and words of these kinds -/
inductive Written : List Char → List Kind → Prop where
  | nil : Written [] []
  | blank {c cs ks} (hc : isBlank c = true) : Written cs ks → Written (c :: cs) ks
  | symbol {c k cs ks} (hc : Kind.ofSymbol? c = some k) : Written cs ks → Written (c :: cs) (k :: ks)
  | word {w k cs ks} (hne : w ≠ []) (hw : ∀ c ∈ w, isWordPart c = true) (hk : Grammar.isOperand k = true) :
      Written cs ks → Written (w ++ cs) (k :: ks)

theorem isWordPart_of_isDigit {c : Char} (h : c.isDigit = true) : isWordPart c = true := by
  simp [isWordPart, isIdentPart_of_isDigit h]

theorem isWordPart_numeralTail (c : Char) (rest : List Char) : ∀ d ∈ numeralTail c rest, isWordPart d = true := by
  have hdigits : ∀ l : List Char, ∀ d ∈ l.takeWhile Char.isDigit, isWordPart d = true :=
    fun l d hd => isWordPart_of_isDigit (List.all_eq_true.1 List.all_takeWhile d hd)
  unfold numeralTail
  dsimp only
  split_ifs
  · exact hdigits rest
  · split
    · simp only [List.forall_mem_append, List.forall_mem_cons]
      exact ⟨hdigits rest, rfl, hdigits _⟩
    · exact hdigits rest

theorem written_of_spells {cs : List Char} {ks : List Kind} (h : Spells cs ks) : Written cs ks := by
  induction h with
  | nil => exact .nil
  | blank hc _ ih => exact .blank hc ih
  | @token c tail cs kind ks _ hlex _ ih =>
    rcases lexeme_cases hlex with ⟨hsym, rfl⟩ | ⟨_, hstart, htail, x, rfl⟩ | ⟨_, hstart, htail, rfl⟩
    · exact .symbol hsym ih
    · have hc : isWordPart c = true := by
        simp only [startsNumeral, Bool.or_eq_true, Bool.and_eq_true] at hstart
        rcases hstart with hdigit | ⟨hpoint, _⟩
        · exact isWordPart_of_isDigit hdigit
        · simp [isWordPart, hpoint]
      have hall : ∀ d ∈ c :: tail, isWordPart d = true :=
        List.forall_mem_cons.2 ⟨hc, htail ▸ isWordPart_numeralTail c _⟩
      exact .word (List.cons_ne_nil c tail) hall rfl ih
    · have htail' : ∀ d ∈ tail, isWordPart d = true := by
        rw [htail]
        intro d hd
        simp [isWordPart, List.all_eq_true.1 List.all_takeWhile d hd]
      have hall : ∀ d ∈ c :: tail, isWordPart d = true :=
        List.forall_mem_cons.2 ⟨by simp [isWordPart, isIdentPart_of_isIdentStart hstart], htail'⟩
      exact .word (List.cons_ne_nil c tail) hall rfl ih

theorem isWordPart_plain {c : Char} (h : isWordPart c = true) : isBlank c = false ∧ Kind.ofSymbol? c = none := by
  simp only [isWordPart, Bool.or_eq_true, beq_iff_eq] at h
  rcases h with h | rfl
  · exact isIdentPart_plain h
  · decide

theorem isOperand_of_ofSymbol? {c : Char} {k : Kind} (h : Kind.ofSymbol? c = some k) : Grammar.isOperand k = false :=
  (by decide : ∀ x ∈ symbols, Grammar.isOperand x.2 = false) (c, k) (mem_symbols h)

/-- the symbols of a text are those of its kinds -/
theorem written_symbols {cs : List Char} {ks : List Kind} (h : Written cs ks) :
    cs.filterMap Kind.ofSymbol? = ks.filter (! Grammar.isOperand ·) := by
  induction h with
  | nil => rfl
  | @blank c cs ks hc _ ih =>
    have hnone : Kind.ofSymbol? c = none := by
      by_contra hsome
      obtain ⟨k, hk⟩ := Option.ne_none_iff_exists'.1 hsome
      rw [isBlank_of_ofSymbol? hk] at hc
      cases hc
    rw [List.filterMap_cons_none hnone, ih]
  | symbol hc _ ih =>
    rw [List.filterMap_cons_some hc, List.filter_cons_of_pos (by simp [isOperand_of_ofSymbol? hc]), ih]
  | @word w k cs ks _ hw hk _ ih =>
    have hnone : w.filterMap Kind.ofSymbol? = [] :=
      List.filterMap_eq_nil_iff.2 fun c hc => (isWordPart_plain (hw c hc)).2
    rw [List.filterMap_append, hnone, List.filter_cons_of_neg (by simp [hk]), ih, List.nil_append]

namespace Validation

/-- the characters of a text other than blanks -/
def dense (cs : List Char) : List Char :=
  cs.filter (! isBlank ·)

/-- an operand has to follow the character -/
def opensOperand (c : Char) : Bool :=
  (Kind.ofSymbol? c).any Grammar.opensOperand

theorem opensOperand_of_isOperator {c : Char} (h : isOperator c = true) : opensOperand c = true := by
  simp only [isOperator, Bool.or_eq_true, beq_iff_eq] at h
  rcases h with (((rfl | rfl) | rfl) | rfl) | rfl <;> rfl

theorem dense_word {w : List Char} (hw : ∀ c ∈ w, isWordPart c = true) (cs : List Char) :
    dense (w ++ cs) = w ++ dense cs := by
  have hkeep : ∀ c ∈ w, (! isBlank c) = true := fun c hc => by simp [(isWordPart_plain (hw c hc)).1]
  rw [dense, List.filter_append, List.filter_eq_self.2 hkeep]
  rfl

theorem dense_symbol {c : Char} {k : Kind} (hc : Kind.ofSymbol? c = some k) (cs : List Char) :
    dense (c :: cs) = c :: dense cs :=
  List.filter_cons_of_pos (by simp [isBlank_of_ofSymbol? hc])

theorem dense_blank {c : Char} (hc : isBlank c = true) (cs : List Char) : dense (c :: cs) = dense cs :=
  List.filter_cons_of_neg (by simp [hc])

theorem startsExponent_of_mayBegin {c : Char} {k : Kind} (hc : Kind.ofSymbol? c = some k)
    (hk : Grammar.Phrase.sum.mayBegin k = true) : startsExponent c = true :=
  (by decide : ∀ x ∈ symbols, Grammar.Phrase.sum.mayBegin x.2 = true → startsExponent x.1 = true)
    (c, k) (mem_symbols hc) hk

theorem startsExponent_of_isWordPart {c : Char} (h : isWordPart c = true) : startsExponent c = true := by
  simp only [isWordPart, Bool.or_eq_true] at h
  rcases h with h | h <;> simp [startsExponent, h]

/-- where an operand begins, a character stands that may begin an exponent -/
theorem written_head {cs : List Char} {ks : List Kind} (h : Written cs ks) :
    (∃ k ∈ ks.head?, Grammar.Phrase.sum.mayBegin k = true) → ∃ c ∈ (dense cs).head?, startsExponent c = true := by
  induction h with
  | nil => simp
  | blank hc _ ih =>
    rw [dense_blank hc]
    exact ih
  | @symbol c k cs ks hc _ _ =>
    rintro ⟨k', hk', hbegin⟩
    obtain rfl : k = k' := by simpa using hk'
    exact ⟨c, by simp [dense_symbol hc], startsExponent_of_mayBegin hc hbegin⟩
  | @word w k cs ks hne hw _ _ _ =>
    rw [dense_word hw]
    obtain ⟨c, w', rfl⟩ := List.exists_cons_of_ne_nil hne
    exact fun _ => ⟨c, rfl, startsExponent_of_isWordPart (hw c List.mem_cons_self)⟩

theorem written_followed {cs : List Char} {ks : List Kind} (h : Written cs ks) :
    Followed Grammar.opensOperand Grammar.Phrase.sum.mayBegin ks → Followed opensOperand startsExponent (dense cs) := by
  induction h with
  | nil => exact fun _ => trivial
  | blank hc _ ih =>
    rw [dense_blank hc]
    exact ih
  | symbol hc hcs ih =>
    intro hks
    rw [dense_symbol hc]
    exact ⟨fun hopens => written_head hcs (hks.1 (by simpa [opensOperand, hc] using hopens)), ih hks.2⟩
  | @word w k cs ks _ hw _ _ ih =>
    intro hks
    rw [dense_word hw]
    have hclosed : ∀ c ∈ w, opensOperand c = false := by
      intro c hc
      rw [opensOperand, (isWordPart_plain (hw c hc)).2]
      rfl
    exact followed_append (followed_of_closed hclosed) (ih hks.2)

theorem isAllowed_of_ofSymbol? {c : Char} {k : Kind} (h : Kind.ofSymbol? c = some k) : isAllowed c = true :=
  (by decide : ∀ x ∈ symbols, isAllowed x.1 = true) (c, k) (mem_symbols h)

theorem written_allowed {cs : List Char} {ks : List Kind} (h : Written cs ks) : ∀ c ∈ cs, isAllowed c = true := by
  induction h with
  | nil => simp
  | blank hc _ ih => exact List.forall_mem_cons.2 ⟨by simp [isAllowed, hc], ih⟩
  | symbol hc _ ih => exact List.forall_mem_cons.2 ⟨isAllowed_of_ofSymbol? hc, ih⟩
  | word _ hw _ _ ih =>
    refine List.forall_mem_append.2 ⟨fun c hc => ?_, ih⟩
    have hpart := hw c hc
    simp only [isWordPart, Bool.or_eq_true] at hpart
    rcases hpart with h | h <;> simp [isAllowed, h]

/-! ## The checks -/

theorem isWhiteSpace_eq_false {c : Char} (hlo : 0x21 ≤ c.toNat) (hhi : c.toNat < 0x7f) :
    Text.isWhiteSpace c = false := by
  simp only [Text.isWhiteSpace, Bool.or_eq_false_iff, Bool.and_eq_false_iff, decide_eq_false_iff_not,
    beq_eq_false_iff_ne]
  omega

theorem isWhiteSpace_of_startsExponent {c : Char} (h : startsExponent c = true) : Text.isWhiteSpace c = false := by
  simp only [startsExponent, isIdentPart, Char.isAlphanum, Bool.or_eq_true, beq_iff_eq] at h
  rcases h with ((((((halpha | hdigit) | rfl) | rfl) | rfl) | rfl) | rfl) | rfl
  · have hc := isAlpha_toNat halpha
    exact isWhiteSpace_eq_false (by omega) (by omega)
  · have hc := isDigit_toNat hdigit
    exact isWhiteSpace_eq_false (by omega) (by omega)
  all_goals decide

theorem mem_zipIdx_fst {cs : List Char} {n : Nat} {x : Located} (h : x ∈ cs.zipIdx n) : x.1 ∈ cs := by
  rw [← List.zipIdx_map_fst n cs]
  exact List.mem_map_of_mem h

theorem disallowed?_eq_none {cs : List Char} (h : ∀ c ∈ cs, isAllowed c = true) : disallowed? cs.zipIdx = none := by
  rw [disallowed?, Option.map_eq_none_iff, List.find?_eq_none]
  intro x hx
  simp [h x.1 (mem_zipIdx_fst hx)]

/-- a symbol is told by its kind -/
theorem eq_of_ofSymbol? {c d : Char} {k : Kind} (hc : Kind.ofSymbol? c = some k) (hd : Kind.ofSymbol? d = some k) :
    c = d := by
  have hdisplay : ∀ x ∈ symbols, x.2.display.toList = [x.1] := by decide
  have hsame : [c] = [d] := (hdisplay (c, k) (mem_symbols hc)).symm.trans (hdisplay (d, k) (mem_symbols hd))
  exact (List.cons.inj hsame).1

theorem unbalanced?_eq_none {cs : List Char} : ∀ {d : Nat} (lastOpen n : Nat),
    Grammar.openAfter d (cs.filterMap Kind.ofSymbol?) = some 0 → unbalanced? d lastOpen (cs.zipIdx n) = none := by
  induction cs with
  | nil =>
    intro d lastOpen n h
    obtain rfl : d = 0 := by simpa [Grammar.openAfter] using h
    rfl
  | cons c cs ih =>
    intro d lastOpen n h
    rw [List.zipIdx_cons, unbalanced?]
    by_cases hl : c = '('
    · subst hl
      exact ih n _ h
    · by_cases hr : c = ')'
      · subst hr
        rw [List.filterMap_cons_some (rfl : Kind.ofSymbol? ')' = some .rightParen), Grammar.openAfter,
          if_neg (by decide), if_pos rfl] at h
        split_ifs at h with hd
        simp only [hd, if_false]
        exact ih lastOpen _ h
      · -- other symbols and characters of words leave the count as it is
        have hskip : Grammar.openAfter d (cs.filterMap Kind.ofSymbol?) = some 0 := by
          cases hsym : Kind.ofSymbol? c with
          | none => rwa [List.filterMap_cons_none hsym] at h
          | some k =>
            have hleft : k ≠ .leftParen := by
              rintro rfl
              exact hl (eq_of_ofSymbol? hsym rfl)
            have hright : k ≠ .rightParen := by
              rintro rfl
              exact hr (eq_of_ofSymbol? hsym rfl)
            rwa [List.filterMap_cons_some hsym, Grammar.openAfter_other hleft hright] at h
        simp only [hl, hr, beq_iff_eq, if_false]
        exact ih lastOpen _ hskip

theorem length_bars (cs : List Char) : (cs.zipIdx.filter (·.1 == '|')).length = cs.count '|' := by
  rw [← List.countP_eq_length_filter, List.count]
  conv_rhs => rw [← List.zipIdx_map_fst 0 cs, List.countP_map]
  rfl

theorem unmatchedPipe?_eq_none {cs : List Char} (h : cs.count '|' % 2 = 0) : unmatchedPipe? cs.zipIdx = none := by
  simp only [unmatchedPipe?, length_bars, h, if_true]

theorem followed_pair {a b : Char} {l : List Char} (h : Followed opensOperand startsExponent (a :: b :: l))
    (ha : opensOperand a = true) : startsExponent b = true := by
  obtain ⟨b', hb', hstarts⟩ := h.1 ha
  obtain rfl : b = b' := by simpa using hb'
  exact hstarts

theorem sign_of_startsExponent {c : Char} (hop : isOperator c = true) (hstarts : startsExponent c = true) :
    c = '+' ∨ c = '-' := by
  simp only [isOperator, Bool.or_eq_true, beq_iff_eq] at hop
  rcases hop with (((rfl | rfl) | rfl) | rfl) | rfl
  · exact .inl rfl
  · exact .inr rfl
  all_goals exact absurd hstarts (by decide)

theorem dense_operator {c : Char} (h : isOperator c = true) (cs : List Char) : dense (c :: cs) = c :: dense cs := by
  have hopens := opensOperand_of_isOperator h
  cases hsym : Kind.ofSymbol? c with
  | none => simp [opensOperand, hsym] at hopens
  | some k => exact dense_symbol hsym cs

/-- a run of operators: where it stands in the text -/
theorem operatorRun?_cases {l : List Located} {i : Nat} (h : operatorRun? l = some i) :
    ∃ pre a b j c k post, l = pre ++ (a, i) :: (b, j) :: (c, k) :: post ∧ isOperator a = true ∧ isOperator b = true ∧
      isOperator c = true := by
  fun_induction operatorRun? l with
  | case1 a i' b j c k rest hops =>
    obtain rfl : i' = i := by simpa using h
    simp only [Bool.and_eq_true] at hops
    exact ⟨[], a, b, j, c, k, rest, rfl, hops.1.1, hops.1.2, hops.2⟩
  | case2 a i' b j c k rest _ ih =>
    obtain ⟨pre, a', b', j', c', k', post, hl, hops⟩ := ih h
    exact ⟨(a, i') :: pre, a', b', j', c', k', post, by rw [hl]; rfl, hops⟩
  | case3 => cases h

/-- in a run of operators the second and the third are signs, as an operand begins behind the one in front -/
theorem operatorRun?_signs {cs : List Char} {p : Nat} (h : Followed opensOperand startsExponent (dense cs))
    (hrun : operatorRun? cs.zipIdx = some p) :
    ∃ a b c, cs[p]? = some a ∧ cs[p + 1]? = some b ∧ cs[p + 2]? = some c ∧ isOperator a = true ∧
      (b = '+' ∨ b = '-') ∧ (c = '+' ∨ c = '-') := by
  obtain ⟨pre, a, b, j, c, k, post, hl, ha, hb, hc⟩ := operatorRun?_cases hrun
  obtain ⟨before, after, hcs, hlen⟩ : ∃ before after, cs = before ++ a :: b :: c :: after ∧
      before.length = pre.length := by
    refine ⟨pre.map Prod.fst, post.map Prod.fst, ?_, List.length_map _⟩
    have hfst := List.zipIdx_map_fst 0 cs
    rw [hl] at hfst
    simpa using hfst.symm
  obtain rfl : p = before.length := by
    have hget : cs.zipIdx[pre.length]? = some (a, p) := by rw [hl]; simp
    rw [List.getElem?_zipIdx, hcs, ← hlen] at hget
    simpa using hget.symm
  -- no blank stands between the three, so they are neighbours without the blanks too
  have hfollow : Followed opensOperand startsExponent (a :: b :: c :: dense after) := by
    rw [hcs, dense, List.filter_append] at h
    rw [← dense_operator hc, ← dense_operator hb, ← dense_operator ha]
    exact followed_of_append h
  refine ⟨a, b, c, by simp [hcs], by simp [hcs], by simp [hcs], ha, ?_, ?_⟩
  · exact sign_of_startsExponent hb (followed_pair hfollow (opensOperand_of_isOperator ha))
  · exact sign_of_startsExponent hc (followed_pair hfollow.2 (opensOperand_of_isOperator hb))

theorem dangling?_eq_none {l : List Located} (h : Followed opensOperand startsExponent (l.map Prod.fst)) :
    dangling? l = none := by
  fun_induction dangling? l with
  | case1 a i b j rest hend =>
    simp only [Bool.and_eq_true, beq_iff_eq] at hend
    obtain ⟨hop, rfl⟩ := hend
    have hb : startsExponent ')' = true := followed_pair h (opensOperand_of_isOperator hop)
    exact absurd hb (by decide)
  | case2 a i b j rest _ hbegin =>
    simp only [Bool.and_eq_true, beq_iff_eq] at hbegin
    obtain ⟨rfl, hneeds⟩ := hbegin
    have hb : startsExponent b = true := followed_pair h rfl
    simp only [needsLeftOperand, Bool.or_eq_true, beq_iff_eq] at hneeds
    rcases hneeds with (rfl | rfl) | rfl <;> exact absurd hb (by decide)
  | case3 a i b j rest _ _ ih => exact ih h.2
  | case4 => rfl

theorem hasExponent_of_mem {l : List Located} (h : Followed opensOperand startsExponent (l.map Prod.fst)) {x : Located}
    (hx : x ∈ l) (hcaret : x.1 = '^') : hasExponent l = true := by
  fun_induction hasExponent l with
  | case1 a i b j rest ih =>
    rcases List.mem_cons.1 hx with rfl | hx
    · have hb := followed_pair h (hcaret ▸ rfl)
      simp [hb, show a = '^' from hcaret]
    · simp [ih h.2 hx]
  | case2 l hpair =>
    -- a caret at the end would have nothing behind it
    match l, hx with
    | [y], hx =>
      obtain rfl : x = y := by simpa using hx
      obtain ⟨b, hb, _⟩ := h.1 (hcaret ▸ rfl)
      cases hb
    | (a, i) :: (b, j) :: rest, _ => exact absurd rfl (hpair a i b j rest)

theorem badPower?_eq_none {l : List Located} (h : Followed opensOperand startsExponent (l.map Prod.fst)) :
    badPower? l = none := by
  unfold badPower?
  split_ifs with hexp
  · rfl
  · rw [Option.map_eq_none_iff, List.find?_eq_none]
    intro x hx hcaret
    exact hexp (hasExponent_of_mem h hx (by simpa using hcaret))

theorem map_fst_dense (cs : List Char) : (cs.zipIdx.filter fun x => !isBlank x.1).map Prod.fst = dense cs := by
  conv_rhs => rw [dense, ← List.zipIdx_map_fst 0 cs, List.filter_map]
  rfl

/-! ## The order of the checks -/

theorem openAfter_symbols (d : Nat) (ks : List Kind) :
    Grammar.openAfter d (ks.filter (! Grammar.isOperand ·)) = Grammar.openAfter d ks := by
  induction ks generalizing d with
  | nil => rfl
  | cons k ks ih =>
    cases hk : Grammar.isOperand k with
    | false =>
      rw [List.filter_cons_of_pos (by simp [hk])]
      simp only [Grammar.openAfter, ih]
    | true =>
      have hleft : k ≠ .leftParen := by rintro rfl; cases hk
      have hright : k ≠ .rightParen := by rintro rfl; cases hk
      rw [List.filter_cons_of_neg (by simp [hk]), Grammar.openAfter_other hleft hright, ih]

theorem count_bars {cs : List Char} {ks : List Kind} (h : Written cs ks) : cs.count '|' = ks.count .pipe := by
  have hbar : ∀ c : Char, (Kind.ofSymbol? c == some .pipe) = (c == '|') := by
    intro c
    by_cases hc : c = '|'
    · subst hc; rfl
    · rw [beq_eq_false_iff_ne.2 hc, beq_eq_false_iff_ne]
      exact fun hsym => hc (eq_of_ofSymbol? hsym rfl)
  have hkinds : (ks.filter (! Grammar.isOperand ·)).count .pipe = ks.count .pipe := List.count_filter rfl
  rw [← hkinds, ← written_symbols h, List.count_filterMap]
  simp only [hbar]
  rfl

/-- on an equation all checks pass but that for runs of operators -/
theorem first?_of_derives {cs : List Char} {ks : List Kind} {ds : List Nat} {e : Expr} (hw : Written cs ks)
    (hd : Grammar.Derives .sum ks ds e) :
    first? cs = warnAt .invalidOperatorSequence (operatorRun? cs.zipIdx) := by
  have hfollow := written_followed hw (Grammar.derives_followed hd)
  have hspace : cs.all Text.isWhiteSpace = false := by
    obtain ⟨c, hc, hstarts⟩ := written_head hw (by simpa using Grammar.derives_begins hd [])
    have hmem : c ∈ cs := (List.mem_filter.1 (List.mem_of_mem_head? hc)).1
    exact List.all_eq_false.2 ⟨c, hmem, by simp [isWhiteSpace_of_startsExponent hstarts]⟩
  have hparens : unbalanced? 0 0 cs.zipIdx = none := by
    refine unbalanced?_eq_none 0 0 ?_
    rw [written_symbols hw, openAfter_symbols]
    simpa [Grammar.openAfter] using Grammar.derives_openAfter hd 0 []
  have hbars : unmatchedPipe? cs.zipIdx = none :=
    unmatchedPipe?_eq_none (by rw [count_bars hw]; exact Grammar.derives_bars hd)
  have hdense : Followed opensOperand startsExponent ((cs.zipIdx.filter fun x => !isBlank x.1).map Prod.fst) := by
    rwa [map_fst_dense]
  simp only [first?, hspace, disallowed?_eq_none (written_allowed hw), hparens, hbars, dangling?_eq_none hdense,
    badPower?_eq_none hdense, warnAt, Bool.false_eq_true, if_false, Option.map_none, Option.orElse_none]
  cases operatorRun? cs.zipIdx <;> rfl

/-- on an equation only the check for runs of operators counts, and behind each of them an operand begins -/
theorem validate_of_parse {s : String} {e : Expr} (h : parse s = .ok e) :
    validate s = warnAt .invalidOperatorSequence (operatorRun? s.toList.zipIdx) ∧
    Followed opensOperand startsExponent (dense s.toList) := by
  obtain ⟨ks, ds, hspells, _, hd, _⟩ := (parse_ok_iff_spells s e).1 h
  have hw := written_of_spells hspells
  exact ⟨first?_of_derives hw hd, written_followed hw (Grammar.derives_followed hd)⟩

end Validation

theorem Compiler.isFallback_of_parse {s : String} {r : Rejection} (h : parse s = .error r) (k : Compiler) :
    (k.compile s).isFallback = true := by
  rw [compile, k.compileStrict_of_error h]
  rfl

/-- **An equation draws no warning but one of a run of signs.** If a text is an equation, it draws no warning, or a
warning of three operators in a row of which the second and the third are signs. A text with a warning of any other kind
is not compiled: the code of `z^2 + c` stands in for it. -/
theorem validate_accepted (s : String) :
    (∀ e, parse s = .ok e →
      validate s = none ∨
      ∃ p a b c, validate s = some ⟨.invalidOperatorSequence, some p⟩ ∧
        s.toList[p]? = some a ∧ s.toList[p + 1]? = some b ∧ s.toList[p + 2]? = some c ∧
        Validation.isOperator a = true ∧ (b = '+' ∨ b = '-') ∧ (c = '+' ∨ c = '-')) ∧
    ∀ w, validate s = some w → w.kind ≠ .invalidOperatorSequence → ∀ k : Compiler, (k.compile s).isFallback = true := by
  constructor
  · intro e he
    obtain ⟨hval, hfollow⟩ := Validation.validate_of_parse he
    cases hrun : Validation.operatorRun? s.toList.zipIdx with
    | none => exact .inl (by rw [hval, hrun]; rfl)
    | some p =>
      obtain ⟨a, b, c, hget⟩ := Validation.operatorRun?_signs hfollow hrun
      exact .inr ⟨p, a, b, c, by rw [hval, hrun]; rfl, hget⟩
  · intro w hval hkind k
    cases hparse : parse s with
    | error r => exact k.isFallback_of_parse hparse
    | ok e =>
      rw [(Validation.validate_of_parse hparse).1, Validation.warnAt, Option.map_eq_some_iff] at hval
      obtain ⟨p, _, rfl⟩ := hval
      exact absurd rfl hkind

/-- `z---c` is an equation and draws a warning all the same; `(z` draws one of another kind -/
theorem validate_signRun :
    parse "z---c" = .ok (.binary .sub (.var .z) (.unary .pos (.var .c))) ∧
    (∃ p a b c, validate "z---c" = some ⟨.invalidOperatorSequence, some p⟩ ∧
      "z---c".toList[p]? = some a ∧ "z---c".toList[p + 1]? = some b ∧ "z---c".toList[p + 2]? = some c ∧
      Validation.isOperator a = true ∧ (b = '+' ∨ b = '-') ∧ (c = '+' ∨ c = '-')) ∧
    validate "(z" = some ⟨.unbalancedParentheses, some 0⟩ ∧ ∀ k : Compiler, (k.compile "(z").isFallback = true := by
  have hspells : Spells "z---c".toList [.ident "z", .minus, .minus, .minus, .ident "c"] :=
    spells_name (by decide : isName "z" = true) (separated_of_ofSymbol? rfl _)
      (spells_symbol rfl (spells_symbol rfl (spells_symbol rfl
        (spells_name (by decide : isName "c" = true) (by simp [Separated]) .nil))))
  have hz : Grammar.Derives .sum [.ident "z"] [0] (.var .z) :=
    .sumFirst (.productFirst (.unaryPlain (.powerFirst (.var .z))))
  have hc : Grammar.Derives .product [.minus, .minus, .ident "c"] [0, 0, 0] (.unary .pos (.var .c)) :=
    .productFirst (.unarySigned [.minus, .minus] (by decide) (by decide) (.powerFirst (.var .c)))
  have hparse : parse "z---c" = .ok (.binary .sub (.var .z) (.unary .pos (.var .c))) :=
    (parse_ok_iff_spells _ _).2 ⟨_, _, hspells, by decide, .sumNext .sub (.inr rfl) hz hc, by decide⟩
  have hval : validate "(z" = some ⟨.unbalancedParentheses, some 0⟩ := by decide
  refine ⟨hparse, ((validate_accepted "z---c").1 _ hparse).resolve_left (by decide), hval, ?_⟩
  exact (validate_accepted "(z").2 _ hval (by decide)

end EscapeTime
