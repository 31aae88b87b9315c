/-
Which texts spell which kinds.

`Spells cs ks` says that the characters `cs` are blanks and tokens of the kinds `ks`, in order, each token as long as
the lexer makes it. A run of the lexer succeeds exactly on the texts that spell something (`spells_of_scan`,
`scan_of_spells`), so facts about accepted texts are proved by induction on `Spells` and need no offsets.

- `lexeme_cases`: what a token is: a symbol, a numeral or an identifier.
- `spells_symbol`, `spells_numeral`, `spells_name`: one token in front of a text that does not run on from it.
- `tokenize_numeral`: a numeral is one token.
- `parse_ok_iff_spells`: an equation is accepted exactly when it spells a sum within the parser's limits.
-/
import EscapeTime.Proofs.Grammar.Acceptance
import EscapeTime.Proofs.Number.Numeral

namespace EscapeTime

/-- the characters are blanks and tokens of these kinds -/
inductive Spells : List Char → List Kind → Prop where
  | nil : Spells [] []
  | blank {c cs ks} (hc : isBlank c = true) : Spells cs ks → Spells (c :: cs) ks
  | token {c tail cs kind ks} (hc : isBlank c = false) (h : lexeme c (tail ++ cs) = .token kind tail) :
      Spells cs ks → Spells (c :: (tail ++ cs)) (kind :: ks)

/-! ## Tokens -/

/-- a token is a symbol, a numeral with a finite value, or an identifier -/
theorem lexeme_cases {c : Char} {rest tail : List Char} {kind : Kind} (h : lexeme c rest = .token kind tail) :
    (Kind.ofSymbol? c = some kind ∧ tail = []) ∨
    (Kind.ofSymbol? c = none ∧ startsNumeral c rest = true ∧ tail = numeralTail c rest ∧
      ∃ x, kind = .number x) ∨
    (Kind.ofSymbol? c = none ∧ isIdentStart c = true ∧ tail = rest.takeWhile isIdentPart ∧
      kind = .ident (String.ofList (c :: tail))) := by
  unfold lexeme at h
  cases hsym : Kind.ofSymbol? c with
  | some k =>
    rw [hsym] at h
    cases h
    exact .inl ⟨rfl, rfl⟩
  | none =>
    rw [hsym] at h
    simp only at h
    split_ifs at h with hnum hfin hident
    · cases h; exact .inr (.inl ⟨rfl, hnum, rfl, _, rfl⟩)
    · cases h; exact .inr (.inr ⟨rfl, hident, rfl, rfl⟩)

theorem numeralTail_prefix (c : Char) (rest : List Char) : numeralTail c rest <+: rest := by
  have hsplit : rest.takeWhile Char.isDigit ++ rest.dropWhile Char.isDigit = rest := List.takeWhile_append_dropWhile
  unfold numeralTail
  dsimp only
  split_ifs
  · exact List.takeWhile_prefix _
  · split
    · rename_i more hmore
      refine ⟨more.dropWhile Char.isDigit, ?_⟩
      rw [List.append_assoc, List.cons_append, List.takeWhile_append_dropWhile, ← hmore, hsplit]
    · exact List.takeWhile_prefix _

/-- a token is taken off the text -/
theorem lexeme_prefix {c : Char} {rest tail : List Char} {kind : Kind} (h : lexeme c rest = .token kind tail) :
    tail ++ rest.drop tail.length = rest := by
  have hprefix : tail <+: rest := by
    rcases lexeme_cases h with ⟨_, rfl⟩ | ⟨_, _, rfl, _⟩ | ⟨_, _, rfl, _⟩
    · exact List.nil_prefix
    · exact numeralTail_prefix c rest
    · exact List.takeWhile_prefix _
  obtain ⟨more, rfl⟩ := hprefix
  rw [List.drop_left]

/-- the one-character tokens with their kinds -/
def symbols : List (Char × Kind) :=
  [('+', .plus), ('-', .minus), ('*', .star), ('/', .slash), ('^', .caret), ('(', .leftParen), (')', .rightParen),
    ('|', .pipe), (',', .comma)]

theorem mem_symbols {c : Char} {k : Kind} (h : Kind.ofSymbol? c = some k) : (c, k) ∈ symbols := by
  unfold Kind.ofSymbol? at h
  split at h <;> cases h <;> decide

theorem ofSymbol?_ne_end {c : Char} {k : Kind} (h : Kind.ofSymbol? c = some k) : k ≠ .endOfInput :=
  (by decide : ∀ x ∈ symbols, x.2 ≠ .endOfInput) (c, k) (mem_symbols h)

theorem lexeme_ne_end {c : Char} {rest tail : List Char} {kind : Kind} (h : lexeme c rest = .token kind tail) :
    kind ≠ .endOfInput := by
  rcases lexeme_cases h with ⟨hsym, _⟩ | ⟨_, _, _, x, rfl⟩ | ⟨_, _, _, rfl⟩
  · exact ofSymbol?_ne_end hsym
  · exact Kind.noConfusion
  · exact Kind.noConfusion

theorem spells_no_end {cs : List Char} {ks : List Kind} (h : Spells cs ks) : ∀ k ∈ ks, k ≠ .endOfInput := by
  induction h with
  | nil => simp
  | blank _ _ ih => exact ih
  | token _ h _ ih => exact List.forall_mem_cons.2 ⟨lexeme_ne_end h, ih⟩

/-! ## Runs of the lexer -/

theorem spells_of_scan (position : Nat) (source : List Char) :
    ∀ ts, (Lexer.scan position source).1 = .ok ts →
      ∃ tokens eof, ts = tokens ++ [eof] ∧ eof.kind = .endOfInput ∧ Spells source (tokens.map Token.kind) := by
  fun_induction Lexer.scan position source with
  | case1 position =>
    intro ts h
    cases h
    exact ⟨[], _, rfl, rfl, .nil⟩
  | case2 position c rest hblank ih =>
    intro ts h
    obtain ⟨tokens, eof, rfl, heof, hspells⟩ := ih ts h
    exact ⟨tokens, eof, rfl, heof, .blank hblank hspells⟩
  | case3 position c rest hblank kind tail hlex next ih =>
    intro ts h
    cases hnext : next.1 with
    | error r => rw [hnext] at h; cases h
    | ok us =>
      obtain ⟨tokens, eof, rfl, heof, hspells⟩ := ih us hnext
      rw [hnext] at h
      cases h
      refine ⟨_ :: tokens, eof, rfl, heof, ?_⟩
      have hrest := lexeme_prefix hlex
      rw [← hrest] at hlex ⊢
      exact .token (by simpa using hblank) hlex hspells
  | case4 => intro ts h; cases h
  | case5 => intro ts h; cases h

theorem scan_of_spells {cs : List Char} {ks : List Kind} (h : Spells cs ks) :
    ∀ position, ∃ tokens eof, (Lexer.scan position cs).1 = .ok (tokens ++ [eof]) ∧ eof.kind = .endOfInput ∧
      tokens.map Token.kind = ks := by
  induction h with
  | nil =>
    intro position
    rw [Lexer.scan]
    exact ⟨[], _, rfl, rfl, rfl⟩
  | blank hc _ ih =>
    intro position
    rw [Lexer.scan, if_pos hc]
    exact ih (position + 1)
  | @token c tail cs kind ks hc hlex _ ih =>
    intro position
    obtain ⟨tokens, eof, hscan, heof, hkinds⟩ := ih (position + 1 + tail.length)
    refine ⟨⟨kind, String.ofList (c :: tail), position⟩ :: tokens, eof, ?_, heof, by simp [hkinds]⟩
    rw [Lexer.scan, if_neg (by simp [hc])]
    simp only [hlex, List.drop_left, hscan]
    rfl

/-- an equation is accepted exactly when it spells a sum within the limits on length and depth -/
theorem parse_ok_iff_spells (s : String) (e : Expr) :
    parse s = .ok e ↔
      ∃ ks ds, Spells s.toList ks ∧ ks.length ≤ 512 ∧ Grammar.Derives .sum ks ds e ∧ ∀ d ∈ ds, d ≤ 127 := by
  have hparse : ∀ tokens, (Lexer.scan 0 s.toList).1 = .ok tokens →
      parse s = (Parser.ofTokens tokens).parse.1 := by
    intro tokens h
    have htokens : tokenize s = .ok tokens := h
    simp only [parse, htokens]
    rfl
  constructor
  · intro h
    cases hscan : (Lexer.scan 0 s.toList).1 with
    | error r =>
      have htokens : tokenize s = .error r := hscan
      simp only [parse, htokens] at h
      cases h
    | ok ts =>
      obtain ⟨tokens, eof, rfl, heof, hspells⟩ := spells_of_scan 0 s.toList ts hscan
      have hts : ∀ t ∈ tokens, t.kind ≠ .endOfInput := by simpa using spells_no_end hspells
      rw [hparse _ hscan, Parser.parse_fresh_ok_iff hts heof] at h
      obtain ⟨hlen, ds, hd, hds⟩ := h
      exact ⟨_, ds, hspells, by simpa using hlen, hd, hds⟩
  · rintro ⟨ks, ds, hspells, hlen, hd, hds⟩
    obtain ⟨tokens, eof, hscan, heof, rfl⟩ := scan_of_spells hspells 0
    have hts : ∀ t ∈ tokens, t.kind ≠ .endOfInput := by simpa using spells_no_end hspells
    rw [hparse _ hscan, Parser.parse_fresh_ok_iff hts heof]
    exact ⟨by simpa using hlen, ds, hd, hds⟩

/-! ## One token in front of a text -/

theorem isBlank_of_ofSymbol? {c : Char} {k : Kind} (h : Kind.ofSymbol? c = some k) : isBlank c = false :=
  (by decide : ∀ x ∈ symbols, isBlank x.1 = false) (c, k) (mem_symbols h)

theorem isIdentPart_of_ofSymbol? {c : Char} {k : Kind} (h : Kind.ofSymbol? c = some k) : isIdentPart c = false :=
  (by decide : ∀ x ∈ symbols, isIdentPart x.1 = false) (c, k) (mem_symbols h)

/-- what identifiers and numerals are made of is neither blank nor symbol -/
theorem isIdentPart_plain {c : Char} (h : isIdentPart c = true) : isBlank c = false ∧ Kind.ofSymbol? c = none := by
  constructor
  · by_contra hblank
    simp only [isBlank, Bool.not_eq_false, Bool.or_eq_true, beq_iff_eq] at hblank
    rcases hblank with ((rfl | rfl) | rfl) | rfl <;> exact absurd h (by decide)
  · refine Option.eq_none_iff_forall_not_mem.2 fun k hk => ?_
    rw [isIdentPart_of_ofSymbol? hk] at h
    cases h

theorem isIdentPart_of_isDigit {c : Char} (h : c.isDigit = true) : isIdentPart c = true := by
  simp [isIdentPart, Char.isAlphanum, h]

theorem isIdentPart_of_isIdentStart {c : Char} (h : isIdentStart c = true) : isIdentPart c = true := by
  simp only [isIdentStart, isIdentPart, Char.isAlphanum, Bool.or_eq_true] at h ⊢
  exact h.imp_left .inl

theorem isAlpha_toNat {c : Char} (h : c.isAlpha = true) :
    (65 ≤ c.toNat ∧ c.toNat ≤ 90) ∨ (97 ≤ c.toNat ∧ c.toNat ≤ 122) := by
  have hupper : c.isUpper = true → c.val ≥ 'A'.val ∧ c.val ≤ 'Z'.val := of_decide_eq_true
  have hlower : c.isLower = true → c.val ≥ 'a'.val ∧ c.val ≤ 'z'.val :=
    fun hc => (Bool.and_eq_true_iff.1 hc).imp of_decide_eq_true of_decide_eq_true
  exact (Bool.or_eq_true_iff.1 h).imp hupper hlower

theorem isDigit_toNat {c : Char} (h : c.isDigit = true) : 48 ≤ c.toNat ∧ c.toNat ≤ 57 :=
  Char.isDigit_iff_toNat.1 h

theorem isDigit_of_isIdentStart {c : Char} (h : isIdentStart c = true) : c.isDigit = false := by
  by_contra hdigit
  have hd := isDigit_toNat (by simpa using hdigit)
  rcases Bool.or_eq_true_iff.1 h with halpha | hunder
  · have ha := isAlpha_toNat halpha
    omega
  · obtain rfl : c = '_' := by simpa using hunder
    exact absurd hd (by decide)

theorem startsNumeral_of_isIdentStart {c : Char} (h : isIdentStart c = true) (rest : List Char) :
    startsNumeral c rest = false := by
  have hpoint : c ≠ '.' := by
    rintro rfl
    exact absurd h (by decide)
  simp [startsNumeral, isDigit_of_isIdentStart h, hpoint]

/-- no identifier and no numeral runs on into the text -/
def Separated (rest : List Char) : Prop :=
  ∀ c ∈ rest.head?, isIdentPart c = false ∧ c ≠ '.'

theorem Separated.digit {rest : List Char} (h : Separated rest) : ∀ c ∈ rest.head?, c.isDigit = false := by
  intro c hc
  by_contra hdigit
  exact absurd (isIdentPart_of_isDigit (by simpa using hdigit)) (by simp [(h c hc).1])

theorem separated_of_ofSymbol? {c : Char} {k : Kind} (h : Kind.ofSymbol? c = some k) (rest : List Char) :
    Separated (c :: rest) := by
  intro d hd
  obtain rfl : c = d := by simpa using hd
  refine ⟨isIdentPart_of_ofSymbol? h, ?_⟩
  rintro rfl
  cases h

theorem separated_blank (rest : List Char) : Separated (' ' :: rest) := by
  intro d hd
  obtain rfl : ' ' = d := by simpa using hd
  decide

theorem spells_symbol {c : Char} {k : Kind} {rest : List Char} {ks : List Kind} (h : Kind.ofSymbol? c = some k)
    (hrest : Spells rest ks) : Spells (c :: rest) (k :: ks) := by
  have hlex : lexeme c ([] ++ rest) = .token k [] := by rw [lexeme, h]
  exact .token (isBlank_of_ofSymbol? h) hlex hrest

/-- a numeral is taken whole, where neither a digit nor its first point follows -/
theorem numeralTail_numeral {c : Char} {tail rest : List Char} (h : Numeral (c :: tail))
    (hdigit : ∀ d ∈ rest.head?, d.isDigit = false) (hfirst : '.' ∉ tail → ∀ d ∈ rest.head?, d ≠ '.') :
    numeralTail c (tail ++ rest) = tail := by
  obtain ⟨_, _, heq, hc⟩ := Binary64.numeral_head h
  cases heq
  have hpoint : (c == '.') = false := by
    rw [beq_eq_false_iff_ne]
    rintro rfl
    exact absurd hc (by decide)
  generalize hcs : c :: tail = cs at h
  simp only [numeralTail, hpoint, Bool.false_eq_true, if_false]
  cases h with
  | whole _ hw =>
    subst hcs
    have htail := (List.forall_mem_cons.1 hw).2
    have hnone : '.' ∉ tail := fun hmem => absurd (htail '.' hmem) (by decide)
    rw [takeWhile_run rest htail hdigit, dropWhile_run rest htail hdigit]
    split
    · exact absurd rfl (hfirst hnone '.' rfl)
    · rfl
  | @pointed w f hne hw hf =>
    obtain ⟨c', w', rfl⟩ := List.exists_cons_of_ne_nil hne
    rw [List.cons_append, List.cons.injEq] at hcs
    obtain ⟨rfl, rfl⟩ := hcs
    have htail := (List.forall_mem_cons.1 hw).2
    have hdot : ∀ d ∈ ('.' :: (f ++ rest)).head?, d.isDigit = false := by simp
    rw [List.append_assoc, List.cons_append, takeWhile_run _ htail hdot, dropWhile_run _ htail hdot]
    simp only [takeWhile_run rest hf hdigit]

/-- a numeral is read as its value -/
theorem lexeme_numeral {c : Char} {tail rest : List Char} {x : Binary64} (h : Numeral (c :: tail))
    (hx : (Decimal.ofNumeral (c :: tail)).toBinary64 = x) (hfin : x.isFinite = true) (hsep : Separated rest) :
    isBlank c = false ∧ lexeme c (tail ++ rest) = .token (.number x) tail := by
  obtain ⟨_, _, heq, hc⟩ := Binary64.numeral_head h
  cases heq
  obtain ⟨hblank, hsym⟩ := isIdentPart_plain (isIdentPart_of_isDigit hc)
  have hstart : startsNumeral c (tail ++ rest) = true := by simp [startsNumeral, hc]
  have htail : numeralTail c (tail ++ rest) = tail := numeralTail_numeral h hsep.digit fun _ d hd => (hsep d hd).2
  refine ⟨hblank, ?_⟩
  simp only [lexeme, hsym, hstart, if_true, htail, hx, hfin]

theorem spells_numeral {text rest : List Char} {ks : List Kind} {x : Binary64} (htext : Numeral text)
    (hx : (Decimal.ofNumeral text).toBinary64 = x) (hfin : x.isFinite = true) (hsep : Separated rest)
    (hrest : Spells rest ks) : Spells (text ++ rest) (.number x :: ks) := by
  obtain ⟨c, tail, rfl, _⟩ := Binary64.numeral_head htext
  obtain ⟨hblank, hlex⟩ := lexeme_numeral htext hx hfin hsep
  exact .token hblank hlex hrest

/-- a text that is one numeral is one token -/
theorem tokenize_numeral {text : String} {x : Binary64} (htext : Numeral text.toList)
    (hx : (Decimal.ofNumeral text.toList).toBinary64 = x) (hfin : x.isFinite = true) :
    tokenize text = .ok [⟨.number x, text, 0⟩, ⟨.endOfInput, "", text.length⟩] := by
  obtain ⟨c, tail, hlist, _⟩ := Binary64.numeral_head htext
  have hlength : text.length = 0 + 1 + tail.length := by
    rw [← String.length_toList, hlist, List.length_cons]
    omega
  have hname : String.ofList (c :: tail) = text := by rw [← hlist, String.ofList_toList]
  rw [hlist] at htext hx
  have hend : Separated [] := by simp [Separated]
  obtain ⟨hblank, hlex⟩ := lexeme_numeral htext hx hfin hend
  rw [List.append_nil] at hlex
  rw [tokenize, Lexer.tokenize, Lexer.ofSource, hlist, Lexer.scan, if_neg (by simp [hblank]), hlex]
  simp only [List.drop_length, hname, hlength]
  rw [Lexer.scan]
  rfl

/-- the whole text is one identifier -/
def isName (text : String) : Bool :=
  text.toList.head?.any isIdentStart && text.toList.tail.all isIdentPart

theorem spells_name {text : String} {rest : List Char} {ks : List Kind} (h : isName text = true)
    (hsep : Separated rest) (hrest : Spells rest ks) : Spells (text.toList ++ rest) (.ident text :: ks) := by
  cases hlist : text.toList with
  | nil => simp [isName, hlist] at h
  | cons c tail =>
    simp only [isName, hlist, List.head?_cons, Option.any_some, List.tail_cons, Bool.and_eq_true,
      List.all_eq_true] at h
    obtain ⟨hc, htail⟩ := h
    obtain ⟨hblank, hsym⟩ := isIdentPart_plain (isIdentPart_of_isIdentStart hc)
    have hstart := startsNumeral_of_isIdentStart hc (tail ++ rest)
    have hlex : lexeme c (tail ++ rest) = .token (.ident text) tail := by
      simp only [lexeme, hsym, hstart, Bool.false_eq_true, if_false, hc, if_true,
        takeWhile_run rest htail fun d hd => (hsep d hd).1, ← hlist, String.ofList_toList]
    exact .token hblank hlex hrest

end EscapeTime
