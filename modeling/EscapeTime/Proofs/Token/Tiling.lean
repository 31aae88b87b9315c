/-
Tokens tile the source.

`Tokenization source a ts` says, without a scan, what the tokens of a source from offset `a` on are: each is a slice of
the source at its own offset, written as its kind is written and not to be made longer (`IsToken`); they stand in order,
with nothing but blanks around and between them (`Gap`); and an end marker at the end of the source closes them.

- `lexeme_written`, `lexeme_exact`: the token at a character is the one text there that is written as a token and cannot
  be made longer.
- `scan_tiles`: a run of the lexer that succeeds gives the tokens of the source.
- `tokenization_unique`: a source has them in at most one way.
-/
import EscapeTime.Proofs.Token.Concatenation

namespace EscapeTime

/-! ## Tokens and gaps, without a scan -/

/-- a token of the kind is written like this -/
inductive Kind.WrittenAs : Kind → List Char → Prop where
  | symbol {c : Char} {kind : Kind} (h : (c, kind) ∈ symbols) : WrittenAs kind [c]
  | ident (name : String) {c : Char} {tail : List Char} (hc : c.isAlpha = true ∨ c = '_')
      (htail : ∀ d ∈ tail, d.isAlphanum = true ∨ d = '_') : WrittenAs (.ident name) (c :: tail)
  | numeral (x : Binary64) {text : List Char} (h : Numeral text) : WrittenAs (.number x) text
  | fraction (x : Binary64) {f : List Char} (hne : f ≠ []) (hf : ∀ d ∈ f, d.isDigit = true) :
      WrittenAs (.number x) ('.' :: f)

/-- the text of a token of the kind could go on with the character -/
def Kind.RunsOn (kind : Kind) (text : List Char) (c : Char) : Prop :=
  match kind with
  | .ident _ => c.isAlphanum = true ∨ c = '_'
  | .number _ => c.isDigit = true ∨ (c = '.' ∧ '.' ∉ text)
  | _ => False

/-- space, tab, line feed or carriage return -/
def Blank (c : Char) : Prop :=
  c = ' ' ∨ c = '\t' ∨ c = '\n' ∨ c = '\r'

/-- from one offset up to another there are only blanks -/
def Gap (source : List Char) (a b : Nat) : Prop :=
  a ≤ b ∧ ∀ i c, a ≤ i → i < b → source[i]? = some c → Blank c

/-- the offset behind a token -/
def Token.stop (t : Token) : Nat :=
  t.position + t.text.length

/-- a token of the source, as long as it can be -/
structure IsToken (source : List Char) (t : Token) : Prop where
  notEnd : t.kind ≠ .endOfInput
  nonempty : t.text ≠ ""
  slice : (source.drop t.position).take t.text.length = t.text.toList
  written : t.kind.WrittenAs t.text.toList
  longest : ∀ c, source[t.stop]? = some c → ¬ t.kind.RunsOn t.text.toList c

/-- the tokens of the source from offset `a` on, closed by an end marker -/
structure Tokenization (source : List Char) (a : Nat) (ts : List Token) : Prop where
  ends : ∃ tokens eof, ts = tokens ++ [eof] ∧ (∀ t ∈ tokens, IsToken source t) ∧
    eof.kind = .endOfInput ∧ eof.position = source.length
  first : ∀ t ∈ ts.head?, Gap source a t.position
  next : ts.IsChain fun t u => Gap source t.stop u.position

/-- an identifier's name is its text, a number's value is that of its text, and an end marker has no text -/
structure Token.Valued (t : Token) : Prop where
  name : ∀ name, t.kind = .ident name → name = t.text
  value : ∀ x, t.kind = .number x → x = (Decimal.ofNumeral t.text.toList).toBinary64
  noText : t.kind = .endOfInput → t.text = ""

/-! ## One token -/

theorem isBlank_iff (c : Char) : isBlank c = true ↔ Blank c := by
  simp [isBlank, Blank, or_assoc]

theorem isIdentPart_iff (c : Char) : isIdentPart c = true ↔ c.isAlphanum = true ∨ c = '_' := by
  simp [isIdentPart]

theorem isIdentStart_iff (c : Char) : isIdentStart c = true ↔ c.isAlpha = true ∨ c = '_' := by
  simp [isIdentStart]

theorem ofSymbol?_of_mem {c : Char} {kind : Kind} (h : (c, kind) ∈ symbols) : Kind.ofSymbol? c = some kind :=
  (by decide : ∀ x ∈ symbols, Kind.ofSymbol? x.1 = some x.2) (c, kind) h

theorem isDigit_takeWhile {cs : List Char} : ∀ d ∈ cs.takeWhile Char.isDigit, d.isDigit = true :=
  List.all_eq_true.1 List.all_takeWhile

theorem head_dropWhile {p : Char → Bool} {cs : List Char} : ∀ d ∈ (cs.dropWhile p).head?, p d = false := by
  intro d hd
  have hnot := List.head?_dropWhile_not p cs
  rw [Option.mem_def.1 hd] at hnot
  simpa using hnot

theorem drop_takeWhile {p : Char → Bool} {cs : List Char} : cs.drop (cs.takeWhile p).length = cs.dropWhile p := by
  have hsplit : cs.takeWhile p ++ cs.dropWhile p = cs := List.takeWhile_append_dropWhile
  calc cs.drop (cs.takeWhile p).length
      = (cs.takeWhile p ++ cs.dropWhile p).drop (cs.takeWhile p).length := by rw [hsplit]
    _ = cs.dropWhile p := List.drop_left

/-- the three ways a numeral goes on from its first character, and what follows it -/
theorem numeralTail_cases {c : Char} {rest : List Char} (h : startsNumeral c rest = true) :
    ∃ tail after, numeralTail c rest = tail ∧ rest = tail ++ after ∧ (∀ d ∈ after.head?, d.isDigit = false) ∧
      ((c = '.' ∧ tail ≠ [] ∧ ∀ d ∈ tail, d.isDigit = true) ∨
        (c.isDigit = true ∧ ∃ w f, tail = w ++ '.' :: f ∧ (∀ d ∈ w, d.isDigit = true) ∧ ∀ d ∈ f, d.isDigit = true) ∨
        (c.isDigit = true ∧ (∀ d ∈ tail, d.isDigit = true) ∧ ∀ d ∈ after.head?, d ≠ '.')) := by
  have hsplit : rest = rest.takeWhile Char.isDigit ++ rest.dropWhile Char.isDigit :=
    List.takeWhile_append_dropWhile.symm
  by_cases hpoint : c = '.'
  · subst hpoint
    refine ⟨_, _, by simp [numeralTail], hsplit, head_dropWhile, .inl ⟨rfl, ?_, isDigit_takeWhile⟩⟩
    have hhead : rest.head?.any Char.isDigit = true := by simpa [startsNumeral] using h
    cases rest with
    | nil => cases hhead
    | cons d rest => simp_all
  · have hc : c.isDigit = true := by simpa [startsNumeral, hpoint] using h
    cases hafter : rest.dropWhile Char.isDigit with
    | nil =>
      refine ⟨rest.takeWhile Char.isDigit, [], by simp [numeralTail, hpoint, hafter], hafter ▸ hsplit, by simp,
        .inr (.inr ⟨hc, isDigit_takeWhile, by simp⟩)⟩
    | cons d more =>
      have hd : d.isDigit = false := head_dropWhile d (by rw [hafter]; rfl)
      by_cases hdot : d = '.'
      · subst hdot
        refine ⟨rest.takeWhile Char.isDigit ++ '.' :: more.takeWhile Char.isDigit, more.dropWhile Char.isDigit,
          by simp [numeralTail, hpoint, hafter], ?_, head_dropWhile,
          .inr (.inl ⟨hc, _, _, rfl, isDigit_takeWhile, isDigit_takeWhile⟩)⟩
        rw [List.append_assoc, List.cons_append, List.takeWhile_append_dropWhile, ← hafter, ← hsplit]
      · refine ⟨rest.takeWhile Char.isDigit, d :: more, by simp [numeralTail, hpoint, hafter, hdot], hafter ▸ hsplit,
          by simpa using hd, .inr (.inr ⟨hc, isDigit_takeWhile, by simpa using hdot⟩)⟩

/-- a numeral is written as numbers are, and neither a digit nor a first point follows it -/
theorem numeralTail_written {c : Char} {rest : List Char} (h : startsNumeral c rest = true) (x : Binary64) :
    (Kind.number x).WrittenAs (c :: numeralTail c rest) ∧
    ∀ d ∈ (rest.drop (numeralTail c rest).length).head?, ¬ (Kind.number x).RunsOn (c :: numeralTail c rest) d := by
  obtain ⟨tail, after, htail, hrest, hdigit, hcases⟩ := numeralTail_cases h
  have hafter : rest.drop tail.length = after := by rw [hrest, List.drop_left]
  rw [htail, hafter]
  rcases hcases with ⟨rfl, hne, hf⟩ | ⟨hc, w, f, rfl, hw, hf⟩ | ⟨hc, hw, hpoint⟩
  · refine ⟨.fraction x hne hf, ?_⟩
    rintro d hd (hrun | ⟨_, hnone⟩)
    · exact absurd hrun (by simp [hdigit d hd])
    · exact hnone List.mem_cons_self
  · refine ⟨.numeral x (.pointed (w := c :: w) (by simp) (List.forall_mem_cons.2 ⟨hc, hw⟩) hf), ?_⟩
    rintro d hd (hrun | ⟨_, hnone⟩)
    · exact absurd hrun (by simp [hdigit d hd])
    · exact hnone (by simp)
  · refine ⟨.numeral x (.whole (by simp) (List.forall_mem_cons.2 ⟨hc, hw⟩)), ?_⟩
    rintro d hd (hrun | ⟨hdot, _⟩)
    · exact absurd hrun (by simp [hdigit d hd])
    · exact hpoint d hd hdot

/-- the token at a character is written as its kind is written, and what follows does not go on with it -/
theorem lexeme_written {c : Char} {rest tail : List Char} {kind : Kind} (h : lexeme c rest = .token kind tail) :
    kind.WrittenAs (c :: tail) ∧ ∀ d ∈ (rest.drop tail.length).head?, ¬ kind.RunsOn (c :: tail) d := by
  rcases lexeme_cases h with ⟨hsym, rfl⟩ | ⟨_, hstart, rfl, x, rfl⟩ | ⟨_, hstart, rfl, rfl⟩
  · refine ⟨.symbol (mem_symbols hsym), fun d _ => ?_⟩
    have hplain : ∀ y ∈ symbols, ¬ y.2.RunsOn [y.1] d := by simp [symbols, Kind.RunsOn]
    exact hplain (c, kind) (mem_symbols hsym)
  · exact numeralTail_written hstart x
  · constructor
    · refine .ident _ ((isIdentStart_iff c).1 hstart) fun d hd => ?_
      exact (isIdentPart_iff d).1 (List.all_eq_true.1 List.all_takeWhile d hd)
    · intro d hd hrun
      rw [drop_takeWhile] at hd
      have hpart : isIdentPart d = false := head_dropWhile d hd
      rw [(isIdentPart_iff d).2 hrun] at hpart
      cases hpart

/-- how far the token at a character reaches, be its value in range or not -/
def Lexeme.tail : Lexeme → List Char
  | token _ tail => tail
  | tooLarge tail => tail
  | stray => []

theorem lexeme_tail_number {c : Char} {rest : List Char} (hsym : Kind.ofSymbol? c = none)
    (hstart : startsNumeral c rest = true) : (lexeme c rest).tail = numeralTail c rest := by
  simp only [lexeme, hsym, hstart, if_true]
  split_ifs <;> rfl

/-- a text that is written as a number and cannot be made longer is what the lexer takes -/
theorem numeralTail_exact {c : Char} {tail rest : List Char} {x : Binary64} (h : (Kind.number x).WrittenAs (c :: tail))
    (hrest : ∀ d ∈ rest.head?, ¬ (Kind.number x).RunsOn (c :: tail) d) :
    startsNumeral c (tail ++ rest) = true ∧ numeralTail c (tail ++ rest) = tail := by
  have hdigit : ∀ d ∈ rest.head?, d.isDigit = false := by
    intro d hd
    by_contra hd'
    exact hrest d hd (.inl (by simpa using hd'))
  generalize hcs : c :: tail = cs at h
  cases h with
  | symbol hmem => exact absurd hmem (by simp [symbols])
  | fraction _ hne hf =>
    obtain ⟨rfl, rfl⟩ := List.cons.inj hcs
    have hhead : (tail ++ rest).head?.any Char.isDigit = true := by
      obtain ⟨d, f, rfl⟩ := List.exists_cons_of_ne_nil hne
      exact hf d List.mem_cons_self
    exact ⟨by rw [startsNumeral, hhead]; rfl, by simp [numeralTail, takeWhile_run rest hf hdigit]⟩
  | numeral _ hnum =>
    subst hcs
    obtain ⟨_, _, heq, hc⟩ := Binary64.numeral_head hnum
    cases heq
    refine ⟨by simp [startsNumeral, hc], numeralTail_numeral hnum hdigit fun hnone d hd hdot => ?_⟩
    have hpoint : c ≠ '.' := by
      rintro rfl
      exact absurd hc (by decide)
    exact hrest d hd (.inr ⟨hdot, by simpa using ⟨hpoint.symm, hnone⟩⟩)

theorem ofSymbol?_of_startsNumeral {c : Char} {rest : List Char} (h : startsNumeral c rest = true) :
    Kind.ofSymbol? c = none := by
  simp only [startsNumeral, Bool.or_eq_true, Bool.and_eq_true, beq_iff_eq] at h
  rcases h with hdigit | ⟨rfl, _⟩
  · exact (isIdentPart_plain (isIdentPart_of_isDigit hdigit)).2
  · rfl

/-- a text that is written as a token and cannot be made longer is what the lexer takes -/
theorem lexeme_exact {c : Char} {tail rest : List Char} {kind : Kind} (h : kind.WrittenAs (c :: tail))
    (hrest : ∀ d ∈ rest.head?, ¬ kind.RunsOn (c :: tail) d) : (lexeme c (tail ++ rest)).tail = tail := by
  have hnumber : ∀ x, kind = .number x → (lexeme c (tail ++ rest)).tail = tail := by
    rintro x rfl
    obtain ⟨hstart, htail⟩ := numeralTail_exact h hrest
    rw [lexeme_tail_number (ofSymbol?_of_startsNumeral hstart) hstart, htail]
  generalize hcs : c :: tail = cs at h
  cases h with
  | numeral x _ => exact hnumber x rfl
  | fraction x _ _ => exact hnumber x rfl
  | symbol hmem =>
    obtain ⟨rfl, rfl⟩ := List.cons.inj hcs
    simp [lexeme, ofSymbol?_of_mem hmem, Lexeme.tail]
  | ident name hc htail =>
    obtain ⟨rfl, rfl⟩ := List.cons.inj hcs
    have hstart := (isIdentStart_iff c).2 hc
    have hsym := (isIdentPart_plain (isIdentPart_of_isIdentStart hstart)).2
    have hpart : ∀ d ∈ rest.head?, isIdentPart d = false := by
      intro d hd
      by_contra hd'
      exact hrest d hd ((isIdentPart_iff d).1 (by simpa using hd'))
    have htake := takeWhile_run rest (fun d hd => (isIdentPart_iff d).2 (htail d hd)) hpart
    simp [lexeme, hsym, startsNumeral_of_isIdentStart hstart, hstart, htake, Lexeme.tail]

/-- no token begins with a blank -/
theorem Kind.WrittenAs.notBlank {kind : Kind} {text : List Char} (h : kind.WrittenAs text) :
    ∃ c tail, text = c :: tail ∧ ¬ Blank c := by
  have hplain : ∀ {c : Char}, isIdentPart c = true → ¬ Blank c := by
    intro c hc hblank
    rw [← isBlank_iff, (isIdentPart_plain hc).1] at hblank
    cases hblank
  cases h with
  | @symbol c _ hmem =>
    refine ⟨c, [], rfl, fun hblank => ?_⟩
    rw [← isBlank_iff, isBlank_of_ofSymbol? (ofSymbol?_of_mem hmem)] at hblank
    cases hblank
  | ident name hc _ => exact ⟨_, _, rfl, hplain (isIdentPart_of_isIdentStart ((isIdentStart_iff _).2 hc))⟩
  | numeral x hnum =>
    obtain ⟨c, tail, rfl, hc⟩ := Binary64.numeral_head hnum
    exact ⟨c, tail, rfl, hplain (isIdentPart_of_isDigit hc)⟩
  | fraction x _ _ => exact ⟨_, _, rfl, by simp [Blank]⟩

/-! ## Runs of the lexer -/

theorem getElem?_of_drop {source : List Char} {a : Nat} {c : Char} {rest : List Char} (h : source.drop a = c :: rest) :
    source[a]? = some c := by
  rw [← List.head?_drop, h]
  rfl

/-- what lies ahead behind the character at an offset and `n` more -/
theorem drop_behind {source : List Char} {a : Nat} {c : Char} {rest : List Char} (h : source.drop a = c :: rest)
    (n : Nat) :
    source.drop (a + 1 + n) = rest.drop n := by
  rw [← List.drop_drop, ← List.drop_drop, h]
  rfl

/-- the token at an offset ends inside the source -/
theorem stop_le_of_lexeme {source : List Char} {a : Nat} {c : Char} {rest tail : List Char} {kind : Kind}
    (hdrop : source.drop a = c :: rest) (h : lexeme c rest = .token kind tail) :
    a + 1 + tail.length ≤ source.length := by
  have hsize := congrArg List.length hdrop
  have htext := lexeme_prefix h
  have hsplit := congrArg List.length htext
  simp only [List.length_drop, List.length_cons, List.length_append] at hsize hsplit
  omega

theorem Gap.refl (source : List Char) (a : Nat) : Gap source a a :=
  ⟨le_rfl, fun _ _ hle hlt => absurd hle (by omega)⟩

/-- a gap begins one blank earlier -/
theorem Gap.blank {source : List Char} {a b : Nat} {c : Char} (hc : source[a]? = some c) (hblank : Blank c)
    (h : Gap source (a + 1) b) : Gap source a b := by
  refine ⟨by have := h.1; omega, fun i d hle hlt hd => ?_⟩
  rcases Nat.eq_or_lt_of_le hle with rfl | hlt'
  · rw [hc] at hd
    cases hd
    exact hblank
  · exact h.2 i d hlt' hlt hd

/-- the end of the source and its end marker -/
theorem tokenization_end {source : List Char} {eof : Token} (hkind : eof.kind = .endOfInput)
    (hpos : eof.position =
      source.length) {a : Nat} (hgap : Gap source a source.length) : Tokenization source a [eof] where
  ends := ⟨[], eof, rfl, by simp, hkind, hpos⟩
  first := by simpa [hpos] using hgap
  next := List.isChain_singleton eof

/-- one token more in front -/
theorem Tokenization.cons {source : List Char} {a : Nat} {t : Token} {ts : List Token} (ht : IsToken source t)
    (hgap : Gap source a t.position) (h : Tokenization source t.stop ts) : Tokenization source a (t :: ts) where
  ends := by
    obtain ⟨tokens, eof, rfl, htokens, hkind, hpos⟩ := h.ends
    exact ⟨t :: tokens, eof, rfl, List.forall_mem_cons.2 ⟨ht, htokens⟩, hkind, hpos⟩
  first := by simpa using hgap
  next := List.isChain_cons.2 ⟨h.first, h.next⟩

/-- one blank more in front -/
theorem Tokenization.blank {source : List Char} {a : Nat} {c : Char} {ts : List Token} (hc : source[a]? = some c)
    (hblank : Blank c) (h : Tokenization source (a + 1) ts) : Tokenization source a ts where
  ends := h.ends
  first := fun t ht => Gap.blank hc hblank (h.first t ht)
  next := h.next

/-- the token at an offset, cut out of what lies ahead there -/
theorem isToken_of_lexeme {source : List Char} {a : Nat} {c : Char} {rest tail : List Char} {kind : Kind}
    (hdrop : source.drop a = c :: rest) (h : lexeme c rest = .token kind tail) :
    IsToken source ⟨kind, String.ofList (c :: tail), a⟩ := by
  have hsplit : source.drop a = (c :: tail) ++ rest.drop tail.length := by
    rw [hdrop, List.cons_append, lexeme_prefix h]
  obtain ⟨hwritten, hlongest⟩ := lexeme_written h
  refine ⟨lexeme_ne_end h, by simp, ?_, by simpa using hwritten, fun d hd => ?_⟩
  · simp only [String.length_ofList, String.toList_ofList, hsplit, List.take_left]
  · have hnext : source[a + (c :: tail).length]? = (rest.drop tail.length).head? := by
      rw [← List.getElem?_drop, hsplit, List.getElem?_append_right le_rfl, Nat.sub_self, List.head?_eq_getElem?]
    rw [Token.stop, String.length_ofList, hnext] at hd
    simpa using hlongest d hd

/-- the token at an offset carries the value of its text -/
theorem valued_of_lexeme {c : Char} {rest tail : List Char} {kind : Kind} (h : lexeme c rest = .token kind tail)
    (a : Nat) :
    Token.Valued ⟨kind, String.ofList (c :: tail), a⟩ := by
  rcases lexeme_cases h with ⟨hsym, rfl⟩ | ⟨hsym, hstart, rfl, x, rfl⟩ | ⟨_, _, _, rfl⟩
  · have hplain : ∀ y ∈ symbols, (∀ name, y.2 ≠ .ident name) ∧ ∀ x, y.2 ≠ .number x := by simp [symbols]
    obtain ⟨hident, hnumber⟩ := hplain (c, kind) (mem_symbols hsym)
    exact ⟨fun name hname => absurd hname (hident name), fun x hx => absurd hx (hnumber x),
      fun hend => absurd hend (ofSymbol?_ne_end hsym)⟩
  · refine ⟨by simp, fun y hy => ?_, by simp⟩
    cases hy
    simp only [lexeme, hsym, hstart, if_true] at h
    split_ifs at h
    simpa [eq_comm] using h
  · refine ⟨fun name hname => ?_, by simp, by simp⟩
    cases hname
    rfl

/-- a run that succeeds gives the tokens of the source from where it starts -/
theorem scan_tiles (source : List Char) (a : Nat) (rest : List Char) :
    source.drop a = rest → a ≤ source.length → ∀ ts, (Lexer.scan a rest).1 = .ok ts →
      Tokenization source a ts ∧ ∀ t ∈ ts, t.Valued := by
  fun_induction Lexer.scan a rest with
  | case1 a =>
    intro hdrop hle ts h
    cases h
    obtain rfl : a = source.length := le_antisymm hle (List.drop_eq_nil_iff.1 hdrop)
    exact ⟨tokenization_end rfl rfl (Gap.refl _ _), List.forall_mem_singleton.2 ⟨by simp, by simp, fun _ => rfl⟩⟩
  | case2 a c rest hblank ih =>
    intro hdrop _ ts h
    have hc := getElem?_of_drop hdrop
    have hlt : a < source.length := (List.getElem?_eq_some_iff.1 hc).1
    obtain ⟨htiles, hvalued⟩ := ih (drop_behind hdrop 0) hlt ts h
    exact ⟨htiles.blank hc ((isBlank_iff c).1 hblank), hvalued⟩
  | case3 a c rest hblank kind tail hlex next ih =>
    intro hdrop _ ts h
    have hlength := stop_le_of_lexeme hdrop hlex
    have hmore := drop_behind hdrop tail.length
    cases hnext : next.1 with
    | error r => rw [hnext] at h; cases h
    | ok us =>
      obtain ⟨htiles, hvalued⟩ := ih hmore hlength us hnext
      rw [hnext] at h
      cases h
      have hstop : Token.stop ⟨kind, String.ofList (c :: tail), a⟩ = a + 1 + tail.length := by
        simp only [Token.stop, String.length_ofList, List.length_cons]
        omega
      exact ⟨.cons (isToken_of_lexeme hdrop hlex) (Gap.refl _ _) (hstop ▸ htiles),
        List.forall_mem_cons.2 ⟨valued_of_lexeme hlex a, hvalued⟩⟩
  | case4 => intro _ _ ts h; cases h
  | case5 => intro _ _ ts h; cases h

/-! ## No other tokens -/

/-- what the tokens of a source begin with: its end marker, or a token and the tokens behind it -/
theorem Tokenization.cases {source : List Char} {a : Nat} {ts : List Token} (h : Tokenization source a ts) :
    ∃ t us, ts = t :: us ∧ Gap source a t.position ∧
      ((us = [] ∧ t.kind = .endOfInput ∧ t.position = source.length) ∨
        (IsToken source t ∧ Tokenization source t.stop us)) := by
  obtain ⟨tokens, eof, rfl, htokens, hkind, hpos⟩ := h.ends
  cases tokens with
  | nil => exact ⟨eof, [], rfl, h.first eof rfl, .inl ⟨rfl, hkind, hpos⟩⟩
  | cons t tokens =>
    obtain ⟨ht, hmore⟩ := List.forall_mem_cons.1 htokens
    obtain ⟨hfirst, hnext⟩ := List.isChain_cons.1 h.next
    exact ⟨t, tokens ++ [eof], rfl, h.first t rfl,
      .inr ⟨ht, ⟨⟨tokens, eof, rfl, hmore, hkind, hpos⟩, hfirst, hnext⟩⟩⟩

/-- what lies ahead at a token is its text, and what lies ahead behind it -/
theorem IsToken.split {source : List Char} {t : Token} (h : IsToken source t) :
    source.drop t.position = t.text.toList ++ source.drop t.stop := by
  rw [← h.slice, Token.stop, ← List.drop_drop, List.take_append_drop]

/-- a token begins with a character that is no blank -/
theorem IsToken.head {source : List Char} {t : Token} (h : IsToken source t) :
    ∃ c rest, source.drop t.position = c :: rest ∧ ¬ Blank c := by
  obtain ⟨c, tail, htext, hc⟩ := h.written.notBlank
  exact ⟨c, _, by rw [h.split, htext, List.cons_append], hc⟩

/-- a token is determined by its offset: its text is what the lexer takes there -/
theorem IsToken.text_eq {source : List Char} {t : Token} (h : IsToken source t) {c : Char} {rest : List Char}
    (hdrop : source.drop t.position = c :: rest) : t.text.toList = c :: (lexeme c rest).tail := by
  obtain ⟨d, tail, htext, _⟩ := h.written.notBlank
  have hsplit := h.split
  rw [hdrop, htext, List.cons_append] at hsplit
  obtain ⟨rfl, rfl⟩ := List.cons.inj hsplit
  have hlongest : ∀ e ∈ (source.drop t.stop).head?, ¬ t.kind.RunsOn (c :: tail) e := by
    intro e he
    rw [List.head?_drop] at he
    exact htext ▸ h.longest e he
  rw [htext, lexeme_exact (htext ▸ h.written) hlongest]

/-- a gap ends here: at the end of the source, or in front of no blank -/
def Stops (source : List Char) (b : Nat) : Prop :=
  b ≤ source.length ∧ ∀ c, source[b]? = some c → ¬ Blank c

theorem IsToken.stops {source : List Char} {t : Token} (h : IsToken source t) : Stops source t.position := by
  obtain ⟨c, rest, hdrop, hc⟩ := h.head
  have hat := getElem?_of_drop hdrop
  refine ⟨(List.getElem?_eq_some_iff.1 hat).1.le, fun d hd => ?_⟩
  rw [hat] at hd
  cases hd
  exact hc

theorem stops_length (source : List Char) : Stops source source.length :=
  ⟨le_rfl, by simp⟩

/-- the gap from an offset ends in one place -/
theorem Gap.unique {source : List Char} {a b b' : Nat} (h : Gap source a b) (h' : Gap source a b') (hb : Stops source b)
    (hb' : Stops source b') : b = b' := by
  rcases Nat.lt_trichotomy b b' with hlt | heq | hlt
  · have hc := List.getElem?_eq_getElem (hlt.trans_le hb'.1)
    exact absurd (h'.2 b _ h.1 hlt hc) (hb.2 _ hc)
  · exact heq
  · have hc := List.getElem?_eq_getElem (hlt.trans_le hb.1)
    exact absurd (h.2 b' _ h'.1 hlt hc) (hb'.2 _ hc)

/-- **A source has its tokens in one way.** Two lists of tokens that tile a source have the same offsets, and the same
texts in front of the end marker. -/
theorem tokenization_unique {source : List Char} {a : Nat} {ts ts' : List Token} (h : Tokenization source a ts)
    (h' : Tokenization source a ts') :
    ts.map Token.position = ts'.map Token.position ∧ ts.dropLast.map Token.text = ts'.dropLast.map Token.text := by
  induction ts generalizing a ts' with
  | nil =>
    obtain ⟨_, _, hnil, _⟩ := h.cases
    cases hnil
  | cons t us ih =>
    obtain ⟨_, _, heq, hgap, hcase⟩ := h.cases
    cases heq
    obtain ⟨t', us', rfl, hgap', hcase'⟩ := h'.cases
    rcases hcase with ⟨rfl, _, hend⟩ | ⟨ht, htiles⟩ <;> rcases hcase' with ⟨rfl, _, hend'⟩ | ⟨ht', htiles'⟩
    · simp [hend, hend']
    · -- one list ends where the other has a token
      have hpos := hgap.unique hgap' (hend ▸ stops_length source) ht'.stops
      obtain ⟨c, rest, hdrop, _⟩ := ht'.head
      rw [← hpos, hend, List.drop_length] at hdrop
      cases hdrop
    · have hpos := hgap.unique hgap' ht.stops (hend' ▸ stops_length source)
      obtain ⟨c, rest, hdrop, _⟩ := ht.head
      rw [hpos, hend', List.drop_length] at hdrop
      cases hdrop
    · have hpos := hgap.unique hgap' ht.stops ht'.stops
      obtain ⟨c, rest, hdrop, _⟩ := ht.head
      have htext : t.text = t'.text := by
        refine String.toList_inj.1 ?_
        rw [ht.text_eq hdrop, ht'.text_eq (hpos ▸ hdrop)]
      have hstop : t.stop = t'.stop := by rw [Token.stop, Token.stop, hpos, htext]
      obtain ⟨hpositions, htexts⟩ := ih htiles (hstop ▸ htiles')
      have hne : ∀ {vs : List Token}, Tokenization source t.stop vs → vs ≠ [] := by
        rintro vs hvs rfl
        obtain ⟨_, _, hnil, _⟩ := hvs.cases
        cases hnil
      rw [List.dropLast_cons_of_ne_nil (hne htiles), List.dropLast_cons_of_ne_nil (hne (hstop ▸ htiles'))]
      exact ⟨by simp [hpos, hpositions], by simp [htext, htexts]⟩

theorem tokenization_of_tokenize {s : String} {ts : List Token} (h : tokenize s = .ok ts) :
    Tokenization s.toList 0 ts ∧ ∀ t ∈ ts, t.Valued :=
  scan_tiles s.toList 0 s.toList rfl (Nat.zero_le _) ts h

/-- **The lexer loses nothing and splits by longest match.** The tokens of a source tile it: slices of the source in
order, as long as they can be, with nothing but blanks around and between them, and an end marker at the end. They carry
the values of their texts. No other texts and offsets tile the source. -/
theorem tokenize_tiles (s : String) (ts : List Token) (h : tokenize s = .ok ts) :
    Tokenization s.toList 0 ts ∧ (∀ t ∈ ts, t.Valued) ∧
    ∀ ts', Tokenization s.toList 0 ts' →
      ts'.map Token.position = ts.map Token.position ∧ ts'.dropLast.map Token.text = ts.dropLast.map Token.text := by
  obtain ⟨htiles, hvalued⟩ := scan_tiles s.toList 0 s.toList rfl (Nat.zero_le _) ts h
  exact ⟨htiles, hvalued, fun ts' htiles' => tokenization_unique htiles' htiles⟩

/-- the tokens of ` 1..2*z_1` and a line feed: the first point belongs to the first number, the second one to the second
-/
def dottedTokens : List Token :=
  [⟨.number ⟨0x3FF0000000000000⟩, "1.", 1⟩, ⟨.number ⟨0x3FC999999999999A⟩, ".2", 3⟩, ⟨.star, "*", 5⟩,
    ⟨.ident "z_1", "z_1", 6⟩, ⟨.endOfInput, "", 10⟩]

theorem tokenize_tiles_dotted :
    tokenize " 1..2*z_1\n" = .ok dottedTokens ∧ Tokenization " 1..2*z_1\n".toList 0 dottedTokens ∧
    ∀ ts', Tokenization " 1..2*z_1\n".toList 0 ts' →
      ts'.map Token.position = [1, 3, 5, 6, 10] ∧ ts'.dropLast.map Token.text = ["1.", ".2", "*", "z_1"] := by
  have h : tokenize " 1..2*z_1\n" = .ok dottedTokens := by decide +kernel
  obtain ⟨htiles, _, hunique⟩ := tokenize_tiles _ _ h
  exact ⟨h, htiles, hunique⟩

end EscapeTime
