/-
What the parser uses of a stream of tokens: the kinds, up to the first end marker.

Behind its last token a stream goes on showing that token, so a reader might take it again, or run over an end marker in
the middle. `Confined c o` says of the outcome of reading at `c`, whatever stream it is, that this does not happen: a
value leaves the reader further on in the stream with no end marker passed, a fault is about a token of the stream, and
only a stream that ends in a sign, with no end marker ahead, has unending signs.

- `Confined.behind`, `Confined.andThen`: reading behind tokens that are already passed, and one thing after another.
- `expression_confines`: an expression is confined, by one lemma for each way of reading.
- `parse_eq_verdict`: a call comes to a verdict about kinds; the tokens only give it an offset.
- `parse_reads_kinds`: so streams of the same kinds have the same tree, or are rejected for the same cause at the same
  token, and texts that are read as the same kinds compile to the same code.
- `parse_ok_iff_marked`: a stream is accepted exactly when its tokens in front of the first end marker are, with one end
  marker behind them.
-/
import EscapeTime.Proofs.Grammar.Nesting
import EscapeTime.Proofs.Compiler.Shown

namespace EscapeTime

namespace Cursor

/-- the number of tokens of the stream -/
def size (c : Cursor) : Nat :=
  c.passed + c.rest.length

/-- nothing ends a run of signs: the stream ends in one, and no end marker lies ahead -/
def Unmarked (c : Cursor) : Prop :=
  c.last.isSign = true ∧ .endOfInput ∉ c.rest

theorem size_past {c : Cursor} {n : Nat} (hn : n ≤ c.rest.length) : (c.past n).size = c.size := by
  simp only [size, past, List.length_drop]
  omega

theorem index_lt_size {c : Cursor} (hc : 0 < c.size) : c.index < c.size := by
  unfold index size at *
  split_ifs with hnil
  · omega
  · have hpos : 0 < c.rest.length := List.length_pos_iff.2 (by simpa using hnil)
    omega

/-- past the kind in view, or at the end of the stream no further -/
theorem advance_cases (c : Cursor) :
    (c.rest = [] ∧ c.advance = c) ∨ (∃ rest, c.rest = c.peek :: rest ∧ c.advance = c.past 1) := by
  cases hrest : c.rest with
  | nil => exact .inl ⟨rfl, advance_nil hrest⟩
  | cons k rest => exact .inr ⟨rest, by rw [peek_cons hrest], advance_cons hrest⟩

theorem size_advance (c : Cursor) : c.advance.size = c.size := by
  rcases c.advance_cases with ⟨_, hstay⟩ | ⟨rest, hrest, hpast⟩
  · rw [hstay]
  · rw [hpast, size_past]
    rw [hrest, List.length_cons]
    omega

theorem depth_advance (c : Cursor) : c.advance.depth = c.depth := by
  unfold advance
  split <;> rfl

end Cursor

namespace Grammar

variable {α β : Type}

/-! ## Reading stays inside the stream -/

/-- a value is read up to a place further on with no end marker in between, a fault is about a token of the stream, and
its cause is not a run of signs without end unless the stream has no end marker -/
inductive Confined (c : Cursor) : Outcome α → Prop where
  | done {a : α} (n : Nat) (hn : n ≤ c.rest.length) (hpassed : .endOfInput ∉ c.rest.take n) :
      Confined c (.done a (c.past n))
  | fault {f : Fault} {c' : Cursor} (hindex : f.index < c.size) (hsigns : f.cause = .unendingSigns → c.Unmarked) :
      Confined c (.fault f c')

/-- in every stream that is not empty the reader is confined -/
def Confines (r : Reader α) : Prop :=
  ∀ c : Cursor, 0 < c.size → Confined c (r c)

/-- reading behind tokens that are already passed -/
theorem Confined.behind {c : Cursor} {o : Outcome α} {n : Nat} (hn : n ≤ c.rest.length)
    (hpassed : .endOfInput ∉ c.rest.take n) (h : Confined (c.past n) o) : Confined c o := by
  cases h with
  | done m hm hpassed' =>
    rw [Cursor.past_past]
    refine .done (n + m) ?_ ?_
    · simp only [Cursor.past, List.length_drop] at hm
      omega
    · rw [List.take_add, List.mem_append, not_or]
      exact ⟨hpassed, hpassed'⟩
  | fault hindex hsigns =>
    rw [Cursor.size_past hn] at hindex
    refine .fault hindex fun hcause => ?_
    obtain ⟨hlast, hahead⟩ := hsigns hcause
    refine ⟨hlast, ?_⟩
    rw [← List.take_append_drop n c.rest, List.mem_append, not_or]
    exact ⟨hpassed, hahead⟩

/-- reading behind the token in view, if that is no end marker -/
theorem Confined.advance {c : Cursor} {o : Outcome α} (hpeek : c.peek ≠ .endOfInput) (h : Confined c.advance o) :
    Confined c o := by
  rcases c.advance_cases with ⟨_, hstay⟩ | ⟨rest, hrest, hpast⟩
  · rw [hstay] at h
    exact h
  · rw [hpast] at h
    refine h.behind ?_ ?_
    · rw [hrest, List.length_cons]
      omega
    · rw [hrest, List.take_succ_cons, List.take_zero, List.mem_singleton]
      exact fun heq => hpeek heq.symm

/-- one thing after another -/
theorem Confined.andThen {c : Cursor} {o : Outcome α} (hc : 0 < c.size) (h : Confined c o) {next : α → Reader β}
    (hnext : ∀ a, Confines (next a)) : Confined c (o.bind next) := by
  cases h with
  | done n hn hpassed =>
    refine (hnext _ _ ?_).behind hn hpassed
    rw [Cursor.size_past hn]
    exact hc
  | fault hindex hsigns => exact .fault hindex hsigns

/-- one more sum is open while reading -/
theorem Confined.level {c : Cursor} {o : Outcome α} (h : Confined c.enter o) : Confined c o.leave := by
  cases h with
  | done n hn hpassed => exact .done n hn hpassed
  | fault hindex hsigns => exact .fault hindex hsigns

/-- a fault at the token in view -/
theorem confined_here {c c' : Cursor} (hc : 0 < c.size) {cause : Cause} (hcause : cause ≠ .unendingSigns) :
    Confined (α := α) c (.fault ⟨cause, c.index⟩ c') :=
  .fault (Cursor.index_lt_size hc) fun heq => absurd heq hcause

theorem confined_done (c : Cursor) (a : α) : Confined c (.done a c) :=
  .done 0 (Nat.zero_le _) (by simp)

/-- the token in view is taken, if it is no end marker -/
theorem confined_token {c : Cursor} (hpeek : c.peek ≠ .endOfInput) (a : α) : Confined c (.done a c.advance) :=
  (confined_done c.advance a).advance hpeek

theorem signs_confines : Confines signs := by
  intro c hc
  set run := c.rest.takeWhile Kind.isSign with hrun
  have hsplit : c.rest = run ++ c.rest.dropWhile Kind.isSign := List.takeWhile_append_dropWhile.symm
  have hsigns : ∀ k ∈ run, k.isSign = true := List.all_eq_true.1 List.all_takeWhile
  have hlength : run.length ≤ c.rest.length := (List.takeWhile_prefix _).length_le
  have hpassed : .endOfInput ∉ run := fun hmem => absurd (hsigns _ hmem) (by decide)
  have hafter : ({ c with passed := c.passed + run.length, rest := c.rest.dropWhile Kind.isSign } : Cursor) =
      c.past run.length := by
    rw [Cursor.past, ← Cursor.past_rest hsplit]
    rfl
  simp only [signs, ← hrun, hafter]
  split_ifs with hend
  · simp only [Bool.and_eq_true, List.isEmpty_iff] at hend
    refine .fault ?_ fun _ => ⟨hend.2, ?_⟩
    · have hindex := Cursor.index_lt_size (c := c.past run.length) (by rwa [Cursor.size_past hlength])
      rwa [Cursor.size_past hlength] at hindex
    · rw [hsplit, hend.1, List.append_nil]
      exact hpassed
  · refine .done run.length hlength ?_
    rw [hsplit, List.take_left]
    exact hpassed

theorem signed_confines {operand : Reader Expr} (ho : Confines operand) : Confines (signed operand) := by
  intro c hc
  refine (signs_confines c hc).andThen hc fun sign c hc => ?_
  exact (ho c hc).andThen hc fun e c _ => confined_done c (applySign sign e)

theorem closing_confines {kind : Kind} (hkind : kind ≠ .endOfInput) (e : Expr) : Confines (closing kind e) := by
  intro c hc
  unfold closing
  split_ifs with hsees
  · have hpeek : c.peek = kind := Cursor.peek_cons (Cursor.sees_inv hsees)
    exact confined_token (hpeek ▸ hkind) e
  · exact confined_here hc (by simp)

/-- what a group holds and its closing delimiter, behind the token in view -/
theorem group_confined {inner : Reader Expr} (hi : Confines inner) {kind : Kind} (hkind : kind ≠ .endOfInput)
    (f : Expr → Expr) {c : Cursor} (hc : 0 < c.size) (hpeek : c.peek ≠ .endOfInput) :
    Confined c ((inner c.advance).bind fun e c => closing kind (f e) c) := by
  have hnext : 0 < c.advance.size := by rwa [Cursor.size_advance]
  exact ((hi _ hnext).andThen hnext fun e => closing_confines hkind (f e)).advance hpeek

theorem identifier_confined {inner : Reader Expr} (hi : Confines inner) {c : Cursor} (hc : 0 < c.size) {name : String}
    (hpeek : c.peek = .ident name) : Confined c (identifier inner name c.index c.advance) := by
  have hmark : c.peek ≠ .endOfInput := by simp [hpeek]
  have hunknown : ∀ c' : Cursor, Confined c (.fault ⟨.unknownIdentifier name, c.index⟩ c' : Outcome Expr) :=
    fun c' => confined_here hc (by simp)
  unfold identifier
  split
  · exact confined_token hmark _
  · rename_i f _ _
    split_ifs with hsees
    · have hopen : c.advance.peek = .leftParen := Cursor.peek_cons (Cursor.sees_inv hsees)
      have hnext : 0 < c.advance.size := by rwa [Cursor.size_advance]
      exact (group_confined hi (by decide) (Expr.call f) hnext (by simp [hopen])).advance hmark
    · exact hunknown _
  · exact hunknown _

theorem primary_confines {inner : Reader Expr} (hi : Confines inner) : Confines (primary inner) := by
  intro c hc
  unfold primary
  cases hpeek : c.peek with
  | number x => exact confined_token (by simp [hpeek]) _
  | ident name => exact identifier_confined hi hc hpeek
  | leftParen => exact group_confined hi (by decide) id hc (by simp [hpeek])
  | pipe => exact group_confined hi (by decide) Expr.modulus hc (by simp [hpeek])
  | _ => exact confined_here hc (by simp)

/-- an operator with an operand behind it takes a token of the stream. At the end of a stream an operator may be in view
for ever, but then no operand is read behind it. -/
theorem operand_takes {q : Phrase} {n : Nat} {op? : Cursor → Option BinaryOp} {operand : Reader Expr} (hop : Shows op?)
    (hs : Sound q n operand) (ho : Confines operand) {c c' : Cursor} {op : BinaryOp} {r : Expr} (hc : 0 < c.size)
    (hfound : op? c = some op) (hr : operand c.advance = .done r c') : c'.rest.length < c.rest.length := by
  rcases c.advance_cases with ⟨hnil, hstay⟩ | ⟨rest, hrest, hpast⟩
  · have hready : c.Ready := by
      refine ⟨fun k hk => by simp [hnil] at hk, fun _ => ?_⟩
      rw [← Cursor.peek_nil hnil, hop c op hfound]
      cases op <;> rfl
    rw [hstay] at hr
    exact absurd hnil (hs.ne_nil hready hr)
  · have hread := ho c.advance (by rwa [Cursor.size_advance])
    rw [hr, hpast] at hread
    cases hread with
    | done m hm _ =>
      simp only [Cursor.past, List.length_drop, hrest, List.length_cons]
      omega

/-- a loop over operands -/
theorem chain_confined {q : Phrase} {n : Nat} {op? : Cursor → Option BinaryOp} {operand : Reader Expr} (hop : Shows op?)
    (hs : Sound q n operand) (ho : Confines operand) (l : Expr) (c : Cursor) (hc : 0 < c.size) :
    Confined c (chain op? operand l c) := by
  have hoperand : ∀ {c : Cursor} {op}, 0 < c.size → op? c = some op → Confined c (operand c.advance) := by
    intro c op hc hfound
    refine (ho c.advance (by rwa [Cursor.size_advance])).advance ?_
    rw [hop c op hfound]
    exact operatorKind_ne_end op
  fun_induction chain op? operand l c with
  | case1 l c hnone => exact confined_done c l
  | case2 l c op hfound f c' hfault =>
    have h := hoperand hc hfound
    rw [hfault] at h
    cases h with
    | fault hindex hsigns => exact .fault hindex hsigns
  | case3 l c op hfound r c' hr _ ih =>
    have h := hoperand hc hfound
    rw [hr] at h
    cases h with
    | done m hm hpassed => exact (ih (by rwa [Cursor.size_past hm])).behind hm hpassed
  | case4 l c op hfound r c' hr hlong => exact absurd (operand_takes hop hs ho hc hfound hr) hlong

theorem chained_confines {q : Phrase} {n : Nat} {op? : Cursor → Option BinaryOp} {first operand : Reader Expr}
    (hop : Shows op?) (hf : Confines first) (hs : Sound q n operand) (ho : Confines operand) :
    Confines (chained op? first operand) :=
  fun c hc => (hf c hc).andThen hc fun l c => chain_confined hop hs ho l c

theorem unary_confines {n : Nat} {inner : Reader Expr} (hs : Sound .sum n inner) (hi : Confines inner) :
    Confines (unary inner) := by
  have hprimary := primary_confines hi
  exact signed_confines (chained_confines shows_power hprimary (exponent_sound hs) (signed_confines hprimary))

theorem product_confines {n : Nat} {inner : Reader Expr} (hs : Sound .sum n inner) (hi : Confines inner) :
    Confines (product inner) :=
  chained_confines shows_product (unary_confines hs hi) (unary_sound hs) (unary_confines hs hi)

/-- **Reading an expression stays inside the stream**, whatever the stream ends in. -/
theorem expression_confines (levels : Nat) : Confines (expression levels) := by
  induction levels with
  | zero =>
    intro c hc
    exact confined_here hc (by simp)
  | succ levels ih =>
    intro c hc
    have hs := expression_sound levels
    have hsum : Confines (sum (expression levels)) :=
      chained_confines shows_sum (product_confines hs ih) (product_sound hs) (product_confines hs ih)
    exact (hsum c.enter hc).level

end Grammar

namespace Parser

open Grammar

/-! ## Only kinds are read -/

/-- what a call comes to: a tree, or a cause and the index of the token it is about -/
def verdict (p : Parser) : Except Fault Expr :=
  if p.excess?.isSome then .error ⟨.tooLong, maxTokens⟩
  else match expression (maxDepth - p.depth) p.cursor with
    | .fault f _ => .error f
    | .done e c => if c.atEnd then .ok e else .error ⟨.trailingToken c.peek, c.index⟩

/-- a call is its verdict, with the offset of the token in place of its index -/
theorem parse_eq_verdict (p : Parser) : p.parse.1 = p.verdict.mapError p.locate := by
  unfold parse verdict
  cases hexcess : p.excess? with
  | some t =>
    have ht : p.tokens[maxTokens]? = some t := (Option.filter_eq_some_iff.1 hexcess).1
    simp [Except.mapError, locate, ht]
  | none =>
    cases hread : expression (maxDepth - p.depth) p.cursor with
    | fault f c => rfl
    | done e c =>
      cases hend : c.atEnd with
      | true => simp [hend, Except.mapError]
      | false => simp [hend, Except.mapError]

theorem size_cursor (p : Parser) : p.cursor.size = p.tokens.length := by
  simp only [Cursor.size, cursor, List.length_map, List.length_drop]
  omega

/-- an error is about a token of the stream, and signs are unending only where nothing ends them -/
theorem verdict_error {p : Parser} (hne : p.tokens ≠ []) {f : Fault} (h : p.verdict = .error f) :
    f.index < p.tokens.length ∧ (f.cause = .unendingSigns → p.cursor.Unmarked) := by
  have hsize : 0 < p.cursor.size := by rw [size_cursor]; exact List.length_pos_iff.2 hne
  have hconfined := expression_confines (maxDepth - p.depth) p.cursor hsize
  rw [← size_cursor]
  unfold verdict at h
  split_ifs at h with hexcess
  · cases h
    obtain ⟨t, ht⟩ := Option.isSome_iff_exists.1 hexcess
    obtain ⟨hlt, _⟩ := List.getElem?_eq_some_iff.1 (Option.filter_eq_some_iff.1 ht).1
    exact ⟨by rwa [size_cursor], fun hno => by cases hno⟩
  · cases hread : expression (maxDepth - p.depth) p.cursor with
    | fault f' c =>
      rw [hread] at h hconfined
      cases h
      cases hconfined with
      | fault hindex hsigns => exact ⟨hindex, hsigns⟩
    | done e c =>
      rw [hread] at h hconfined
      simp only at h
      split_ifs at h with hend
      cases h
      cases hconfined with
      | done n hn _ =>
        have hindex := Cursor.index_lt_size (c := p.cursor.past n) (by rwa [Cursor.size_past hn])
        rw [Cursor.size_past hn] at hindex
        exact ⟨hindex, fun hno => by cases hno⟩

theorem isSome_excess? (p : Parser) :
    p.excess?.isSome = ((p.tokens.map Token.kind)[maxTokens]?).any (· != .endOfInput) := by
  unfold excess?
  rw [List.getElem?_map]
  cases p.tokens[maxTokens]? with
  | none => rfl
  | some t => cases hkind : t.kind <;> simp [Option.filter, hkind]

/-- parsers at the same place of streams of the same kinds come to the same verdict -/
theorem verdict_congr {p q : Parser} (hkinds : p.tokens.map Token.kind = q.tokens.map Token.kind)
    (hpassed : p.passed = q.passed) (hdepth : p.depth = q.depth) : p.verdict = q.verdict := by
  have hcursor : p.cursor = q.cursor := by
    have hlength := congrArg List.length hkinds
    simp only [List.length_map] at hlength
    simp only [cursor, hpassed, hdepth, hlength, List.map_drop, ← List.getLast?_map, hkinds]
  unfold verdict
  rw [isSome_excess?, isSome_excess?, hkinds, hcursor, hdepth]

/-- the stream ends in no sign, or has an end marker -/
def Ends (tokens : List Token) : Prop :=
  (∃ t ∈ tokens, t.kind = .endOfInput) ∨ ∀ t, tokens.getLast? = some t → t.kind ≠ .plus ∧ t.kind ≠ .minus

/-- a fresh parser on a stream that ends meets no unending signs -/
theorem not_unmarked_of_ends {tokens : List Token} (hends : Ends tokens) : ¬ (ofTokens tokens).cursor.Unmarked := by
  rintro ⟨hsign, hmark⟩
  cases tokens with
  | nil => cases hsign
  | cons t ts =>
    have htokens : (ofTokens (t :: ts)).tokens = t :: ts := rfl
    rcases hends with ⟨u, hu, heof⟩ | hlast
    · refine hmark ?_
      rw [← heof]
      exact List.mem_map_of_mem hu
    · have hu := List.getLast?_eq_some_getLast (List.cons_ne_nil t ts)
      obtain ⟨hplus, hminus⟩ := hlast _ hu
      simp only [cursor, htokens, hu, Option.map_some, Option.getD_some] at hsign
      cases hkind : ((t :: ts).getLast (List.cons_ne_nil t ts)).kind <;> simp_all [Kind.isSign]

theorem ofTokens_ne_nil (tokens : List Token) : (ofTokens tokens).tokens ≠ [] := by
  cases tokens <;> simp [ofTokens]

theorem locate_of_getElem? {p : Parser} {f : Fault} {t : Token} (h : p.tokens[f.index]? = some t) :
    p.locate f = ⟨f.cause, t.position⟩ := by
  rw [locate, h]
  rfl

/-- fresh parsers on streams of the same kinds: the same tree, or the same cause at tokens of the same index -/
theorem parse_fresh_cases {v w : List Token} (hkinds : v.map Token.kind = w.map Token.kind) (hends : Ends v) :
    (∃ e, (ofTokens v).parse.1 = .ok e ∧ (ofTokens w).parse.1 = .ok e) ∨
    ∃ (cause : Cause) (i : Nat) (t u : Token), cause ≠ .unendingSigns ∧
      (ofTokens v).tokens[i]? = some t ∧ (ofTokens w).tokens[i]? = some u ∧
      (ofTokens v).parse.1 = .error ⟨cause, t.position⟩ ∧ (ofTokens w).parse.1 = .error ⟨cause, u.position⟩ := by
  have hstreams : (ofTokens v).tokens.map Token.kind = (ofTokens w).tokens.map Token.kind := by
    cases v <;> cases w <;> simp_all [ofTokens]
  have hsame : (ofTokens v).verdict = (ofTokens w).verdict := verdict_congr hstreams rfl rfl
  rw [parse_eq_verdict, parse_eq_verdict, ← hsame]
  cases hverdict : (ofTokens v).verdict with
  | ok e => exact .inl ⟨e, rfl, rfl⟩
  | error f =>
    obtain ⟨hv, hsigns⟩ := verdict_error (ofTokens_ne_nil v) hverdict
    obtain ⟨hw, _⟩ := verdict_error (ofTokens_ne_nil w) (hsame ▸ hverdict)
    have ht := List.getElem?_eq_getElem hv
    have hu := List.getElem?_eq_getElem hw
    refine .inr ⟨f.cause, f.index, _, _, fun hcause => not_unmarked_of_ends hends (hsigns hcause), ht, hu, ?_, ?_⟩
    · exact congrArg Except.error (locate_of_getElem? ht)
    · exact congrArg Except.error (locate_of_getElem? hu)

/-- **The parser reads only kinds.** Let two streams have the same kinds, with any texts and offsets, and end in no sign
or have an end marker. Then fresh parsers give the same tree on both, or reject both for the same cause, which is not
that of a run without end, at tokens of the same index. If the streams are those of two texts, the texts compile to the
same code with the same helpers, and if one is rejected then so is the other, with a reason of the same kind and
wording. -/
theorem parse_reads_kinds (v w : List Token) (hkinds : v.map Token.kind = w.map Token.kind)
    (hends : (∃ t ∈ v, t.kind = .endOfInput) ∨ ∀ t, v.getLast? = some t → t.kind ≠ .plus ∧ t.kind ≠ .minus) :
    ((∃ e, (ofTokens v).parse.1 = .ok e ∧ (ofTokens w).parse.1 = .ok e) ∨
      ∃ (cause : Cause) (i : Nat) (t u : Token), cause ≠ .unendingSigns ∧
        (ofTokens v).tokens[i]? = some t ∧ (ofTokens w).tokens[i]? = some u ∧
        (ofTokens v).parse.1 = .error ⟨cause, t.position⟩ ∧ (ofTokens w).parse.1 = .error ⟨cause, u.position⟩) ∧
    ∀ (k : Compiler) (s₁ s₂ : String), tokenize s₁ = .ok v → tokenize s₂ = .ok w →
      (k.compile s₁).code = (k.compile s₂).code ∧ (k.compile s₁).helpers = (k.compile s₂).helpers ∧
      (k.compile s₁).fallback.map (fun r => (r.report.kind, r.report.message)) =
        (k.compile s₂).fallback.map (fun r => (r.report.kind, r.report.message)) := by
  have hcases := parse_fresh_cases hkinds hends
  refine ⟨hcases, fun k s₁ s₂ hs₁ hs₂ => ?_⟩
  have hparse : ∀ {s : String} {ts : List Token}, tokenize s = .ok ts → EscapeTime.parse s = (ofTokens ts).parse.1 := by
    intro s ts hs
    rw [EscapeTime.parse, hs]
    rfl
  have h₁ := hparse hs₁
  have h₂ := hparse hs₂
  simp only [Compiler.compile_eq, Compiler.shown, rejection?]
  rcases hcases with ⟨e, hv, hw⟩ | ⟨cause, _, t, u, _, _, _, hv, hw⟩
  · simp only [h₁, h₂, hv, hw, Option.map_none, and_self]
  · simp only [h₁, h₂, hv, hw, Option.map_some, true_and]
    rfl

/-- an opening parenthesis and a product sign, at two places -/
def strayProduct (a b : Nat) : List Token :=
  [⟨.leftParen, "(", a⟩, ⟨.star, "*", b⟩]

/-- the tokens of `1.5 * z` with a numeral of some spelling, at offsets -/
def scaled (numeral : String) (a b c d : Nat) : List Token :=
  [⟨.number ⟨0x3ff8000000000000⟩, numeral, a⟩, ⟨.star, "*", b⟩, ⟨.ident "z", "z", c⟩, ⟨.endOfInput, "", d⟩]

/-- a stream without end marker is rejected at the same token wherever its tokens stand, and a number may be spelled in
many ways -/
theorem parse_reads_kinds_spelled :
    (ofTokens (strayProduct 0 1)).parse.1 = .error ⟨.expectedExpression .star, 1⟩ ∧
    (∃ (i : Nat) (t u : Token), (strayProduct 0 1)[i]? = some t ∧ (strayProduct 7 40)[i]? = some u ∧ t.position = 1 ∧
      (ofTokens (strayProduct 7 40)).parse.1 = .error ⟨.expectedExpression .star, u.position⟩) ∧
    tokenize "1.5*z" = .ok (scaled "1.5" 0 3 4 5) ∧ tokenize " 01.50 *\tz" = .ok (scaled "01.50" 1 7 9 10) ∧
    (({} : Compiler).compile "1.5*z").code = (({} : Compiler).compile " 01.50 *\tz").code := by
  have hplain : tokenize "1.5*z" = .ok (scaled "1.5" 0 3 4 5) := by decide +kernel
  have hspaced : tokenize " 01.50 *\tz" = .ok (scaled "01.50" 1 7 9 10) := by decide +kernel
  obtain ⟨hstray, _⟩ := parse_reads_kinds (strayProduct 0 1) (strayProduct 7 40) rfl (.inr (by decide))
  obtain ⟨_, hcode⟩ := parse_reads_kinds (scaled "1.5" 0 3 4 5) (scaled "01.50" 1 7 9 10) rfl (.inl (by decide))
  have hrejected : (ofTokens (strayProduct 0 1)).parse.1 = .error ⟨.expectedExpression .star, 1⟩ := by decide +kernel
  refine ⟨hrejected, ?_, hplain, hspaced, (hcode {} _ _ hplain hspaced).1⟩
  rw [hrejected] at hstray
  rcases hstray with ⟨e, hno, _⟩ | ⟨cause, i, t, u, _, ht, hu, hleft, hright⟩
  · cases hno
  · obtain ⟨rfl, hposition⟩ : Cause.expectedExpression .star = cause ∧ 1 = t.position := by simpa using hleft
    exact ⟨i, t, u, ht, hu, hposition.symm, hright⟩

/-! ## Only what stands in front of the first end marker is read -/

/-- the tokens in front of the first end marker -/
def unended (tokens : List Token) : List Token :=
  tokens.takeWhile (·.kind != .endOfInput)

theorem unended_no_end (tokens : List Token) : ∀ t ∈ unended tokens, t.kind ≠ .endOfInput := by
  intro t ht
  simpa using List.all_eq_true.1 List.all_takeWhile t ht

/-- behind them stands an end marker, or the stream ends -/
theorem exists_ending (tokens : List Token) :
    ∃ tail, tokens.map Token.kind = (unended tokens).map Token.kind ++ tail ∧ Ending tail := by
  refine ⟨(tokens.dropWhile (·.kind != .endOfInput)).map Token.kind, ?_, ?_⟩
  · rw [← List.map_append, unended, List.takeWhile_append_dropWhile]
  · cases hdrop : tokens.dropWhile (·.kind != .endOfInput) with
    | nil => exact .inl rfl
    | cons t rest =>
      have hhead := List.head?_dropWhile_not (·.kind != .endOfInput) tokens
      rw [hdrop] at hhead
      exact .inr ⟨rest.map Token.kind, by simpa using hhead⟩

theorem ready_fresh {tokens : List Token} (hne : tokens ≠ []) : (ofTokens tokens).cursor.Ready := by
  have hkinds : tokens.map Token.kind ≠ [] := by simpa using hne
  rw [cursor_fresh rfl hkinds]
  refine ⟨fun k hk => ?_, fun hnil => absurd hnil hkinds⟩
  rw [List.getLast?_eq_some_getLast hkinds] at hk
  exact (Option.some.inj hk).symm

/-- a stream that is not too long is accepted exactly when what stands in front of its first end marker is a sum within
the levels, whatever stands behind it and whether or not there is one -/
theorem parse_fresh_ok_iff_excess {tokens : List Token} (hne : tokens ≠ []) (e : Expr) :
    (ofTokens tokens).parse.1 = .ok e ↔
      (ofTokens tokens).excess? = none ∧ ∃ ds, Derives .sum ((unended tokens).map Token.kind) ds e ∧
        ∀ d ∈ ds, d < maxDepth := by
  obtain ⟨tail, hkinds, htail⟩ := exists_ending tokens
  have hmap : tokens.map Token.kind ≠ [] := by simpa using hne
  have hrest : (ofTokens tokens).cursor.rest = (unended tokens).map Token.kind ++ tail := by
    rw [cursor_fresh rfl hmap]
    exact hkinds
  rw [parse_ok_iff, accepts_iff (ready_fresh hne) hrest (by simpa using unended_no_end tokens) htail]
  rfl

/-- so is a stream within the limit -/
theorem parse_fresh_ok_iff_unended {tokens : List Token} (hne : tokens ≠ []) (hlength : tokens.length ≤ maxTokens)
    (e : Expr) :
    (ofTokens tokens).parse.1 = .ok e ↔
      ∃ ds, Derives .sum ((unended tokens).map Token.kind) ds e ∧ ∀ d ∈ ds, d < maxDepth := by
  have hmap : tokens.map Token.kind ≠ [] := by simpa using hne
  have hexcess : (ofTokens tokens).excess? = none :=
    excess?_eq_none (List.append_nil _).symm (.inl rfl) hmap (by simpa using hlength)
  rw [parse_fresh_ok_iff_excess hne]
  exact and_iff_right hexcess

/-- **Acceptance depends only on the tokens in front of the first end marker, and the end marker may be missing.** A
stream of at most 512 tokens is accepted with a tree exactly when the tokens in front of its first end marker, all of
them if there is none, are accepted with that tree when one end marker is put behind them. -/
theorem parse_ok_iff_marked (v : List Token) (hv : v.length ≤ 512) (eof : Token) (heof : eof.kind = .endOfInput)
    (e : Expr) :
    (ofTokens v).parse.1 = .ok e ↔
      (ofTokens (v.takeWhile (·.kind != .endOfInput) ++ [eof])).parse.1 = .ok e := by
  have hlength : (unended v).length ≤ 512 := (List.takeWhile_prefix _).length_le.trans hv
  have hlevel : ∀ d : Nat, d < maxDepth ↔ d ≤ 127 := fun d => Nat.lt_succ_iff
  have hmarked := parse_fresh_ok_iff (unended_no_end v) heof e
  rw [and_iff_right hlength] at hmarked
  refine Iff.trans ?_ hmarked.symm
  by_cases hne : v = []
  · -- a fresh parser without tokens is one on an end marker
    subst hne
    have hempty : (ofTokens ([] ++ [⟨.endOfInput, "", 0⟩])).parse.1 = .ok e ↔ _ := parse_fresh_ok_iff (by simp) rfl e
    rwa [and_iff_right (by simp)] at hempty
  · simp only [parse_fresh_ok_iff_unended hne hv e, hlevel]

/-- `|z|^n` behind which everything is ignored, be it no sentence and end in a sign -/
def interrupted : List Token :=
  [⟨.pipe, "|", 0⟩, ⟨.ident "z", "z", 1⟩, ⟨.pipe, "|", 2⟩, ⟨.caret, "^", 3⟩, ⟨.ident "n", "n", 4⟩, ⟨.endOfInput, "", 5⟩,
    ⟨.rightParen, ")", 5⟩, ⟨.endOfInput, "", 6⟩, ⟨.minus, "-", 6⟩]

theorem parse_interrupted :
    (ofTokens interrupted).parse.1 = .ok (.binary .pow (.modulus (.var .z)) (.var .n)) ∧
    (ofTokens (interrupted.take 5)).parse.1 = .ok (.binary .pow (.modulus (.var .z)) (.var .n)) := by
  have hmarked : (ofTokens (interrupted.take 6)).parse.1 = .ok (.binary .pow (.modulus (.var .z)) (.var .n)) := by
    decide +kernel
  have hmark : (⟨.endOfInput, "", 5⟩ : Token).kind = .endOfInput := rfl
  exact ⟨(parse_ok_iff_marked interrupted (by decide) _ hmark _).2 hmarked,
    (parse_ok_iff_marked (interrupted.take 5) (by decide) _ hmark _).2 hmarked⟩

end Parser

end EscapeTime
