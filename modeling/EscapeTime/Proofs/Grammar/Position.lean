/-
Reported offsets, in the tokens and in the text.

A fault carries a cause and the index of a token. `Cause.About` says which kinds of token a cause may be about: the one
that its message names, where it names one. `Tracked c o` says of the outcome of reading at `c` that a value leaves the
reader further on in the stream, and that a fault is about the token at its index.

- `Tracked.behind`, `Tracked.andThen`: reading behind tokens that are already passed, and one thing after another.
- `expression_tracks`: an expression is tracked, by one lemma for each way of reading.
- `offending_of_parse`: a rejection by the parser stands at the offset of a token that its cause is about.
- `parse_error_position`: so a rejection of an equation lies in the text, at the beginning of a token or at the end of
  the text, and an unknown identifier is the word that stands at its offset.
-/
import EscapeTime.Proofs.Grammar.Blame
import EscapeTime.Proofs.Token.Failure

namespace EscapeTime

/-- the cause may be about a token of this kind; where its message names a token, it is of the kind named -/
def Cause.About : Cause → Kind → Prop
  | .tooDeep, _ => True
  | .tooLong, k => k ≠ .endOfInput
  | .unexpectedEnd, k => k = .endOfInput
  | .expectedExpression found, k => k = found ∧ k ≠ .endOfInput
  | .expectedToken _ found, k => k = found
  | .trailingToken found, k => k = found ∧ k ≠ .endOfInput
  | .unknownIdentifier name, k => k = .ident name ∧ Variable.ofName? name = none
  | _, _ => False

namespace Grammar

variable {α β : Type}

/-- a value leaves an end marker ahead, and a fault is about the token ahead that has its index -/
inductive Tracked (c : Cursor) : Outcome α → Prop where
  | done {a : α} (n : Nat) (hmarked : (c.past n).Marked) : Tracked c (.done a (c.past n))
  | fault {f : Fault} {c' : Cursor} (i : Nat) {k : Kind} (hk : c.rest[i]? = some k) (hindex : f.index = c.passed + i)
      (habout : f.cause.About k) : Tracked c (.fault f c')

/-- at every place with an end marker ahead the reader is tracked -/
def Tracks (r : Reader α) : Prop :=
  ∀ c : Cursor, c.Marked → Tracked c (r c)

/-- reading behind tokens that are already passed -/
theorem Tracked.behind {c : Cursor} {o : Outcome α} (n : Nat) (h : Tracked (c.past n) o) : Tracked c o := by
  cases h with
  | done m hmarked =>
    rw [Cursor.past_past] at hmarked ⊢
    exact .done (n + m) hmarked
  | fault i hk hindex habout =>
    refine .fault (n + i) ?_ (by rw [hindex]; exact Nat.add_assoc _ _ _) habout
    rw [← List.getElem?_drop]
    exact hk

/-- one thing after another -/
theorem Tracked.andThen {c : Cursor} {o : Outcome α} (h : Tracked c o) {next : α → Reader β}
    (hnext : ∀ a, Tracks (next a)) :
    Tracked c (o.bind next) := by
  cases h with
  | done n hmarked => exact (hnext _ _ hmarked).behind n
  | fault i hk hindex habout => exact .fault i hk hindex habout

/-- one more sum is open while reading -/
theorem Tracked.level {c : Cursor} {o : Outcome α} (h : Tracked c.enter o) : Tracked c o.leave := by
  cases h with
  | done n hmarked => exact .done n hmarked
  | fault i hk hindex habout => exact .fault i hk hindex habout

/-- a fault at the token in view -/
theorem tracked_here {c c' : Cursor} {k : Kind} {rest : List Kind} (hc : c.rest = k :: rest) {cause : Cause}
    (habout : cause.About k) : Tracked (α := α) c (.fault ⟨cause, c.index⟩ c') :=
  .fault 0 (by rw [hc]; rfl) (Cursor.index_cons hc) habout

theorem tracks_done (g : α → β) (a : α) : Tracks fun c => .done (g a) c :=
  fun _ hc => .done 0 hc

theorem signed_tracks {operand : Reader Expr} (ho : Tracks operand) : Tracks (signed operand) := by
  intro c hc
  obtain ⟨run, k, rest, _, _, hrest, hsigns⟩ := signs_marked hc
  rw [signed, hsigns, Outcome.bind_done]
  exact ((ho _ (hc.past hrest)).andThen fun e => tracks_done (applySign (signOf run)) e).behind run.length

theorem closing_tracks {kind : Kind} (hkind : kind ≠ .endOfInput) (e : Expr) : Tracks (closing kind e) := by
  intro c hc
  obtain ⟨k, rest, hrest⟩ := hc.exists_cons
  by_cases hk : k = kind
  · subst hk
    rw [closing_reads hrest hkind]
    exact .done 1 (hc.past_one hrest hkind)
  · rw [closing, if_neg (by simp [Cursor.sees, Cursor.peek_cons hrest, hk])]
    exact tracked_here hrest (Cursor.peek_cons hrest).symm

/-- what a group holds and its closing delimiter, behind a token -/
theorem group_tracks {inner : Reader Expr} (hi : Tracks inner) {kind : Kind} (hkind : kind ≠ .endOfInput)
    (f : Expr → Expr) {c : Cursor} (hc : c.Marked) {k : Kind} {rest : List Kind} (hrest : c.rest = k :: rest)
    (hk : k ≠ .endOfInput) :
    Tracked c ((inner c.advance).bind fun e c => closing kind (f e) c) := by
  rw [Cursor.advance_cons hrest]
  exact ((hi _ (hc.past_one hrest hk)).andThen fun e => closing_tracks hkind (f e)).behind 1

theorem identifier_tracks {inner : Reader Expr} (hi : Tracks inner) {c : Cursor} (hc : c.Marked) {name : String}
    {rest : List Kind} (hrest : c.rest = .ident name :: rest) :
    Tracked c (identifier inner name c.index c.advance) := by
  have hmarked : (c.past 1).Marked := hc.past_one hrest (by simp)
  rw [identifier, Cursor.advance_cons hrest]
  cases hv : Variable.ofName? name with
  | some v => exact .done 1 hmarked
  | none =>
    cases hf : Func.ofName? name with
    | none => exact tracked_here hrest ⟨rfl, hv⟩
    | some f =>
      dsimp only
      split_ifs with hsees
      · exact (group_tracks hi (by decide) (Expr.call f) hmarked (Cursor.sees_inv hsees) (by decide)).behind 1
      · exact tracked_here hrest ⟨rfl, hv⟩

theorem primary_tracks {inner : Reader Expr} (hi : Tracks inner) : Tracks (primary inner) := by
  intro c hc
  obtain ⟨k, rest, hrest⟩ := hc.exists_cons
  rw [primary, Cursor.peek_cons hrest]
  cases k with
  | number x =>
    dsimp only
    rw [Cursor.advance_cons hrest]
    exact .done 1 (hc.past_one hrest (by simp))
  | ident name => exact identifier_tracks hi hc hrest
  | leftParen => exact group_tracks hi (by decide) id hc hrest (by decide)
  | pipe => exact group_tracks hi (by decide) Expr.modulus hc hrest (by decide)
  | endOfInput => exact tracked_here hrest rfl
  | _ => exact tracked_here hrest ⟨rfl, by decide⟩

/-- a loop over operands -/
theorem chain_tracked {op? : Cursor → Option BinaryOp} {ops : List BinaryOp} (hops : Finds op? ops)
    {operand : Reader Expr} (ho : Tracks operand) (l : Expr) (c : Cursor) (hc : c.Marked)
    : Tracked c (chain op? operand l c) := by
  have hnext : ∀ {c : Cursor} {op}, c.Marked → op? c = some op → Tracked (c.past 1) (operand c.advance) := by
    intro c op hc hop
    obtain ⟨k, rest, hrest⟩ := hc.exists_cons
    obtain ⟨_, rfl⟩ := (hops c k rest hrest op).1 hop
    rw [Cursor.advance_cons hrest]
    exact ho _ (hc.past_one hrest (operatorKind_ne_end op))
  fun_induction chain op? operand l c with
  | case1 l c hnone => exact .done 0 hc
  | case2 l c op hop f c' hfault =>
    have h := hnext hc hop
    rw [hfault] at h
    exact h.behind 1
  | case3 l c op hop r c' hr _ ih =>
    have h := hnext hc hop
    rw [hr] at h
    cases h with
    | done n hmarked => exact ((ih hmarked).behind n).behind 1
  | case4 l c op hop r c' hr hlong =>
    -- an operand behind an operator leaves less
    have h := hnext hc hop
    rw [hr] at h
    obtain ⟨k, rest, hrest⟩ := hc.exists_cons
    cases h with
    | done n hmarked =>
      refine absurd ?_ hlong
      simp only [Cursor.past, List.length_drop, hrest, List.length_cons]
      omega

theorem chained_tracks {op? : Cursor → Option BinaryOp} {ops : List BinaryOp} (hops : Finds op? ops)
    {first operand : Reader Expr} (hf : Tracks first) (ho : Tracks operand) : Tracks (chained op? first operand) :=
  fun c hc => (hf c hc).andThen fun l => chain_tracked hops ho l

theorem sum_tracks {inner : Reader Expr} (hi : Tracks inner) : Tracks (sum inner) := by
  have hpower : Tracks (power inner) :=
    chained_tracks finds_power (primary_tracks hi) (signed_tracks (primary_tracks hi))
  have hproduct : Tracks (product inner) := chained_tracks finds_product (signed_tracks hpower) (signed_tracks hpower)
  exact chained_tracks finds_sum hproduct hproduct

theorem expression_tracks (levels : Nat) : Tracks (expression levels) := by
  induction levels with
  | zero =>
    intro c hc
    obtain ⟨k, rest, hrest⟩ := hc.exists_cons
    exact tracked_here hrest trivial
  | succ levels ih =>
    intro c hc
    exact (sum_tracks ih c.enter hc).level

end Grammar

namespace Parser

open Grammar

/-- a rejection by the parser stands at the offset of a token that its cause is about -/
theorem offending_of_parse {ts : List Token} {eof : Token} (heof : eof.kind = .endOfInput) {r : Rejection}
    (h : (ofTokens (ts ++ [eof])).parse.1 = .error r) :
    ∃ t ∈ ts ++ [eof], t.position = r.position ∧ r.cause.About t.kind := by
  set p := ofTokens (ts ++ [eof]) with hp
  have htokens : p.tokens = ts ++ [eof] := by simp [hp, ofTokens]
  have hpassed : p.cursor.passed = 0 := by rw [hp, cursor_ofTokens]
  have hrest : p.cursor.rest = (ts ++ [eof]).map Token.kind := by simp [hp, cursor_ofTokens]
  have hmarked : p.cursor.Marked := ⟨ts.map Token.kind, by rw [hp, cursor_ofTokens, heof]⟩
  -- a fault that is about the kind at its index is about the token there
  have hlocated : ∀ f c', Tracked (α := Expr) p.cursor (.fault f c') →
      ∃ t ∈ ts ++ [eof], t.position = (p.locate f).position ∧ f.cause.About t.kind := by
    intro f c' hf
    cases hf with
    | fault i hk hindex habout =>
      rw [hrest, List.getElem?_map, Option.map_eq_some_iff] at hk
      obtain ⟨t, ht, rfl⟩ := hk
      rw [hpassed, Nat.zero_add] at hindex
      exact ⟨t, List.mem_of_getElem? ht, by rw [locate, htokens, hindex, ht]; rfl, habout⟩
  have htracked := expression_tracks (maxDepth - p.depth) p.cursor hmarked
  rcases parse_error_cases h with ⟨t, hexcess, rfl⟩ | ⟨f, c, hread, rfl⟩ | ⟨e, c, hread, hend, rfl⟩
  · obtain ⟨ht, hkind⟩ := Option.filter_eq_some_iff.1 hexcess
    rw [htokens] at ht
    exact ⟨t, List.mem_of_getElem? ht, rfl, by simpa [Cause.About] using hkind⟩
  · exact hlocated f c (hread ▸ htracked)
  · rw [hread] at htracked
    cases htracked with
    | done n hmarked' =>
      obtain ⟨k, rest, hk⟩ := hmarked'.exists_cons
      have hne : k ≠ .endOfInput := by
        rintro rfl
        rw [atEnd_of_ending (.inr ⟨rest, hk⟩)] at hend
        cases hend
      have habout : (Cause.trailingToken (p.cursor.past n).peek).About k := ⟨(Cursor.peek_cons hk).symm, hne⟩
      exact hlocated _ p.cursor ((tracked_here hk habout).behind n)

end Parser

/-! ## Offsets in the text -/

/-- two tokens of a text do not overlap -/
theorem Tokenization.apart {source : List Char} {a : Nat} {ts : List Token} (h : Tokenization source a ts) {t u : Token}
    (ht : t ∈ ts) (hu : u ∈ ts) : ¬ (u.position < t.position ∧ t.position < u.stop) := by
  let R : Token → Token → Prop := fun t u => t.stop ≤ u.position
  have hle : ∀ t : Token, t.position ≤ t.stop := fun t => Nat.le_add_right _ _
  have : Trans R R R := ⟨fun {t u v} htu huv => (htu.trans (hle u)).trans huv⟩
  have hchain : ts.IsChain R := h.next.imp fun _ _ hgap => hgap.1
  have hordered := List.pairwise_iff_getElem.1 hchain.pairwise
  obtain ⟨i, hi, rfl⟩ := List.getElem_of_mem ht
  obtain ⟨j, hj, rfl⟩ := List.getElem_of_mem hu
  rintro ⟨hbefore, hinside⟩
  rcases lt_trichotomy i j with hlt | rfl | hgt
  · have hstop : ts[i].stop ≤ ts[j].position := hordered i j hi hj hlt
    have := hle ts[i]
    omega
  · omega
  · have hstop : ts[j].stop ≤ ts[i].position := hordered j i hj hi hgt
    omega

/-- the token of a text that a rejection is about: it stands at the offset of the rejection, and its kind is one that
the cause may be about -/
structure Offending (s : String) (r : Rejection) (t : Token) : Prop where
  mem : ∃ ts, tokenize s = .ok ts ∧ t ∈ ts
  position : t.position = r.position
  about : r.cause.About t.kind

/-- the text has no tokens, or the rejection is about one of them -/
theorem rejection_cases {s : String} {r : Rejection} (h : parse s = .error r) :
    (r.cause.kind = .lexical ∧ r.position < s.length) ∨ ∃ t, Offending s r t := by
  cases htokens : tokenize s with
  | error r' =>
    rw [parse, htokens] at h
    cases h
    obtain ⟨before, c, after, hsource, hposition, _, _, hrefused⟩ := scan_fails 0 s.toList r htokens
    refine .inl ⟨?_, ?_⟩
    · generalize r.cause = cause at hrefused
      cases hrefused <;> rfl
    · rw [hposition, ← String.length_toList, hsource, List.length_append, List.length_cons]
      omega
  | ok ts =>
    rw [parse, htokens] at h
    obtain ⟨tokens, eof, rfl, _, heof, _⟩ := (tokenization_of_tokenize htokens).1.ends
    obtain ⟨t, hmem, hposition, habout⟩ := Parser.offending_of_parse heof h
    exact .inr ⟨t, ⟨_, htokens, hmem⟩, hposition, habout⟩

/-- the offending token is the end of the text, or a token of the text in front of its end -/
theorem Offending.cases {s : String} {r : Rejection} {t : Token} (h : Offending s r t) :
    (t.kind = .endOfInput ∧ r.position = s.length) ∨ (IsToken s.toList t ∧ r.position < s.length) := by
  obtain ⟨ts, htokens, hmem⟩ := h.mem
  obtain ⟨tokens, eof, rfl, htiles, heof, hend⟩ := (tokenization_of_tokenize htokens).1.ends
  rw [← h.position, ← String.length_toList]
  rcases List.mem_append.1 hmem with hmem | hmem
  · obtain ⟨c, rest, hdrop, _⟩ := (htiles t hmem).head
    exact .inr ⟨htiles t hmem, (List.getElem?_eq_some_iff.1 (getElem?_of_drop hdrop)).1⟩
  · rw [List.mem_singleton.1 hmem]
    exact .inl ⟨heof, hend⟩

/-- only syntactic causes are about the end of the text -/
theorem Cause.About.syntactic {cause : Cause} (h : cause.About .endOfInput) : cause.kind = .syntactic := by
  cases cause <;> simp_all [Cause.About, Cause.kind]

/-- at the offset of a rejection that is about a token stands the first character of that token -/
theorem Offending.first {s : String} {r : Rejection} {t : Token} (h : Offending s r t) (ht : IsToken s.toList t) :
    (∃ c, s.toList[r.position]? = some c ∧ ¬ Blank c) ∧
    ∀ ts, tokenize s = .ok ts → ∀ u ∈ ts, ¬ (u.position < r.position ∧ r.position < u.stop) := by
  rw [← h.position]
  constructor
  · obtain ⟨c, rest, hdrop, hc⟩ := ht.head
    exact ⟨c, getElem?_of_drop hdrop, hc⟩
  · intro ts htokens u hu
    obtain ⟨ts', htokens', hmem⟩ := h.mem
    obtain rfl : ts' = ts := Except.ok.inj (htokens'.symm.trans htokens)
    exact (tokenization_of_tokenize htokens).1.apart hmem hu

theorem Cause.eq_unknownIdentifier {cause : Cause} (h : cause.kind = .unknownIdentifier) :
    ∃ name, cause = .unknownIdentifier name := by
  cases cause with
  | unknownIdentifier name => exact ⟨name, rfl⟩
  | _ => cases h

/-- a rejection for an unknown identifier is about the word that its message names -/
theorem Offending.unknown {s : String} {r : Rejection} {t : Token} (h : Offending s r t)
    (hkind : r.cause.kind = .unknownIdentifier) {x : String} (hmessage : r.cause.message =
      "unknown identifier '" ++ x ++ "'") :
    t.kind = .ident x ∧ t.text = x ∧ Variable.ofName? x = none := by
  obtain ⟨ts, htokens, hmem⟩ := h.mem
  have hvalued := (tokenization_of_tokenize htokens).2 t hmem
  have habout := h.about
  obtain ⟨name, hcause⟩ := Cause.eq_unknownIdentifier hkind
  rw [hcause] at hmessage habout
  obtain ⟨hident, hvariable⟩ := habout
  have hname : "unknown identifier '" ++ name ++ "'" = "unknown identifier '" ++ x ++ "'" := hmessage
  obtain rfl : name = x := by simpa using hname
  exact ⟨hident, (hvalued.name name hident).symm, hvariable⟩

/-- an identifier token: its word, and what cannot follow it -/
theorem IsToken.word {source : List Char} {t : Token} (h : IsToken source t) {x : String} (hkind : t.kind = .ident x)
    (htext : t.text = x) :
    (source.drop t.position).take x.length = x.toList ∧
    ∀ c, source[t.position + x.length]? = some c → c.isAlphanum = false ∧ c ≠ '_' := by
  refine ⟨htext ▸ h.slice, fun c hc => ?_⟩
  have hlongest := h.longest c (by rw [Token.stop, htext]; exact hc)
  rw [hkind, Kind.RunsOn, not_or] at hlongest
  exact ⟨by simpa using hlongest.1, hlongest.2⟩

/-- **Every reported offset makes sense in the text.** It is not behind the end of the text, and at the end only if the
rejection is syntactic and about the end marker. Otherwise a syntactic rejection stands at the first character of a
token, which is neither a blank nor inside another token. The message of a rejection for an unknown identifier names a
word, and the rejection stands where this word stands in the text; the word does not go on, and is no variable. -/
theorem parse_error_position (s : String) (r : Rejection) (h : parse s = .error r) :
    r.position ≤ s.length ∧
    (r.position = s.length → r.report.kind = .syntactic ∧ ∃ t, Offending s r t ∧ t.kind = .endOfInput) ∧
    (r.report.kind = .syntactic → ∃ t, Offending s r t ∧
      ((t.kind = .endOfInput ∧ r.position = s.length) ∨
        (IsToken s.toList t ∧ (∃ c, s.toList[r.position]? = some c ∧ ¬ Blank c) ∧
          ∀ ts, tokenize s = .ok ts → ∀ u ∈ ts, ¬ (u.position < r.position ∧ r.position < u.stop)))) ∧
    (r.report.kind = .unknownIdentifier → ∃ x, r.report.message = "unknown identifier '" ++ x ++ "'") ∧
    ∀ x, r.report.kind = .unknownIdentifier → r.report.message = "unknown identifier '" ++ x ++ "'" →
      (s.toList.drop r.position).take x.length = x.toList ∧
      (∀ c, s.toList[r.position + x.length]? = some c → c.isAlphanum = false ∧ c ≠ '_') ∧
      x ≠ "z" ∧ x ≠ "c" ∧ x ≠ "n" := by
  have hnames : r.report.kind = .unknownIdentifier → ∃ x, r.report.message = "unknown identifier '" ++ x ++ "'" := by
    intro hkind
    obtain ⟨name, hcause⟩ := Cause.eq_unknownIdentifier hkind
    exact ⟨name, congrArg Cause.message hcause⟩
  rcases rejection_cases h with ⟨hlexical, hlt⟩ | ⟨t, ht⟩
  · have hkind : r.report.kind = .lexical := hlexical
    refine ⟨hlt.le, fun hend => absurd hend hlt.ne, ?_, hnames, ?_⟩
    · rw [hkind]
      exact fun hno => (by cases hno)
    · rw [hkind]
      exact fun x hno => (by cases hno)
  · rcases ht.cases with ⟨hend, hposition⟩ | ⟨htoken, hlt⟩
    · have hkind : r.report.kind = .syntactic := Cause.About.syntactic (hend ▸ ht.about)
      refine ⟨hposition.le, fun _ => ⟨hkind, t, ht, hend⟩, fun _ => ⟨t, ht, .inl ⟨hend, hposition⟩⟩, hnames, ?_⟩
      rw [hkind]
      exact fun x hno => (by cases hno)
    · refine ⟨hlt.le, fun hend => absurd hend hlt.ne, fun _ => ⟨t, ht, .inr ⟨htoken, ht.first htoken⟩⟩, hnames, ?_⟩
      intro x hkind hmessage
      obtain ⟨hident, htext, hvariable⟩ := ht.unknown hkind hmessage
      obtain ⟨hslice, hstop⟩ := htoken.word hident htext
      rw [ht.position] at hslice hstop
      have hnot : ∀ v : Variable, x ≠ v.name := by
        rintro v rfl
        rw [Grammar.ofName?_variable] at hvariable
        cases hvariable
      exact ⟨hslice, hstop, hnot .z, hnot .c, hnot .n⟩

/-- a word that begins like a function, behind a tab, and a call that is not closed, with a blank at its end -/
theorem parse_error_position_word :
    parse "2 *\tsinz_1+c" = .error ⟨.unknownIdentifier "sinz_1", 4⟩ ∧
    (⟨.unknownIdentifier "sinz_1", 4⟩ : Rejection).report.message = "unknown identifier 'sinz_1'" ∧
    ("2 *\tsinz_1+c".toList.drop 4).take "sinz_1".length = "sinz_1".toList ∧
    parse "sin(z " = .error ⟨.expectedToken .rightParen .endOfInput, 6⟩ ∧
    ∃ t, Offending "sin(z " ⟨.expectedToken .rightParen .endOfInput, 6⟩ t ∧ t.kind = .endOfInput := by
  have hword : parse "2 *\tsinz_1+c" = .error ⟨.unknownIdentifier "sinz_1", 4⟩ := by decide +kernel
  have hend : parse "sin(z " = .error ⟨.expectedToken .rightParen .endOfInput, 6⟩ := by decide +kernel
  have hmessage : (⟨.unknownIdentifier "sinz_1", 4⟩ : Rejection).report.message = "unknown identifier 'sinz_1'" := by
    decide +kernel
  obtain ⟨_, _, _, _, hname⟩ := parse_error_position _ _ hword
  obtain ⟨_, hlast, _⟩ := parse_error_position _ _ hend
  exact ⟨hword, hmessage, (hname "sinz_1" rfl (hmessage.trans (by decide +kernel))).1, hend, (hlast rfl).2⟩

end EscapeTime
