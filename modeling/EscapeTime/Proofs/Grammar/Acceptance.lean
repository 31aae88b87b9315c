/-
Which streams of tokens the parser accepts, and with which tree.

- `accepts_iff`: from any place, the expression reader succeeds and stands at the end afterwards exactly when what lies
  in front of the end is a sum whose groups fit into the levels left. The end is an end marker, or the end of the
  stream.
- `parse_ok_iff`: what one call of the parser adds to that is the limit on the number of tokens.
- `parse_error_cases`: the three ways in which a call fails.
- `derives_unique`: a list of kinds has at most one tree.
- `parse_ok_iff_derives`: a fresh parser accepts the sums of at most 512 tokens in which no token lies inside more than
  127 groups, and no other stream.
-/
import EscapeTime.Proofs.Grammar.Recognition

namespace EscapeTime

namespace Grammar

/-- the stream ends here, or shows its end marker -/
def Ending (tail : List Kind) : Prop :=
  tail = [] ∨ ∃ rest, tail = .endOfInput :: rest

theorem ending_of_atEnd {c : Cursor} (h : c.atEnd = true) : Ending c.rest := by
  cases hrest : c.rest with
  | nil => exact .inl rfl
  | cons k rest =>
    simp [Cursor.atEnd, Cursor.peek_cons hrest, hrest] at h
    exact .inr ⟨rest, by rw [h]⟩

theorem atEnd_of_ending {c : Cursor} (h : Ending c.rest) : c.atEnd = true := by
  rcases h with h | ⟨rest, h⟩ <;> simp [Cursor.atEnd, Cursor.peek, h]

/-- kinds in front of an end are determined by the whole -/
theorem eq_of_append_ending {ks ks' tail tail' : List Kind} (hks : ∀ k ∈ ks, k ≠ .endOfInput)
    (hks' : ∀ k ∈ ks', k ≠ .endOfInput) (ht : Ending tail) (ht' : Ending tail') (h : ks ++ tail = ks' ++ tail') :
    ks = ks' := by
  have key : ∀ {ks tail : List Kind}, (∀ k ∈ ks, k ≠ .endOfInput) → Ending tail →
      (ks ++ tail).takeWhile (· != .endOfInput) = ks := by
    intro ks tail hks ht
    rw [List.takeWhile_append_of_pos (by simpa using hks)]
    rcases ht with rfl | ⟨rest, rfl⟩ <;> simp
  rw [← key hks ht, h, key hks' ht']

/-- no operator is in view at an end, if what lies in front of it does not end in one -/
theorem ops_ending {c : Cursor} (h : Ending c.rest) (hlast : c.rest = [] → endsPrimary c.last = true) :
    sumOp? c = none ∧ Bounded .sum c := by
  rcases h with h | ⟨rest, h⟩
  · have hp : endsPrimary c.peek = true := by rw [Cursor.peek_nil h]; exact hlast h
    have hs : c.sees .caret = false := by simp [Cursor.sees, Cursor.atEnd, h]
    cases hk : c.peek <;> simp_all [sumOp?, Bounded, productOp?, powerOp?, endsPrimary]
  · simp [sumOp?, Bounded, productOp?, powerOp?, Cursor.sees, Cursor.peek_cons h]

/-- the expression reader takes everything in front of an end exactly when it is a sum within the levels left -/
theorem accepts_iff {n : Nat} {c : Cursor} {ks tail : List Kind} {e : Expr} (hc : c.Ready) (hrest : c.rest = ks ++ tail)
    (hks : ∀ k ∈ ks, k ≠ .endOfInput) (htail : Ending tail) :
    (∃ c', expression n c = .done e c' ∧ c'.atEnd = true) ↔ ∃ ds, Derives .sum ks ds e ∧ ∀ d ∈ ds, d < n := by
  constructor
  · rintro ⟨c', h, hend⟩
    obtain ⟨_, ks', ds, hks', hd, hds⟩ := expression_sound n c e c' hc h
    have heq : ks = ks' :=
      eq_of_append_ending hks (derives_no_end hd) htail (ending_of_atEnd hend) (hrest.symm.trans hks')
    exact ⟨ds, heq ▸ hd, hds⟩
  · rintro ⟨ds, hd, hds⟩
    cases n with
    | zero =>
      obtain ⟨d, hd'⟩ := derives_count hd
      exact absurd (hds d hd') (Nat.not_lt_zero d)
    | succ n =>
      have hat : (c.enter.past ks.length).rest = tail := Cursor.past_rest (c := c.enter) hrest
      obtain ⟨hsum, hbound⟩ : sumOp? (c.enter.past ks.length) = none ∧ Bounded .sum (c.enter.past ks.length) := by
        refine ops_ending (hat ▸ htail) fun hnil => ?_
        obtain ⟨k, hk, hend⟩ := derives_last hd
        have hk' : k = c.last := hc.1 k (by rw [hrest, hat.symm.trans hnil, List.append_nil, hk])
        exact hk' ▸ hend
      have hread : sum (expression n) c.enter = _ :=
        derives_reads hd n c.enter tail (fun d hm => Nat.le_of_lt_succ (hds d hm)) hrest hbound
      refine ⟨c.past ks.length, ?_, atEnd_of_ending ?_⟩
      · simp only [expression, hread, resume, chain_stop hsum, Outcome.leave_done, Cursor.leave_past_enter]
      · rw [Cursor.past_rest hrest]
        exact htail

/-- a list of kinds is a sum in at most one way: the parser is a function -/
theorem derives_unique {ks : List Kind} {ds₁ ds₂ : List Nat} {e₁ e₂ : Expr} (h₁ : Derives .sum ks ds₁ e₁)
    (h₂ : Derives .sum ks ds₂ e₂) : e₁ = e₂ := by
  have hbelow : ∀ ds : List Nat, ∀ d ∈ ds, d < ds.sum + 1 := fun ds d hd => Nat.lt_succ_of_le (List.le_sum_of_mem hd)
  let n := ds₁.sum + ds₂.sum + 1
  let c : Cursor := ⟨0, ks ++ [.endOfInput], .endOfInput, 0⟩
  have hc : c.Ready := by
    refine ⟨fun k hk => ?_, fun _ => rfl⟩
    simpa [c, eq_comm] using hk
  have hread : ∀ {ds e}, Derives .sum ks ds e → (∀ d ∈ ds, d < n) → ∃ c', expression n c = .done e c' := by
    intro ds e h hds
    obtain ⟨c', h', _⟩ := (accepts_iff hc rfl (derives_no_end h) (.inr ⟨[], rfl⟩)).2 ⟨ds, h, hds⟩
    exact ⟨c', h'⟩
  obtain ⟨c₁, hc₁⟩ := hread h₁ fun d hd => by have := hbelow ds₁ d hd; omega
  obtain ⟨c₂, hc₂⟩ := hread h₂ fun d hd => by have := hbelow ds₂ d hd; omega
  rw [hc₁] at hc₂
  cases hc₂
  rfl

end Grammar

namespace Parser

open Grammar

/-- one call: the limit on the number of tokens, then an expression up to the end -/
theorem parse_ok_iff {p : Parser} {e : Expr} :
    p.parse.1 = .ok e ↔
      p.excess? = none ∧ ∃ c, expression (maxDepth - p.depth) p.cursor = .done e c ∧ c.atEnd = true := by
  unfold parse
  cases hx : p.excess? with
  | some t => simp
  | none =>
    cases hr : expression (maxDepth - p.depth) p.cursor with
    | fault f c => simp
    | done e' c =>
      cases hend : c.atEnd with
      | true => simp [hend]
      | false => simp [hend]

/-- a call that fails: the stream is too long, or a fault comes up in the expression, or a token is left behind it -/
theorem parse_error_cases {p : Parser} {r : Rejection} (h : p.parse.1 = .error r) :
    (∃ t, p.excess? = some t ∧ r = ⟨.tooLong, t.position⟩) ∨
    (∃ f c, expression (maxDepth - p.depth) p.cursor = .fault f c ∧ r = p.locate f) ∨
    ∃ e c, expression (maxDepth - p.depth) p.cursor = .done e c ∧ c.atEnd = false ∧
      r = p.locate ⟨.trailingToken c.peek, c.index⟩ := by
  unfold parse at h
  cases hx : p.excess? with
  | some t =>
    rw [hx] at h
    cases h
    exact .inl ⟨t, rfl, rfl⟩
  | none =>
    cases hread : expression (maxDepth - p.depth) p.cursor with
    | fault f c =>
      simp only [hx, hread] at h
      cases h
      exact .inr (.inl ⟨f, c, rfl, rfl⟩)
    | done e c =>
      cases hend : c.atEnd with
      | true => simp [hx, hread, hend] at h
      | false =>
        simp only [hx, hread, hend, Bool.false_eq_true, if_false] at h
        cases h
        exact .inr (.inr ⟨e, c, rfl, hend, rfl⟩)

/-- a stream that ends in an end marker, and has no other, is too long when the marker comes too late -/
theorem excess?_eq_none_iff {ts : List Token} {eof : Token} (hts : ∀ t ∈ ts, t.kind ≠ .endOfInput)
    (heof : eof.kind = .endOfInput) : (ofTokens (ts ++ [eof])).excess? = none ↔ ts.length ≤ maxTokens := by
  have htokens : (ofTokens (ts ++ [eof])).tokens = ts ++ [eof] := by simp [ofTokens]
  rw [excess?, htokens]
  constructor
  · intro h
    by_contra hlt
    rw [List.getElem?_append_left (by omega), List.getElem?_eq_getElem (by omega)] at h
    simp [Option.filter, hts _ (List.getElem_mem _)] at h
  · intro hle
    rcases Nat.lt_or_eq_of_le hle with hlt | heq
    · rw [List.getElem?_eq_none (by simp; omega)]
      rfl
    · rw [← heq, List.getElem?_append_right le_rfl]
      simp [Option.filter, heof]

theorem cursor_ofTokens (ts : List Token) (eof : Token) :
    (ofTokens (ts ++ [eof])).cursor = ⟨0, ts.map Token.kind ++ [eof.kind], eof.kind, 0⟩ := by
  simp [ofTokens, cursor]

/-- a fresh parser on a stream with one end marker, at its end -/
theorem parse_fresh_ok_iff {ts : List Token} {eof : Token} (hts : ∀ t ∈ ts, t.kind ≠ .endOfInput)
    (heof : eof.kind = .endOfInput) (e : Expr) :
    (ofTokens (ts ++ [eof])).parse.1 = .ok e ↔
      ts.length ≤ 512 ∧ ∃ ds, Derives .sum (ts.map Token.kind) ds e ∧ ∀ d ∈ ds, d ≤ 127 := by
  have hready : (ofTokens (ts ++ [eof])).cursor.Ready := by
    rw [cursor_ofTokens]
    exact ⟨fun k hk => by simpa [eq_comm] using hk, fun h => by simp at h⟩
  have hrest : (ofTokens (ts ++ [eof])).cursor.rest = ts.map Token.kind ++ [eof.kind] := by rw [cursor_ofTokens]
  rw [parse_ok_iff, excess?_eq_none_iff hts heof,
    accepts_iff hready hrest (by simpa using hts) (.inr ⟨[], by rw [heof]⟩)]
  have hlevels : ∀ d : Nat, d < maxDepth - (ofTokens (ts ++ [eof])).depth ↔ d ≤ 127 := fun d => Nat.lt_succ_iff
  simp only [hlevels]
  rfl

/-- **The parser accepts exactly its grammar.** A fresh parser accepts the sums of at most 512 tokens in which no token
lies inside more than 127 groups, with the tree of the grammar, and rejects every other stream; no stream has two trees.
-/
theorem parse_ok_iff_derives (ts : List Token) (eof : Token) (hts : ∀ t ∈ ts, t.kind ≠ .endOfInput)
    (heof : eof.kind = .endOfInput) :
    (∀ e, (ofTokens (ts ++ [eof])).parse.1 = .ok e ↔
      ts.length ≤ 512 ∧ ∃ ds, Derives .sum (ts.map Token.kind) ds e ∧ ∀ d ∈ ds, d ≤ 127) ∧
    ∀ e₁ e₂ ds₁ ds₂, Derives .sum (ts.map Token.kind) ds₁ e₁ → Derives .sum (ts.map Token.kind) ds₂ e₂ → e₁ = e₂ :=
  ⟨parse_fresh_ok_iff hts heof, fun _ _ _ _ => derives_unique⟩

/-- the stream of `--|z|^n`: two signs that fold to one, over a power of a group -/
def signedPower : List Token :=
  [⟨.minus, "-", 0⟩, ⟨.minus, "-", 1⟩, ⟨.pipe, "|", 2⟩, ⟨.ident "z", "z", 3⟩, ⟨.pipe, "|", 4⟩, ⟨.caret, "^", 5⟩,
    ⟨.ident "n", "n", 6⟩]

theorem parse_signedPower :
    (∀ t ∈ signedPower, t.kind ≠ .endOfInput) ∧
    (ofTokens (signedPower ++ [⟨.endOfInput, "", 7⟩])).parse.1 =
      .ok (.unary .pos (.binary .pow (.modulus (.var .z)) (.var .n))) := by
  have hts : ∀ t ∈ signedPower, t.kind ≠ .endOfInput := by decide
  refine ⟨hts, ((parse_ok_iff_derives signedPower _ hts rfl).1 _).2
    ⟨by decide, [0, 0, 0, 1, 0, 0, 0], ?_, by decide⟩⟩
  have hz : Derives .sum [.ident "z"] [0] (.var .z) :=
    .sumFirst (.productFirst (.unaryPlain (.powerFirst (.var .z))))
  have hpower : Derives .power [.pipe, .ident "z", .pipe, .caret, .ident "n"] [0, 1, 0, 0, 0] _ :=
    .powerNext (.powerFirst (.bars hz)) (.exponentPlain (.var .n))
  exact .sumFirst (.productFirst (.unarySigned [.minus, .minus] (by decide) (by decide) hpower))

end Parser

end EscapeTime
