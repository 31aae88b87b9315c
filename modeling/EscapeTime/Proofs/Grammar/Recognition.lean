/-
The parser reads exactly the phrases of the grammar.

Each phrase has its reader. Two facts are proved of all readers at once:
- `derives_reads` (completeness): where a phrase lies ahead and what follows cannot go on with it, its reader takes
  exactly that phrase and gives its tree. For the left-associative phrases the induction needs more than the outcome:
  the reader arrives at its loop with the tree of what it has taken so far (`resume`), and the loop may still go on.
- `expression_sound` (soundness): what a reader takes is a phrase with the tree it gives, and groups are nested no
  deeper than the levels it was given. This holds for streams without an end marker too, as long as reading does not
  start behind the last token of a stream that ends in an operand (`Cursor.Ready`).

Both are about one expression; whole streams are in `Acceptance`.
-/
import EscapeTime.Proofs.Grammar.Derivation
import EscapeTime.Grammar.Parser

namespace EscapeTime

namespace Cursor

/-- past the next `n` kinds -/
def past (c : Cursor) (n : Nat) : Cursor :=
  { c with passed := c.passed + n, rest := c.rest.drop n }

theorem past_past (c : Cursor) (m n : Nat) : (c.past m).past n = c.past (m + n) := by
  simp [past, Nat.add_assoc]

/-- past the first operand, an operator and the second operand -/
theorem past_operands (c : Cursor) (ks : List Kind) (k : Kind) (ks' : List Kind) :
    ((c.past ks.length).past 1).past ks'.length = c.past (ks ++ k :: ks').length := by
  simp only [past_past, List.length_append, List.length_cons, Nat.add_assoc, Nat.add_comm 1]

theorem past_rest {c : Cursor} {ks rest : List Kind} (h : c.rest = ks ++ rest) : (c.past ks.length).rest = rest := by
  simp [past, h]

theorem peek_cons {c : Cursor} {k : Kind} {rest : List Kind} (h : c.rest = k :: rest) : c.peek = k := by
  simp [peek, h]

theorem advance_cons {c : Cursor} {k : Kind} {rest : List Kind} (h : c.rest = k :: rest) : c.advance = c.past 1 := by
  simp [advance, past, h]

theorem advance_rest {c : Cursor} {k : Kind} {rest : List Kind} (h : c.rest = k :: rest) : c.advance.rest = rest := by
  simp [advance, h]

theorem sees_cons {c : Cursor} {k : Kind} {rest : List Kind} (h : c.rest = k :: rest) (hk : k ≠ .endOfInput) :
    c.sees k = true := by
  simp [sees, atEnd, peek_cons h, h, hk]

theorem leave_past_enter (c : Cursor) (n : Nat) : (c.enter.past n).leave = c.past n := rfl

end Cursor

namespace Grammar

/-! ## Completeness -/

/-- the reader of each phrase -/
def reader (inner : Reader Expr) : Phrase → Reader Expr
  | .sum => sum inner
  | .product => product inner
  | .unary => unary inner
  | .power => power inner
  | .exponent => signed (primary inner)
  | .primary => primary inner

/-- what a reader does once it has taken a phrase with tree `e`: look for a further operand, or be done -/
def resume (inner : Reader Expr) : Phrase → Expr → Reader Expr
  | .sum, e => chain sumOp? (product inner) e
  | .product, e => chain productOp? (unary inner) e
  | .power, e => chain powerOp? (signed (primary inner)) e
  | _, e => fun c => .done e c

/-- the last operand of a phrase cannot go on at this place -/
def Bounded : Phrase → Cursor → Prop
  | .sum, c => productOp? c = none ∧ powerOp? c = none
  | .product, c | .unary, c => powerOp? c = none
  | _, _ => True

theorem chain_stop {op? : Cursor → Option BinaryOp} {c : Cursor} (h : op? c = none) (operand : Reader Expr) (e : Expr) :
    chain op? operand e c = .done e c := by
  rw [chain, h]

theorem chain_step {op? : Cursor → Option BinaryOp} {operand : Reader Expr} {c c' : Cursor} {op : BinaryOp} {l r : Expr}
    (hop : op? c = some op) (hr : operand c.advance = .done r c') (hlt : c'.rest.length < c.rest.length) :
    chain op? operand l c = chain op? operand (.binary op l r) c' := by
  rw [chain, hop]
  simp only [hr, hlt, if_true]

/-- the loop of a phrase at an operator `k` with a full operand `ks'` behind it -/
theorem chain_next {op? : Cursor → Option BinaryOp} {operand : Reader Expr} {c : Cursor} {op : BinaryOp} {l r : Expr}
    {ks ks' rest : List Kind} {k : Kind} (hc : c.rest = ks ++ k :: ks' ++ rest) (hop : op? (c.past ks.length) = some op)
    (hr : ((c.past ks.length).past 1).rest = ks' ++ rest →
      operand ((c.past ks.length).past 1) = .done r (((c.past ks.length).past 1).past ks'.length)) :
    chain op? operand l (c.past ks.length) = chain op? operand (.binary op l r) (c.past (ks ++ k :: ks').length) := by
  have hrest : (c.past ks.length).rest = k :: (ks' ++ rest) := Cursor.past_rest (by rw [hc]; simp)
  have hadv : (c.past ks.length).advance = (c.past ks.length).past 1 := Cursor.advance_cons hrest
  have hdone := hr (by rw [← hadv]; exact Cursor.advance_rest hrest)
  rw [chain_step hop (by rw [hadv]; exact hdone)]
  · rw [Cursor.past_operands]
  · rw [hrest]
    simp only [Cursor.past, hc]
    simp

theorem signOf_of_ne_nil {run : List Kind} (h : run ≠ []) :
    signOf run = some (if run.count .minus % 2 = 1 then .neg else .pos) := by
  unfold signOf
  rw [if_neg (by simpa using h)]
  split_ifs <;> rfl

/-- a run of signs is read up to the first other kind -/
theorem signs_run {c : Cursor} {run rest : List Kind} {k : Kind} (hrun : ∀ k ∈ run, k.isSign = true)
    (hk : k.isSign = false) (hc : c.rest = run ++ k :: rest) : signs c = .done (signOf run) (c.past run.length) := by
  have htake : c.rest.takeWhile Kind.isSign = run := by
    rw [hc, List.takeWhile_append_of_pos hrun, List.takeWhile_cons_of_neg (by simp [hk]), List.append_nil]
  have hdrop : c.rest.dropWhile Kind.isSign = k :: rest := by
    rw [hc, List.dropWhile_append_of_pos hrun, List.dropWhile_cons_of_neg (by simp [hk])]
  simp only [signs, htake, hdrop, List.isEmpty_cons, Bool.false_and, Bool.false_eq_true, if_false]
  simp [Cursor.past, hc]

theorem isSign_of_mayBegin {p : Phrase} {k : Kind} (hp : p = .power ∨ p = .primary) (h : p.mayBegin k = true) :
    k.isSign = false := by
  rcases hp with rfl | rfl <;> cases k <;> simp_all [Phrase.mayBegin, beginsPrimary, Kind.isSign]

/-- signs in front of an operand that is read in full -/
theorem signed_reads {operand : Reader Expr} {c : Cursor} {run ks rest : List Kind} {e : Expr}
    (hrun : ∀ k ∈ run, k.isSign = true) (hks : ∃ k ks', ks = k :: ks' ∧ k.isSign = false)
    (hc : c.rest = run ++ ks ++ rest)
    (ho : operand (c.past run.length) = .done e ((c.past run.length).past ks.length)) :
    signed operand c = .done (applySign (signOf run) e) (c.past (run ++ ks).length) := by
  obtain ⟨k, ks', rfl, hk⟩ := hks
  have hc' : c.rest = run ++ k :: (ks' ++ rest) := by rw [hc, List.append_assoc, List.cons_append]
  have hs : signs c = .done (signOf run) (c.past run.length) := signs_run hrun hk hc'
  simp only [signed, hs, Outcome.bind_done, ho, Cursor.past_past, List.length_append]

/-- behind a closing delimiter's place no operator is in view -/
theorem ops_closing {c : Cursor} {k : Kind} {rest : List Kind} (hc : c.rest = k :: rest)
    (hk : k = .rightParen ∨ k = .pipe) : sumOp? c = none ∧ Bounded .sum c := by
  rcases hk with rfl | rfl <;> simp [sumOp?, Bounded, productOp?, powerOp?, Cursor.sees, Cursor.peek_cons hc]

theorem closing_reads {c : Cursor} {k : Kind} {rest : List Kind} (hc : c.rest = k :: rest) (hk : k ≠ .endOfInput)
    (e : Expr) : closing k e c = .done e (c.past 1) := by
  rw [closing, if_pos (Cursor.sees_cons hc hk), Cursor.advance_cons hc]

/-- `ks` is read as a sum with tree `e` wherever its groups are within the levels left -/
def ReadsSum (ks : List Kind) (ds : List Nat) (e : Expr) : Prop :=
  ∀ (levels : Nat) (c : Cursor) (rest : List Kind), (∀ d ∈ ds, d ≤ levels) → c.rest = ks ++ rest →
    Bounded .sum (c.past ks.length) →
      sum (expression levels) c = resume (expression levels) .sum e (c.past ks.length)

/-- the inside of a group and its closing delimiter; it costs one level -/
theorem group_reads {ks : List Kind} {ds : List Nat} {e : Expr} (h : Derives .sum ks ds e) (ih : ReadsSum ks ds e)
    {levels : Nat} (hd : ∀ d ∈ ds.map (· + 1), d ≤ levels) {c : Cursor} {k : Kind} {rest : List Kind}
    (hc : c.rest = ks ++ k :: rest) (hk : k = .rightParen ∨ k = .pipe) (f : Expr → Expr) :
    ((expression levels c).bind fun e c => closing k (f e) c) = .done (f e) (c.past (ks.length + 1)) := by
  -- there is a kind inside the group, so at least one level is left
  obtain ⟨n, rfl⟩ : ∃ n, levels = n + 1 := by
    cases levels with
    | succ n => exact ⟨n, rfl⟩
    | zero =>
      obtain ⟨d, hd'⟩ := derives_count h
      exact absurd (hd (d + 1) (List.mem_map_of_mem hd')) (Nat.not_succ_le_zero d)
  have hd' : ∀ d ∈ ds, d ≤ n := fun d hm => Nat.le_of_succ_le_succ (hd (d + 1) (List.mem_map_of_mem hm))
  have hrest : (c.enter.past ks.length).rest = k :: rest := Cursor.past_rest (c := c.enter) hc
  obtain ⟨hsum, hbound⟩ := ops_closing hrest hk
  have hread : sum (expression n) c.enter = .done e (c.enter.past ks.length) := by
    rw [ih n c.enter (k :: rest) hd' hc hbound]
    exact chain_stop hsum _ _
  have hne : k ≠ .endOfInput := by rcases hk with rfl | rfl <;> decide
  simp only [expression, hread, Outcome.leave_done, Outcome.bind_done, Cursor.leave_past_enter]
  rw [closing_reads (Cursor.past_rest hc) hne, Cursor.past_past]

theorem ofName?_variable (v : Variable) : Variable.ofName? v.name = some v := by
  cases v <;> decide

theorem ofName?_func (f : Func) : Func.ofName? f.name = some f ∧ Variable.ofName? f.name = none := by
  cases f <;> decide

/-- **Completeness.** Where a phrase lies ahead and its last operand is bounded by what follows, the phrase's reader
takes exactly the phrase and arrives at its loop with the phrase's tree. -/
theorem derives_reads {p : Phrase} {ks : List Kind} {ds : List Nat} {e : Expr} (h : Derives p ks ds e) :
    ∀ (levels : Nat) (c : Cursor) (rest : List Kind), (∀ d ∈ ds, d ≤ levels) → c.rest = ks ++ rest →
      Bounded p (c.past ks.length) →
        reader (expression levels) p c = resume (expression levels) p e (c.past ks.length) := by
  induction h with
  | sumFirst _ ih =>
    intro levels c rest hd hc hb
    have hp : product (expression levels) c = _ := ih levels c rest hd hc hb.2
    simp only [reader, sum, chained, hp, resume, chain_stop hb.1, Outcome.bind_done]
  | productFirst _ ih =>
    intro levels c rest hd hc hb
    have hu : unary (expression levels) c = _ := ih levels c rest hd hc hb
    simp only [reader, product, chained, hu, resume, Outcome.bind_done]
  | powerFirst _ ih =>
    intro levels c rest hd hc hb
    have hp : primary (expression levels) c = _ := ih levels c rest hd hc trivial
    simp only [reader, power, chained, hp, resume, Outcome.bind_done]
  | @sumNext ks ds l ks' ds' r op hop _ _ ihl ihr =>
    intro levels c rest hd hc hb
    simp only [List.forall_mem_append, List.forall_mem_cons] at hd
    have hl : c.rest = ks ++ operatorKind op :: (ks' ++ rest) := by rw [hc, List.append_assoc, List.cons_append]
    have hat : (c.past ks.length).rest = operatorKind op :: (ks' ++ rest) := Cursor.past_rest hl
    obtain ⟨hop?, hbound⟩ : sumOp? (c.past ks.length) = some op ∧ Bounded .sum (c.past ks.length) := by
      rcases hop with rfl | rfl <;>
        simp [sumOp?, Bounded, productOp?, powerOp?, Cursor.sees, Cursor.peek_cons hat, operatorKind]
    have hleft : sum (expression levels) c = _ := ihl levels c _ hd.1 hl hbound
    simp only [reader, hleft, resume]
    refine chain_next hc hop? fun hrest => ?_
    have hend := c.past_operands ks (operatorKind op) ks'
    have hr : product (expression levels) ((c.past ks.length).past 1) = _ :=
      ihr levels _ rest hd.2.2 hrest (by rw [hend]; exact hb.2)
    rw [hr, hend]
    exact chain_stop hb.1 _ _
  | @productNext ks ds l ks' ds' r op hop _ _ ihl ihr =>
    intro levels c rest hd hc hb
    simp only [List.forall_mem_append, List.forall_mem_cons] at hd
    have hl : c.rest = ks ++ operatorKind op :: (ks' ++ rest) := by rw [hc, List.append_assoc, List.cons_append]
    have hat : (c.past ks.length).rest = operatorKind op :: (ks' ++ rest) := Cursor.past_rest hl
    obtain ⟨hop?, hbound⟩ : productOp? (c.past ks.length) = some op ∧ Bounded .product (c.past ks.length) := by
      rcases hop with rfl | rfl <;>
        simp [Bounded, productOp?, powerOp?, Cursor.sees, Cursor.peek_cons hat, operatorKind]
    have hleft : product (expression levels) c = _ := ihl levels c _ hd.1 hl hbound
    simp only [reader, hleft, resume]
    refine chain_next hc hop? fun hrest => ?_
    exact ihr levels _ rest hd.2.2 hrest (by rw [c.past_operands ks (operatorKind op) ks']; exact hb)
  | @powerNext ks ds l ks' ds' r _ _ ihl ihr =>
    intro levels c rest hd hc hb
    simp only [List.forall_mem_append, List.forall_mem_cons] at hd
    have hl : c.rest = ks ++ .caret :: (ks' ++ rest) := by rw [hc, List.append_assoc, List.cons_append]
    have hat : (c.past ks.length).rest = .caret :: (ks' ++ rest) := Cursor.past_rest hl
    have hop? : powerOp? (c.past ks.length) = some .pow := by
      rw [powerOp?, if_pos (Cursor.sees_cons hat (by decide))]
    have hleft : power (expression levels) c = _ := ihl levels c _ hd.1 hl trivial
    simp only [reader, hleft, resume]
    exact chain_next hc hop? fun hrest => ihr levels _ rest hd.2.2 hrest trivial
  | unaryPlain h ih =>
    intro levels c rest hd hc hb
    have hp : power (expression levels) c = _ := ih levels c rest hd hc trivial
    obtain ⟨k, ks', rfl, hk⟩ := derives_head h
    have hread : signed (power (expression levels)) c = .done (applySign (signOf []) _) _ :=
      signed_reads (by simp) ⟨k, ks', rfl, isSign_of_mayBegin (.inl rfl) hk⟩ hc (hp.trans (chain_stop hb _ _))
    exact hread
  | @unarySigned ks ds e run hne hrun h ih =>
    intro levels c rest hd hc hb
    rw [List.forall_mem_append] at hd
    have hc' : (c.past run.length).rest = ks ++ rest := Cursor.past_rest (by rw [hc, List.append_assoc])
    have hp : power (expression levels) (c.past run.length) = _ := ih levels _ rest hd.2 hc' trivial
    obtain ⟨k, ks', rfl, hk⟩ := derives_head h
    have hread := signed_reads (isSign_of_mem hrun) ⟨k, ks', rfl, isSign_of_mayBegin (.inl rfl) hk⟩ hc
      (hp.trans (chain_stop (by simpa [Cursor.past_past, Bounded] using hb) _ _))
    rw [signOf_of_ne_nil hne] at hread
    exact hread
  | exponentPlain h ih =>
    intro levels c rest hd hc hb
    obtain ⟨k, ks', rfl, hk⟩ := derives_head h
    have hread : signed (primary (expression levels)) c = .done (applySign (signOf []) _) _ :=
      signed_reads (by simp) ⟨k, ks', rfl, isSign_of_mayBegin (.inr rfl) hk⟩ hc (ih levels c rest hd hc trivial)
    exact hread
  | @exponentSigned ks ds e run hne hrun h ih =>
    intro levels c rest hd hc hb
    rw [List.forall_mem_append] at hd
    have hc' : (c.past run.length).rest = ks ++ rest := Cursor.past_rest (by rw [hc, List.append_assoc])
    have hp : primary (expression levels) (c.past run.length) = _ := ih levels _ rest hd.2 hc' trivial
    obtain ⟨k, ks', rfl, hk⟩ := derives_head h
    have hread := signed_reads (isSign_of_mem hrun) ⟨k, ks', rfl, isSign_of_mayBegin (.inr rfl) hk⟩ hc hp
    rw [signOf_of_ne_nil hne] at hread
    exact hread
  | number x =>
    intro levels c rest hd hc hb
    simp only [reader, resume, primary, Cursor.peek_cons hc, Cursor.advance_cons hc, List.length_singleton]
  | var v =>
    intro levels c rest hd hc hb
    simp only [reader, resume, primary, identifier, Cursor.peek_cons hc, Cursor.advance_cons hc, ofName?_variable,
      List.length_singleton]
  | @call ks ds e f h ih =>
    intro levels c rest hd hc hb
    simp only [List.cons_append, List.forall_mem_cons, List.forall_mem_append, List.append_assoc] at hd hc
    have hc1 : c.advance.rest = .leftParen :: (ks ++ .rightParen :: rest) := Cursor.advance_rest hc
    have hgroup := group_reads h ih hd.2.2.1 (Cursor.advance_rest hc1) (.inl rfl) (Expr.call f)
    simp only [reader, resume, primary, identifier, Cursor.peek_cons hc, ofName?_func, Cursor.sees_cons hc1 (by decide),
      if_true, hgroup]
    rw [Cursor.advance_cons hc1, Cursor.advance_cons hc]
    simp [Cursor.past_past, Nat.add_comm, Nat.add_left_comm]
  | @parens ks ds e h ih =>
    intro levels c rest hd hc hb
    simp only [List.cons_append, List.forall_mem_cons, List.forall_mem_append, List.append_assoc] at hd hc
    have hgroup := group_reads h ih hd.2.1 (Cursor.advance_rest hc) (.inl rfl) id
    simp only [id_eq] at hgroup
    simp only [reader, resume, primary, Cursor.peek_cons hc, hgroup]
    rw [Cursor.advance_cons hc]
    simp [Cursor.past_past, Nat.add_comm, Nat.add_left_comm]
  | @bars ks ds e h ih =>
    intro levels c rest hd hc hb
    simp only [List.cons_append, List.forall_mem_cons, List.forall_mem_append, List.append_assoc] at hd hc
    have hgroup := group_reads h ih hd.2.1 (Cursor.advance_rest hc) (.inr rfl) Expr.modulus
    simp only [reader, resume, primary, Cursor.peek_cons hc, hgroup]
    rw [Cursor.advance_cons hc]
    simp [Cursor.past_past, Nat.add_comm, Nat.add_left_comm]

/-! ## Soundness -/

/-- numbers and identifiers -/
def isOperand : Kind → Bool
  | .number _ | .ident _ => true
  | _ => false

end Grammar

namespace Cursor

/-- `last` is the last kind of the stream -/
def Closed (c : Cursor) : Prop :=
  ∀ k, c.rest.getLast? = some k → k = c.last

/-- an operand may be read here: behind the last token the stream must not go on showing an operand -/
def Ready (c : Cursor) : Prop :=
  c.Closed ∧ (c.rest = [] → Grammar.isOperand c.last = false)

theorem closed_advance {c : Cursor} (h : c.Closed) : c.advance.Closed := by
  intro k hk
  unfold advance at hk ⊢
  split at hk
  · exact h k hk
  · rename_i k' rest hrest
    refine h k ?_
    rw [hrest, List.getLast?_cons]
    simp only at hk
    simp [hk]

theorem peek_nil {c : Cursor} (h : c.rest = []) : c.peek = c.last := by
  simp [peek, h]

theorem advance_nil {c : Cursor} (h : c.rest = []) : c.advance = c := by
  simp [advance, h]

/-- past a token that is no operand, an operand may be read -/
theorem ready_advance {c : Cursor} (h : c.Closed) (hk : Grammar.isOperand c.peek = false) : c.advance.Ready := by
  refine ⟨closed_advance h, fun hnil => ?_⟩
  cases hrest : c.rest with
  | nil => rw [advance_nil hrest, ← peek_nil hrest]; exact hk
  | cons k rest =>
    rw [advance_rest hrest] at hnil
    have hlast : k = c.last := h k (by rw [hrest, hnil]; rfl)
    rw [peek_cons hrest, hlast] at hk
    rw [advance_cons hrest]
    exact hk

theorem ready_enter {c : Cursor} (h : c.Ready) : c.enter.Ready := h

theorem sees_inv {c : Cursor} {k : Kind} (h : c.sees k = true) : c.rest = k :: c.advance.rest := by
  simp only [sees, atEnd, Bool.and_eq_true, Bool.not_eq_true', Bool.or_eq_false_iff, beq_iff_eq] at h
  cases hrest : c.rest with
  | nil => simp [hrest] at h
  | cons k' rest => rw [advance_rest hrest, ← h.2, peek_cons hrest]

end Cursor

namespace Outcome

theorem bind_eq_done {α β : Type} {o : Outcome α} {next : α → Cursor → Outcome β} {b : β} {c' : Cursor}
    (h : o.bind next = .done b c') : ∃ a c, o = .done a c ∧ next a c = .done b c' := by
  cases o with
  | done a c => exact ⟨a, c, rfl, h⟩
  | fault f c => cases h

theorem leave_eq_done {α : Type} {o : Outcome α} {a : α} {c' : Cursor} (h : o.leave = .done a c') :
    ∃ c, o = .done a c ∧ c' = c.leave := by
  cases o with
  | done b c => cases h; exact ⟨c, rfl, rfl⟩
  | fault f c => cases h

end Outcome

namespace Grammar

/-- what `r` takes is a phrase `p` with the tree it gives, and each kind lies inside fewer than `n` groups -/
def Sound (p : Phrase) (n : Nat) (r : Reader Expr) : Prop :=
  ∀ c e c', c.Ready → r c = .done e c' →
    c'.Closed ∧ ∃ ks ds, c.rest = ks ++ c'.rest ∧ Derives p ks ds e ∧ ∀ d ∈ ds, d < n

/-- a sound reader takes something, so it never succeeds behind the last token -/
theorem Sound.ne_nil {p : Phrase} {n : Nat} {r : Reader Expr} (h : Sound p n r) {c c' : Cursor} {e : Expr}
    (hc : c.Ready) (hr : r c = .done e c') : c.rest ≠ [] := by
  obtain ⟨_, ks, ds, hrest, hd, _⟩ := h c e c' hc hr
  intro hnil
  rw [hnil] at hrest
  exact derives_ne_nil hd (List.append_eq_nil_iff.1 hrest.symm).1

theorem signs_sound {c c' : Cursor} {s : Option Sign} (hc : c.Ready) (h : signs c = .done s c') :
    c'.Ready ∧ ∃ run, c.rest = run ++ c'.rest ∧ s = signOf run ∧ ∀ k ∈ run, k.isSign = true := by
  simp only [signs] at h
  split_ifs at h with hend
  cases h
  set run := c.rest.takeWhile Kind.isSign
  set rest := c.rest.dropWhile Kind.isSign
  have hsplit : c.rest = run ++ rest := List.takeWhile_append_dropWhile.symm
  have hrun : ∀ k ∈ run, k.isSign = true := List.all_eq_true.1 List.all_takeWhile
  refine ⟨⟨fun k hk => ?_, fun hnil => ?_⟩, run, hsplit, rfl, hrun⟩
  · refine hc.1 k ?_
    rw [hsplit, List.getLast?_append, hk]
    rfl
  · simp only at hnil
    cases hlast : run.getLast? with
    | none => exact hc.2 (by rw [hsplit, hnil, List.getLast?_eq_none_iff.1 hlast]; rfl)
    | some k =>
      -- the stream would end in a sign
      have hk : k = c.last := hc.1 k (by rw [hsplit, hnil, List.append_nil, hlast])
      have hsign := hrun k (List.mem_of_getLast? hlast)
      simp [hnil, ← hk, hsign] at hend

theorem eq_of_isSign {k : Kind} (hk : k.isSign = true) : k = .plus ∨ k = .minus := by
  cases k <;> simp_all [Kind.isSign]

theorem sign_cases {run : List Kind} (hrun : ∀ k ∈ run, k.isSign = true) : ∀ k ∈ run, k = .plus ∨ k = .minus :=
  fun k hk => eq_of_isSign (hrun k hk)

/-- signs in front of an operand; the rules for a phrase with and without them are given -/
theorem signed_sound {p q : Phrase} {n : Nat} {operand : Reader Expr} (ho : Sound q n operand) (hn : 0 < n)
    (hplain : ∀ {ks ds e}, Derives q ks ds e → Derives p ks ds e)
    (hsigned : ∀ {ks ds e} (run : List Kind), run ≠ [] → (∀ k ∈ run, k = .plus ∨ k = .minus) → Derives q ks ds e →
      Derives p (run ++ ks) (List.replicate run.length 0 ++ ds)
        (.unary (if run.count .minus % 2 = 1 then .neg else .pos) e)) :
    Sound p n (signed operand) := by
  intro c e c' hc h
  obtain ⟨sign, c1, hs, h⟩ := Outcome.bind_eq_done h
  obtain ⟨e1, c2, he1, h⟩ := Outcome.bind_eq_done h
  cases h
  obtain ⟨hready, run, hrest, rfl, hrun⟩ := signs_sound hc hs
  obtain ⟨hclosed, ks, ds, hks, hd, hlt⟩ := ho c1 e1 _ hready he1
  refine ⟨hclosed, run ++ ks, List.replicate run.length 0 ++ ds, ?_, ?_, ?_⟩
  · rw [hrest, hks, List.append_assoc]
  · by_cases hne : run = []
    · subst hne; exact hplain hd
    · rw [signOf_of_ne_nil hne]
      exact hsigned run hne (sign_cases hrun) hd
  · rw [List.forall_mem_append]
    refine ⟨fun d hd => ?_, hlt⟩
    rw [(List.mem_replicate.1 hd).2]
    exact hn

/-- `op?` finds an operator only where its token is in view -/
def Shows (op? : Cursor → Option BinaryOp) : Prop :=
  ∀ c op, op? c = some op → c.peek = operatorKind op

theorem shows_power : Shows powerOp? := by
  intro c op h
  unfold powerOp? at h
  split_ifs at h with hsees
  cases h
  exact Cursor.peek_cons (Cursor.sees_inv hsees)

theorem shows_product : Shows productOp? := by
  intro c op h
  unfold productOp? at h
  split at h <;> cases h <;> assumption

theorem shows_sum : Shows sumOp? := by
  intro c op h
  unfold sumOp? at h
  split at h <;> cases h <;> assumption

/-- the loop of a phrase `p` over operands `q`: whatever phrase it starts from, it ends with a longer one -/
theorem chain_sound {p q : Phrase} {n : Nat} {op? : Cursor → Option BinaryOp} {operand : Reader Expr}
    (ho : Sound q n operand) (hn : 0 < n) (hop : Shows op?)
    (hnext : ∀ {c op}, op? c = some op → ∀ {ks ds l ks' ds' r}, Derives p ks ds l → Derives q ks' ds' r →
      Derives p (ks ++ operatorKind op :: ks') (ds ++ 0 :: ds') (.binary op l r))
    (l : Expr) (c : Cursor) : ∀ e c', c.Closed → chain op? operand l c = .done e c' →
      c'.Closed ∧ ∃ ks ds, c.rest = ks ++ c'.rest ∧ (∀ d ∈ ds, d < n) ∧
        ∀ ks₀ ds₀, Derives p ks₀ ds₀ l → Derives p (ks₀ ++ ks) (ds₀ ++ ds) e := by
  fun_induction chain op? operand l c with
  | case1 l c hnone =>
    intro e c' hc h
    cases h
    exact ⟨hc, [], [], rfl, by simp, fun ks₀ ds₀ h₀ => by simpa using h₀⟩
  | case2 l c op hsome f c1 hfault =>
    intro e c' hc h
    cases h
  | case3 l c op hsome r c1 hr hlt ih =>
    intro e c' hc h
    have hpeek := hop c op hsome
    have hready : c.advance.Ready := Cursor.ready_advance hc (by rw [hpeek]; cases op <;> rfl)
    obtain ⟨hclosed, ks, ds, hks, hd, hds⟩ := ho _ _ _ hready hr
    obtain ⟨hclosed', ks', ds', hks', hds', hgo⟩ := ih e c' hclosed h
    -- the operator was really there: the operand behind it took something
    obtain ⟨k, rest, hrest⟩ : ∃ k rest, c.rest = k :: rest := by
      refine List.exists_cons_of_ne_nil fun hnil => ho.ne_nil hready hr ?_
      rw [Cursor.advance_nil hnil, hnil]
    rw [Cursor.peek_cons hrest] at hpeek
    rw [Cursor.advance_rest hrest] at hks
    refine ⟨hclosed', operatorKind op :: (ks ++ ks'), 0 :: (ds ++ ds'), ?_, ?_, fun ks₀ ds₀ h₀ => ?_⟩
    · rw [hrest, hks, hks', hpeek, List.cons_append, List.append_assoc]
    · rw [List.forall_mem_cons, List.forall_mem_append]
      exact ⟨hn, hds, hds'⟩
    · simpa using hgo _ _ (hnext hsome h₀ hd)
  | case4 l c op hsome r c1 hr hlt =>
    intro e c' hc h
    cases h

/-- an operand and the loop behind it -/
theorem chained_sound {p q s : Phrase} {n : Nat} {op? : Cursor → Option BinaryOp} {first operand : Reader Expr}
    (hf : Sound s n first) (ho : Sound q n operand) (hn : 0 < n)
    (hop : Shows op?)
    (hfirst : ∀ {ks ds e}, Derives s ks ds e → Derives p ks ds e)
    (hnext : ∀ {c op}, op? c = some op → ∀ {ks ds l ks' ds' r}, Derives p ks ds l → Derives q ks' ds' r →
      Derives p (ks ++ operatorKind op :: ks') (ds ++ 0 :: ds') (.binary op l r)) :
    Sound p n (chained op? first operand) := by
  intro c e c' hc h
  obtain ⟨l, c1, hl, h⟩ := Outcome.bind_eq_done h
  obtain ⟨hclosed, ks, ds, hks, hd, hds⟩ := hf c l c1 hc hl
  obtain ⟨hclosed', ks', ds', hks', hds', hgo⟩ := chain_sound ho hn hop hnext l c1 e c' hclosed h
  refine ⟨hclosed', ks ++ ks', ds ++ ds', ?_, hgo ks ds (hfirst hd), ?_⟩
  · rw [hks, hks', List.append_assoc]
  · rw [List.forall_mem_append]
    exact ⟨hds, hds'⟩

/-- the inside of a group and its closing delimiter `k` -/
theorem group_sound {n : Nat} {inner : Reader Expr} (hi : Sound .sum n inner) {c c' : Cursor} {k : Kind}
    {f : Expr → Expr} {e' : Expr} (hc : c.Ready)
    (h : ((inner c).bind fun e c => closing k (f e) c) = .done e' c') :
    c'.Closed ∧ ∃ ks ds e, c.rest = ks ++ k :: c'.rest ∧ Derives .sum ks ds e ∧
      (∀ d ∈ 0 :: ds.map (· + 1) ++ [0], d < n + 1) ∧ e' = f e := by
  obtain ⟨e, c1, he, h⟩ := Outcome.bind_eq_done h
  obtain ⟨hclosed, ks, ds, hks, hd, hds⟩ := hi c e c1 hc he
  unfold closing at h
  split_ifs at h with hsees
  cases h
  refine ⟨Cursor.closed_advance hclosed, ks, ds, e, ?_, hd, ?_, rfl⟩
  · rw [hks]
    congr 1
    exact Cursor.sees_inv hsees
  · rw [List.cons_append, List.forall_mem_cons, List.forall_mem_append, List.forall_mem_map]
    exact ⟨n.succ_pos, fun d hd => Nat.succ_lt_succ (hds d hd), by simp⟩

/-- the opening delimiter of a group was really there: something was read behind it -/
theorem rest_of_group {n : Nat} {inner : Reader Expr} (hi : Sound .sum n inner) {c c' : Cursor} {e : Expr} {k : Kind}
    (hc : c.Closed) (hpeek : c.peek = k) (hk : isOperand k = false) {next : Expr → Cursor → Outcome Expr}
    (h : (inner c.advance).bind next = .done e c') : c.advance.Ready ∧ c.rest = k :: c.advance.rest := by
  have hready : c.advance.Ready := Cursor.ready_advance hc (by rw [hpeek, hk])
  refine ⟨hready, ?_⟩
  obtain ⟨e1, c1, he1, _⟩ := Outcome.bind_eq_done h
  cases hrest : c.rest with
  | nil => exact absurd (by rw [Cursor.advance_nil hrest, hrest]) (hi.ne_nil hready he1)
  | cons k' rest => rw [Cursor.advance_rest hrest, ← hpeek, Cursor.peek_cons hrest]

theorem rest_of_operand {c : Cursor} (hc : c.Ready) (hk : isOperand c.peek = true) :
    c.rest = c.peek :: c.advance.rest := by
  cases hrest : c.rest with
  | nil =>
    have := hc.2 hrest
    rw [Cursor.peek_nil hrest, this] at hk
    cases hk
  | cons k rest => rw [Cursor.advance_rest hrest, Cursor.peek_cons hrest]

theorem name_of_variable {name : String} {v : Variable} (h : Variable.ofName? name = some v) : name = v.name := by
  have := List.find?_some h
  exact (beq_iff_eq.1 this).symm

theorem name_of_func {name : String} {f : Func} (h : Func.ofName? name = some f) : name = f.name := by
  have := List.find?_some h
  exact (beq_iff_eq.1 this).symm

theorem primary_sound {n : Nat} {inner : Reader Expr} (hi : Sound .sum n inner) :
    Sound .primary (n + 1) (primary inner) := by
  intro c e c' hc h
  unfold primary at h
  split at h
  · rename_i x hpeek
    cases h
    have hrest := rest_of_operand hc (by rw [hpeek]; rfl)
    rw [hpeek] at hrest
    exact ⟨Cursor.closed_advance hc.1, _, _, hrest, .number x, by simp⟩
  · rename_i name hpeek
    have hrest := rest_of_operand hc (by rw [hpeek]; rfl)
    rw [hpeek] at hrest
    unfold identifier at h
    split at h
    · rename_i v hv
      cases h
      rw [name_of_variable hv] at hrest
      exact ⟨Cursor.closed_advance hc.1, _, _, hrest, .var v, by simp⟩
    · rename_i f _ hf
      split_ifs at h with hsees
      have hopen := Cursor.sees_inv hsees
      obtain ⟨hready, _⟩ := rest_of_group hi (Cursor.closed_advance hc.1) (Cursor.peek_cons hopen) rfl h
      obtain ⟨hclosed, ks, ds, e, hks, hd, hds, rfl⟩ := group_sound hi (f := Expr.call f) hready h
      rw [name_of_func hf, hopen, hks] at hrest
      exact ⟨hclosed, _, _, by rw [hrest]; simp, .call f hd, List.forall_mem_cons.2 ⟨n.succ_pos, hds⟩⟩
    · cases h
  · rename_i hpeek
    obtain ⟨hready, hrest⟩ := rest_of_group hi hc.1 hpeek rfl h
    obtain ⟨hclosed, ks, ds, e, hks, hd, hds, rfl⟩ := group_sound hi (f := id) hready h
    exact ⟨hclosed, _, _, by rw [hrest, hks]; simp, .parens hd, hds⟩
  · rename_i hpeek
    obtain ⟨hready, hrest⟩ := rest_of_group hi hc.1 hpeek rfl h
    obtain ⟨hclosed, ks, ds, e, hks, hd, hds, rfl⟩ := group_sound hi (f := Expr.modulus) hready h
    exact ⟨hclosed, _, _, by rw [hrest, hks]; simp, .bars hd, hds⟩
  · cases h
  · cases h

theorem exponent_sound {n : Nat} {inner : Reader Expr} (hi : Sound .sum n inner) :
    Sound .exponent (n + 1) (signed (primary inner)) :=
  signed_sound (primary_sound hi) n.succ_pos .exponentPlain .exponentSigned

theorem power_sound {n : Nat} {inner : Reader Expr} (hi : Sound .sum n inner) : Sound .power (n + 1) (power inner) := by
  refine chained_sound (primary_sound hi) (exponent_sound hi) n.succ_pos shows_power .powerFirst ?_
  intro c op h ks ds l ks' ds' r hl hr
  unfold powerOp? at h
  split_ifs at h
  cases h
  exact .powerNext hl hr

theorem unary_sound {n : Nat} {inner : Reader Expr} (hi : Sound .sum n inner) : Sound .unary (n + 1) (unary inner) :=
  signed_sound (power_sound hi) n.succ_pos .unaryPlain .unarySigned

theorem product_sound {n : Nat} {inner : Reader Expr} (hi : Sound .sum n inner) :
    Sound .product (n + 1) (product inner) := by
  have hop : ∀ {c op}, productOp? c = some op → op = .mul ∨ op = .div := by
    intro c op h
    unfold productOp? at h
    split at h <;> cases h <;> simp
  exact chained_sound (unary_sound hi) (unary_sound hi) n.succ_pos shows_product .productFirst
    fun h _ _ _ _ _ _ hl hr => .productNext _ (hop h) hl hr

theorem sum_sound {n : Nat} {inner : Reader Expr} (hi : Sound .sum n inner) : Sound .sum (n + 1) (sum inner) := by
  have hop : ∀ {c op}, sumOp? c = some op → op = .add ∨ op = .sub := by
    intro c op h
    unfold sumOp? at h
    split at h <;> cases h <;> simp
  exact chained_sound (product_sound hi) (product_sound hi) n.succ_pos shows_sum .sumFirst
    fun h _ _ _ _ _ _ hl hr => .sumNext _ (hop h) hl hr

/-- **Soundness.** What is read with so many levels left is a sum, and each kind lies inside fewer groups than that. -/
theorem expression_sound (levels : Nat) : Sound .sum levels (expression levels) := by
  induction levels with
  | zero => intro c e c' _ h; cases h
  | succ n ih =>
    intro c e c' hc h
    obtain ⟨c1, h1, rfl⟩ := Outcome.leave_eq_done h
    exact sum_sound ih c.enter e c1 (Cursor.ready_enter hc) h1

end Grammar

end EscapeTime
