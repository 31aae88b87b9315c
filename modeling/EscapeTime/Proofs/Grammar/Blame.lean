/-
Faults name the first token that cannot be right.

A reader looks at one kind beyond what it takes and never goes back. So what it does at a place is decided by the kinds
up to the one in view when it stops, and it does the same wherever the same kinds lie ahead. `Answers D r' c o` says
this of the outcome `o` of reading at `c`: what was taken is in the language `D`, or what lies in front of the fault is
the beginning of something in `D`; and `r'` (the same reader, with perhaps more levels left) ends in the same way at
every place that shows the same kinds up to there.

- `Answers.behind`, `Answers.andThen`: reading behind tokens that are already known, and one thing after another.
- `signs_answers`, `closing_answers`, `primary_answers`, `chain_answers`: one lemma for each way of reading.
- `expression_answers`: the expression reader, with as many levels or more on the other side.
- `fault_location`: a stream is rejected at a token behind the beginning of a sentence, and no sentence goes on with
  that token, unless it is an identifier that means nothing there.
-/
import EscapeTime.Proofs.Grammar.Acceptance

namespace EscapeTime

namespace Cursor

/-- the kinds ahead end in an end marker -/
def Marked (c : Cursor) : Prop :=
  [Kind.endOfInput] <:+ c.rest

theorem past_one_rest {c : Cursor} {k : Kind} {rest : List Kind} (hc : c.rest = k :: rest) :
    (c.past 1).rest = rest := by
  rw [past, hc]
  rfl

theorem Marked.exists_cons {c : Cursor} (h : c.Marked) : ∃ k rest, c.rest = k :: rest := by
  obtain ⟨ks, hks⟩ := h
  exact List.exists_cons_of_ne_nil (by rw [← hks]; simp)

/-- an end marker still lies ahead in front of any kind -/
theorem Marked.past {c : Cursor} (h : c.Marked) {ks : List Kind} {k : Kind} {rest : List Kind}
    (hc : c.rest = ks ++ k :: rest) : (c.past ks.length).Marked := by
  have hsuffix : k :: rest <:+ c.rest := ⟨ks, hc.symm⟩
  rw [Marked, past_rest hc]
  exact List.suffix_of_suffix_length_le h hsuffix (by simp)

/-- an end marker still lies ahead behind any other kind -/
theorem Marked.past_one {c : Cursor} (h : c.Marked) {k : Kind} {rest : List Kind} (hc : c.rest = k :: rest)
    (hk : k ≠ .endOfInput) : (c.past 1).Marked := by
  rw [Marked, past_one_rest hc]
  rw [Marked, hc, List.suffix_cons_iff] at h
  rcases h with heq | hsuffix
  · exact absurd (List.cons.inj heq).1.symm hk
  · exact hsuffix

theorem index_cons {c : Cursor} {k : Kind} {rest : List Kind} (hc : c.rest = k :: rest) : c.index = c.passed := by
  simp [index, hc]

end Cursor

namespace Grammar

variable {α β : Type}

/-- why a fault is raised at `k`, behind the kinds `ks`: the levels are used up, or `r'` is refused wherever the same
kinds lie ahead, or an identifier is neither a variable nor a function that is applied -/
inductive Reason (r' : Reader α) (ks : List Kind) (k : Kind) (rest : List Kind) : Cause → Prop where
  | tooDeep : Reason r' ks k rest .tooDeep
  | syntactic {cause : Cause} (hkind : cause.kind = .syntactic)
      (hrefused : ∀ d rest', d.rest = ks ++ k :: rest' → ∃ f d', r' d = .fault f d') : Reason r' ks k rest cause
  | unknown {name : String} (hk : k = .ident name) (hvariable : Variable.ofName? name = none)
      (hfunction : ∀ f, Func.ofName? name = some f → rest.head? ≠ some .leftParen) :
      Reason r' ks k rest (.unknownIdentifier name)

/-- the outcome of reading at `c`, explained by the kinds ahead up to the one in view at its end -/
inductive Answers (D : List Kind → α → Prop) (r' : Reader α) (c : Cursor) : Outcome α → Prop where
  | done {a : α} (ks : List Kind) {k : Kind} {rest : List Kind} (hc : c.rest = ks ++ k :: rest) (hD : D ks a)
      (hsame : ∀ d rest', d.rest = ks ++ k :: rest' → r' d = .done a (d.past ks.length)) :
      Answers D r' c (.done a (c.past ks.length))
  | fault {f : Fault} {c' : Cursor} (ks : List Kind) {k : Kind} {rest : List Kind} (hc : c.rest = ks ++ k :: rest)
      (hindex : f.index = c.passed + ks.length) (hbegins : ∃ more a, D (ks ++ more) a)
      (hreason : Reason r' ks k rest f.cause) : Answers D r' c (.fault f c')

/-- at every place with an end marker ahead, what `r` does is explained by the kinds there, and done by `r'` too -/
def Explained (D : List Kind → α → Prop) (r r' : Reader α) : Prop :=
  ∀ c : Cursor, c.Marked → Answers D r' c (r c)

/-! ## Putting readers together -/

/-- a reader that reads on behind the kinds `pre` is refused for the reason that it is refused there -/
theorem Reason.behind {r' : Reader α} {s' : Reader β} (pre : List Kind) {ks : List Kind} {k : Kind} {rest : List Kind}
    {cause : Cause} (h : Reason r' ks k rest cause)
    (hrefused : ∀ d rest', d.rest = pre ++ (ks ++ k :: rest') →
      (∀ d₁ : Cursor, d₁.rest = ks ++ k :: rest' → ∃ f d', r' d₁ = .fault f d') → ∃ f d', s' d = .fault f d') :
    Reason s' (pre ++ ks) k rest cause := by
  cases h with
  | tooDeep => exact .tooDeep
  | unknown hk hvariable hfunction => exact .unknown hk hvariable hfunction
  | syntactic hkind h =>
    refine .syntactic hkind fun d rest' hd => ?_
    rw [List.append_assoc] at hd
    exact hrefused d rest' hd fun d₁ hd₁ => h d₁ rest' hd₁

/-- the kind in view is decided by the kinds up to any other one -/
theorem head?_append_cons (ks : List Kind) (k : Kind) (rest rest' : List Kind) :
    (ks ++ k :: rest').head? = (ks ++ k :: rest).head? := by
  cases ks <;> rfl

/-- reading behind tokens that are already known; `r'` may look at the kind behind them first -/
theorem Answers.behind {D₁ D : List Kind → α → Prop} {r₁' r' : Reader α} {c : Cursor} {o : Outcome α} (pre : List Kind)
    {rest : List Kind} (hc : c.rest = pre ++ rest) (h : Answers D₁ r₁' (c.past pre.length) o)
    (hsame : ∀ d rest', d.rest = pre ++ rest' → rest'.head? = rest.head? → r' d = r₁' (d.past pre.length))
    (hD : ∀ ks a, D₁ ks a → D (pre ++ ks) a) : Answers D r' c o := by
  have hrest : (c.past pre.length).rest = rest := Cursor.past_rest hc
  cases h with
  | @done a ks k rest₁ hc' ha hsame' =>
    obtain rfl : ks ++ k :: rest₁ = rest := hc'.symm.trans hrest
    rw [Cursor.past_past, ← List.length_append]
    refine .done (pre ++ ks) (by rw [hc, List.append_assoc]) (hD _ _ ha) fun d rest' hd => ?_
    rw [List.append_assoc] at hd
    rw [hsame d _ hd (head?_append_cons ks k _ _), hsame' _ rest' (Cursor.past_rest hd), Cursor.past_past,
      ← List.length_append]
  | @fault f c' ks k rest₁ hc' hindex hbegins hreason =>
    obtain rfl : ks ++ k :: rest₁ = rest := hc'.symm.trans hrest
    obtain ⟨more, a, ha⟩ := hbegins
    refine .fault (pre ++ ks) (by rw [hc, List.append_assoc]) ?_ ⟨more, a, ?_⟩ ?_
    · rw [hindex, List.length_append]
      exact Nat.add_assoc _ _ _
    · rw [List.append_assoc]
      exact hD _ _ ha
    · refine hreason.behind pre fun d rest' hd hrefused => ?_
      rw [hsame d _ hd (head?_append_cons ks k _ _)]
      exact hrefused _ (Cursor.past_rest hd)

/-- **Reading one thing after another.** `r'` reads as `r₁'` does and goes on as `next'` does. -/
theorem Answers.andThen {D₁ : List Kind → α → Prop} {D₂ : α → List Kind → β → Prop} {D : List Kind → β → Prop}
    {r₁' : Reader α} {r' : Reader β} {next : α → Reader β} {c : Cursor} {o : Outcome α} (h₁ : Answers D₁ r₁' c o)
    (next' : α → Reader β)
    (h₂ : ∀ a ks k rest, D₁ ks a → c.rest = ks ++ k :: rest → o = .done a (c.past ks.length) →
      Answers (D₂ a) (next' a) (c.past ks.length) (next a (c.past ks.length)))
    (hdone : ∀ d ks a, d.rest.head? = c.rest.head? → D₁ ks a → r₁' d = .done a (d.past ks.length) →
      r' d = next' a (d.past ks.length))
    (hfault : ∀ d f d', d.rest.head? = c.rest.head? → r₁' d = .fault f d' → ∃ f' d'', r' d = .fault f' d'')
    (hD : ∀ ks a ks' b, D₁ ks a → D₂ a ks' b → D (ks ++ ks') b) (hgo : ∀ ks a, D₁ ks a → ∃ more b, D₂ a more b) :
    Answers D r' c (o.bind next) := by
  cases h₁ with
  | @fault f c' ks k rest hc hindex hbegins hreason =>
    obtain ⟨more, a, hmore⟩ := hbegins
    obtain ⟨more', b, hmore'⟩ := hgo _ _ hmore
    refine .fault ks hc hindex ⟨more ++ more', b, ?_⟩ ?_
    · rw [← List.append_assoc]
      exact hD _ _ _ _ hmore hmore'
    · refine hreason.behind [] fun d rest' hd hrefused => ?_
      obtain ⟨f', d', hf'⟩ := hrefused d hd
      refine hfault d f' d' ?_ hf'
      rw [hc, hd]
      exact head?_append_cons ks k _ _
  | @done a ks k rest hc ha hsame =>
    rw [Outcome.bind_done]
    refine (h₂ a ks k rest ha hc rfl).behind ks hc (fun d rest' hd hhead => ?_) fun ks' b hb => hD ks a ks' b ha hb
    -- `d` shows the kind that the first reader stopped at, so it stops there in `d` as well
    obtain ⟨rest₁, rfl⟩ : ∃ rest₁, rest' = k :: rest₁ := List.head?_eq_some_iff.1 hhead
    refine hdone d ks a ?_ ha (hsame d rest₁ hd)
    rw [hc, hd]
    exact head?_append_cons ks k _ _

/-- a value made of what was read -/
theorem Answers.map {D : List Kind → α → Prop} {D' : List Kind → β → Prop} {r' : Reader α} {c : Cursor} {o : Outcome α}
    (h : Answers D r' c o) (g : α → β) (hD : ∀ ks a, D ks a → D' ks (g a)) :
    Answers D' (fun d => (r' d).bind fun a d => .done (g a) d) c (o.bind fun a c => .done (g a) c) := by
  cases h with
  | @done a ks k rest hc ha hsame =>
    refine .done ks hc (hD _ _ ha) fun d rest' hd => ?_
    rw [hsame d rest' hd, Outcome.bind_done]
  | @fault f c' ks k rest hc hindex hbegins hreason =>
    obtain ⟨more, a, ha⟩ := hbegins
    refine .fault ks hc hindex ⟨more, g a, hD _ _ ha⟩ (hreason.behind [] fun d rest' hd hrefused => ?_)
    obtain ⟨f', d', hf'⟩ := hrefused d hd
    exact ⟨f', d', by rw [hf', Outcome.bind_fault]⟩

/-- one token is a value by itself -/
theorem answers_token {D : List Kind → α → Prop} {r' : Reader α} {c : Cursor} (hc : c.Marked) {k : Kind}
    {rest : List Kind} (hrest : c.rest = k :: rest) (hk : k ≠ .endOfInput) {a : α} (ha : D [k] a)
    (hsame : ∀ d rest', d.rest = k :: rest' → r' d = .done a (d.past 1)) : Answers D r' c (.done a (c.past 1)) := by
  obtain ⟨k', rest₁, hrest₁⟩ := (hc.past_one hrest hk).exists_cons
  have hc' : c.rest = [k] ++ k' :: rest₁ := by rw [hrest, ← hrest₁, Cursor.past_one_rest hrest, List.singleton_append]
  exact .done [k] hc' ha fun d rest' hd => hsame d _ hd

/-- a fault at the kind in view -/
theorem answers_here {D : List Kind → α → Prop} {r' : Reader α} {c c' : Cursor} {k : Kind} {rest : List Kind}
    {cause : Cause} (hc : c.rest = k :: rest) (hbegins : ∃ ks a, D ks a) (hreason : Reason r' [] k rest cause) :
    Answers D r' c (.fault ⟨cause, c.index⟩ c') :=
  .fault [] hc (Cursor.index_cons hc) hbegins hreason

/-- one more sum is open on both sides -/
theorem Answers.level {D : List Kind → α → Prop} {s' : Reader α} {c : Cursor} {o : Outcome α}
    (h : Answers D s' c.enter o) :
    Answers D (fun d => (s' d.enter).leave) c o.leave := by
  cases h with
  | done ks hc hD hsame =>
    refine .done ks hc hD fun d rest' hd => ?_
    rw [hsame d.enter rest' hd, Outcome.leave_done, Cursor.leave_past_enter]
  | fault ks hc hindex hbegins hreason =>
    refine .fault ks hc hindex hbegins (hreason.behind [] fun d rest' hd hrefused => ?_)
    obtain ⟨f', d', hf'⟩ := hrefused d.enter hd
    exact ⟨f', d'.leave, by rw [hf', Outcome.leave_fault]⟩

/-! ## The languages of the readers -/

/-- a phrase with its tree, at any depth -/
def Phrase.language (p : Phrase) (ks : List Kind) (e : Expr) : Prop :=
  ∃ ds, Derives p ks ds e

/-- kinds that go on with a phrase whose tree is `l` -/
def Phrase.goesOn (p : Phrase) (l : Expr) (ks : List Kind) (e : Expr) : Prop :=
  ∀ ks₀, p.language ks₀ l → p.language (ks₀ ++ ks) e

/-- the inside of a group and its closing delimiter -/
def GroupLanguage (k : Kind) (f : Expr → Expr) (ks : List Kind) (e' : Expr) : Prop :=
  ∃ ks₀ e, Phrase.sum.language ks₀ e ∧ ks = ks₀ ++ [k] ∧ e' = f e

theorem goesOn_nil (p : Phrase) (l : Expr) : p.goesOn l [] l := by
  intro ks₀ h₀
  rwa [List.append_nil]

/-- every phrase may be a lone number -/
theorem exists_language (p : Phrase) : ∃ ks e, p.language ks e := by
  have hprimary : Derives .primary [.number .two] [0] (.number .two) := .number .two
  refine ⟨[.number .two], .number .two, [0], ?_⟩
  cases p with
  | sum => exact .sumFirst (.productFirst (.unaryPlain (.powerFirst hprimary)))
  | product => exact .productFirst (.unaryPlain (.powerFirst hprimary))
  | unary => exact .unaryPlain (.powerFirst hprimary)
  | power => exact .powerFirst hprimary
  | exponent => exact .exponentPlain hprimary
  | primary => exact hprimary

/-! ## The readers -/

/-- in front of an end marker a run of signs ends, at the marker at the latest -/
theorem signs_marked {c : Cursor} (hc : c.Marked) :
    ∃ run k rest, (∀ k ∈ run, k.isSign = true) ∧ k.isSign = false ∧ c.rest = run ++ k :: rest ∧
      signs c = .done (signOf run) (c.past run.length) := by
  have hsplit : c.rest.takeWhile Kind.isSign ++ c.rest.dropWhile Kind.isSign = c.rest := List.takeWhile_append_dropWhile
  have hrun : ∀ k ∈ c.rest.takeWhile Kind.isSign, k.isSign = true := List.all_eq_true.1 List.all_takeWhile
  have hend : c.rest.dropWhile Kind.isSign ≠ [] := by
    intro hnil
    rw [hnil, List.append_nil] at hsplit
    have hsign := hrun .endOfInput (by rw [hsplit]; exact hc.mem List.mem_cons_self)
    cases hsign
  obtain ⟨k, rest, hdrop⟩ := List.exists_cons_of_ne_nil hend
  have hk : k.isSign = false := by simpa [hdrop] using List.head_dropWhile_not Kind.isSign hend
  rw [hdrop] at hsplit
  exact ⟨_, k, rest, hrun, hk, hsplit.symm, signs_run hrun hk hsplit.symm⟩

theorem signs_answers : Explained (fun run s => (∀ k ∈ run, k.isSign = true) ∧ s = signOf run) signs signs := by
  intro c hc
  obtain ⟨run, k, rest, hrun, hk, hrest, hread⟩ := signs_marked hc
  rw [hread]
  exact .done run hrest ⟨hrun, rfl⟩ fun d rest' hd => signs_run hrun hk hd

/-- signs in front of an operand; the rules for a phrase with and without them are given -/
theorem signed_answers {p q : Phrase} {operand operand' : Reader Expr} (ho : Explained q.language operand operand')
    (hplain : ∀ {ks ds e}, Derives q ks ds e → Derives p ks ds e)
    (hsigned : ∀ {ks ds e} (run : List Kind), run ≠ [] → (∀ k ∈ run, k = .plus ∨ k = .minus) → Derives q ks ds e →
      Derives p (run ++ ks) (List.replicate run.length 0 ++ ds)
        (.unary (if run.count .minus % 2 = 1 then .neg else .pos) e)) :
    Explained p.language (signed operand) (signed operand') := by
  intro c hc
  let D : Option Sign → List Kind → Expr → Prop := fun sign ks e => ∃ e₀, q.language ks e₀ ∧ e = applySign sign e₀
  have hoperand :
      ∀ sign c, c.Marked → Answers (D sign) (fun d => (operand' d).bind fun e d => .done (applySign sign e) d) c
      ((operand c).bind fun e c => .done (applySign sign e) c) :=
    fun sign c hc => (ho c hc).map (applySign sign) fun _ e he => ⟨e, he, rfl⟩
  refine (signs_answers c hc).andThen _ (fun sign run k rest _ hrest _ => hoperand sign _ (hc.past hrest)) ?_ ?_ ?_ ?_
  · intro d run sign _ _ hd
    rw [signed, hd, Outcome.bind_done]
  · intro d f d' _ hd
    exact ⟨f, d', by rw [signed, hd, Outcome.bind_fault]⟩
  · rintro run sign ks e ⟨hrun, rfl⟩ ⟨e₀, ⟨ds, hd⟩, rfl⟩
    by_cases hne : run = []
    · subst hne
      exact ⟨ds, hplain hd⟩
    · rw [signOf_of_ne_nil hne]
      exact ⟨_, hsigned run hne (sign_cases hrun) hd⟩
  · intro run sign _
    obtain ⟨ks, e, he⟩ := exists_language q
    exact ⟨ks, applySign sign e, e, he, rfl⟩

theorem closing_answers {kind : Kind} (hkind : kind ≠ .endOfInput) (e : Expr) :
    Explained (fun ks e' => ks = [kind] ∧ e' = e) (closing kind e) (closing kind e) := by
  intro c hc
  obtain ⟨k, rest, hrest⟩ := hc.exists_cons
  by_cases hk : k = kind
  · subst hk
    rw [closing_reads hrest hkind]
    exact answers_token hc hrest hkind ⟨rfl, rfl⟩ fun d rest' hd => closing_reads hd hkind e
  · have hrefused : ∀ {d : Cursor} {rest'}, d.rest = k :: rest' →
        closing kind e d = .fault ⟨.expectedToken kind k, d.index⟩ d := by
      intro d rest' hd
      rw [closing, if_neg (by simp [Cursor.sees, Cursor.peek_cons hd, hk]), Cursor.peek_cons hd]
    rw [hrefused hrest]
    exact answers_here hrest ⟨[kind], e, rfl, rfl⟩ (.syntactic rfl fun d rest' hd => ⟨_, _, hrefused hd⟩)

/-- the inside of a group and its closing delimiter -/
theorem group_answers {inner inner' : Reader Expr} (hi : Explained Phrase.sum.language inner inner') {kind : Kind}
    (hkind : kind ≠ .endOfInput) (f : Expr → Expr) :
    Explained (GroupLanguage kind f) (fun c => (inner c).bind fun e c => closing kind (f e) c)
      (fun c => (inner' c).bind fun e c => closing kind (f e) c) := by
  intro c hc
  refine (hi c hc).andThen (fun e => closing kind (f e))
    (fun e ks k rest _ hrest _ => closing_answers hkind (f e) _ (hc.past hrest)) ?_ ?_ ?_ ?_
  · intro d ks e _ _ hd
    rw [hd, Outcome.bind_done]
  · intro d f' d' _ hd
    exact ⟨f', d', by rw [hd, Outcome.bind_fault]⟩
  · rintro ks e ks' e' he ⟨rfl, rfl⟩
    exact ⟨ks, e, he, rfl, rfl⟩
  · intro ks e _
    exact ⟨[kind], f e, rfl, rfl⟩

/-- a primary that is a group behind the tokens `pre` -/
theorem delimited_answers {inner inner' : Reader Expr} (hi : Explained Phrase.sum.language inner inner')
    (pre : List Kind) (kind : Kind) (hkind : kind ≠ .endOfInput) (f : Expr → Expr)
    (hsame : ∀ (inner : Reader Expr) (d : Cursor) rest', d.rest = pre ++ rest' →
      primary inner d = (inner (d.past pre.length)).bind fun e c => closing kind (f e) c)
    (hderives : ∀ ks e, Phrase.sum.language ks e → Phrase.primary.language (pre ++ (ks ++ [kind])) (f e))
    {c : Cursor} {rest : List Kind} (hrest : c.rest = pre ++ rest) (hmarked : (c.past pre.length).Marked) :
    Answers Phrase.primary.language (primary inner') c (primary inner c) := by
  rw [hsame inner c rest hrest]
  refine (group_answers hi hkind f _ hmarked).behind pre hrest (fun d rest' hd _ => hsame inner' d rest' hd) ?_
  rintro ks e' ⟨ks₀, e, he, rfl, rfl⟩
  exact hderives ks₀ e he

theorem primary_ident (inner : Reader Expr) {d : Cursor} {name : String} {rest : List Kind}
    (hd : d.rest = .ident name :: rest) : primary inner d = identifier inner name d.index (d.past 1) := by
  rw [primary, Cursor.peek_cons hd, Cursor.advance_cons hd]

/-- the name of a function: its argument follows, or a fault is raised at the name -/
theorem function_answers {inner inner' : Reader Expr} (hi : Explained Phrase.sum.language inner inner') {c : Cursor}
    (hc : c.Marked) {name : String} {rest : List Kind} (hrest : c.rest = .ident name :: rest) {f : Func}
    (hv : Variable.ofName? name = none) (hf : Func.ofName? name = some f) :
    Answers Phrase.primary.language (primary inner') c (primary inner c) := by
  have hmarked : (c.past 1).Marked := hc.past_one hrest (by simp)
  obtain ⟨k, rest₁, hrest₁⟩ := hmarked.exists_cons
  obtain rfl : rest = k :: rest₁ := by rw [← hrest₁, Cursor.past_one_rest hrest]
  by_cases hk : k = .leftParen
  · subst hk
    have hmarked₂ : (c.past 2).Marked := by
      rw [← Cursor.past_past c 1 1]
      exact hmarked.past_one hrest₁ (by simp)
    refine delimited_answers hi [.ident name, .leftParen] .rightParen (by decide) (Expr.call f) ?_ ?_ hrest hmarked₂
    · intro inner d rest' hd
      have hd₁ : (d.past 1).rest = .leftParen :: rest' := Cursor.past_one_rest hd
      simp only [primary_ident inner hd, identifier, hv, hf, Cursor.sees_cons hd₁ (by decide), if_true,
        Cursor.advance_cons hd₁, Cursor.past_past, List.length_cons, List.length_nil]
    · rintro ks e ⟨ds, hd⟩
      rw [name_of_func hf]
      exact ⟨_, .call f hd⟩
  · have hsees : (c.past 1).sees .leftParen = false := by simp [Cursor.sees, Cursor.peek_cons hrest₁, hk]
    simp only [primary_ident inner hrest, identifier, hv, hf, hsees, Bool.false_eq_true, if_false]
    refine answers_here hrest (exists_language _) (.unknown rfl hv fun f' _ => ?_)
    simpa using hk

theorem primary_answers {inner inner' : Reader Expr} (hi : Explained Phrase.sum.language inner inner') :
    Explained Phrase.primary.language (primary inner) (primary inner') := by
  intro c hc
  obtain ⟨k, rest, hrest⟩ := hc.exists_cons
  -- a number or a variable is a primary by itself
  have htoken : k ≠ .endOfInput → ∀ e, Derives .primary [k] [0] e →
      (∀ (inner : Reader Expr) (d : Cursor) rest', d.rest = k :: rest' → primary inner d = .done e (d.past 1)) →
        Answers Phrase.primary.language (primary inner') c (primary inner c) := by
    intro hk e he hsame
    rw [hsame inner c rest hrest]
    exact answers_token hc hrest hk ⟨[0], he⟩ (hsame inner')
  cases k with
  | number x =>
    refine htoken (by simp) _ (.number x) fun inner d rest' hd => ?_
    rw [primary, Cursor.peek_cons hd, Cursor.advance_cons hd]
  | ident name =>
    cases hv : Variable.ofName? name with
    | some v =>
      refine htoken (by simp) (.var v) ?_ fun inner d rest' hd => ?_
      · rw [name_of_variable hv]
        exact .var v
      · rw [primary_ident inner hd, identifier, hv]
    | none =>
      cases hf : Func.ofName? name with
      | some f => exact function_answers hi hc hrest hv hf
      | none =>
        rw [primary_ident inner hrest, identifier, hv, hf]
        exact answers_here hrest (exists_language _) (.unknown rfl hv fun f h => by rw [hf] at h; cases h)
  | leftParen =>
    refine delimited_answers hi [.leftParen] .rightParen (by decide) id ?_ ?_ hrest (hc.past_one hrest (by decide))
    · intro inner d rest' hd
      simp only [primary, Cursor.peek_cons hd, Cursor.advance_cons hd, id_eq, List.length_singleton]
    · rintro ks e ⟨ds, hd⟩
      exact ⟨_, .parens hd⟩
  | pipe =>
    refine delimited_answers hi [.pipe] .pipe (by decide) Expr.modulus ?_ ?_ hrest (hc.past_one hrest (by decide))
    · intro inner d rest' hd
      simp only [primary, Cursor.peek_cons hd, Cursor.advance_cons hd, List.length_singleton]
    · rintro ks e ⟨ds, hd⟩
      exact ⟨_, .bars hd⟩
  | _ =>
    simp only [primary, Cursor.peek_cons hrest]
    refine answers_here hrest (exists_language _) (.syntactic rfl fun d rest' hd => ?_)
    rw [List.nil_append] at hd
    simp [primary, Cursor.peek_cons hd]

/-! ## Loops over operands -/

/-- `op?` finds the operators `ops` by the kind in view -/
def Finds (op? : Cursor → Option BinaryOp) (ops : List BinaryOp) : Prop :=
  ∀ c k rest, c.rest = k :: rest → ∀ op, op? c = some op ↔ op ∈ ops ∧ k = operatorKind op

theorem finds_power : Finds powerOp? [.pow] := by
  intro c k rest hc op
  cases k <;> cases op <;> simp [powerOp?, Cursor.sees, Cursor.atEnd, Cursor.peek_cons hc, hc, operatorKind]

theorem finds_product : Finds productOp? [.mul, .div] := by
  intro c k rest hc op
  cases k <;> cases op <;> simp [productOp?, Cursor.peek_cons hc, operatorKind]

theorem finds_sum : Finds sumOp? [.add, .sub] := by
  intro c k rest hc op
  cases k <;> cases op <;> simp [sumOp?, Cursor.peek_cons hc, operatorKind]

/-- the same operator is found where the same kind is in view -/
theorem Finds.same {op? : Cursor → Option BinaryOp} {ops : List BinaryOp} (h : Finds op? ops) {c d : Cursor} {k : Kind}
    {rest rest' : List Kind} (hc : c.rest = k :: rest) (hd : d.rest = k :: rest') : op? d = op? c := by
  refine Option.ext fun op => ?_
  rw [h c k rest hc op, h d k rest' hd op]

/-- an operator and the operand behind it -/
def OperandLanguage (q : Phrase) (op : BinaryOp) (ks : List Kind) (r : Expr) : Prop :=
  ∃ ks', q.language ks' r ∧ ks = operatorKind op :: ks'

theorem operand_answers {q : Phrase} {op? : Cursor → Option BinaryOp} {ops : List BinaryOp} (hops : Finds op? ops)
    {operand operand' : Reader Expr} (ho : Explained q.language operand operand') {c : Cursor} (hc : c.Marked) {op :
      BinaryOp}
    (hop : op? c = some op) :
    Answers (OperandLanguage q op) (fun d => operand' d.advance) c (operand c.advance) := by
  obtain ⟨k, rest, hrest⟩ := hc.exists_cons
  obtain ⟨_, rfl⟩ := (hops c k rest hrest op).1 hop
  rw [Cursor.advance_cons hrest]
  refine (ho _ (hc.past_one hrest (operatorKind_ne_end op))).behind [operatorKind op] hrest ?_ ?_
  · intro d rest' hd _
    rw [Cursor.advance_cons hd]
    rfl
  · intro ks r hr
    exact ⟨ks, hr, rfl⟩

/-- one round of the loop of a phrase `p` over operands `q`, given what comes of its operand and of the rounds behind it
-/
theorem chain_answers_next {p q : Phrase} {op? : Cursor → Option BinaryOp} {ops : List BinaryOp} (hops : Finds op? ops)
    (hnext : ∀ op ∈ ops, ∀ {ks ds l ks' ds' r}, Derives p ks ds l → Derives q ks' ds' r →
      Derives p (ks ++ operatorKind op :: ks') (ds ++ 0 :: ds') (.binary op l r))
    {operand' : Reader Expr} {c : Cursor} (hc : c.Marked) {op : BinaryOp} (hop : op? c = some op) {l : Expr}
    {o : Outcome Expr} (h : Answers (OperandLanguage q op) (fun d => operand' d.advance) c o)
    (next : Expr → Reader Expr) (hrounds : ∀ r c', o = .done r c' → c'.Marked →
      Answers (p.goesOn (.binary op l r)) (chain op? operand' (.binary op l r)) c' (next r c')) :
    Answers (p.goesOn l) (chain op? operand' l) c (o.bind next) := by
  obtain ⟨k, rest, hrest⟩ := hc.exists_cons
  have hfound : ∀ d : Cursor, d.rest.head? = c.rest.head? → op? d = some op ∧ 0 < d.rest.length := by
    intro d hd
    rw [hrest, List.head?_cons, List.head?_eq_some_iff] at hd
    obtain ⟨rest', hd⟩ := hd
    exact ⟨(hops.same hrest hd).trans hop, by rw [hd]; exact Nat.succ_pos _⟩
  refine h.andThen (fun r => chain op? operand' (.binary op l r))
    (fun r ks k rest _ hks ho => hrounds r _ ho (hc.past hks)) ?_ ?_ ?_ ?_
  · rintro d ks r hd ⟨ks', _, rfl⟩ hr
    obtain ⟨hop', hpos⟩ := hfound d hd
    refine chain_step hop' hr ?_
    simp only [Cursor.past, List.length_drop, List.length_cons]
    omega
  · intro d f d' hd hf
    refine ⟨f, d', ?_⟩
    rw [chain, (hfound d hd).1]
    simp only [hf]
  · rintro ks r ks' e ⟨ks₁, ⟨ds₁, hr⟩, rfl⟩ he ks₀ ⟨ds₀, hl⟩
    rw [← List.append_assoc]
    exact he _ ⟨_, hnext op ((hops c k rest hrest op).1 hop).1 hl hr⟩
  · intro ks r _
    exact ⟨[], _, goesOn_nil p _⟩

/-- the loop of a phrase `p` over operands `q` -/
theorem chain_answers {p q : Phrase} {op? : Cursor → Option BinaryOp} {ops : List BinaryOp} (hops : Finds op? ops)
    (hnext : ∀ op ∈ ops, ∀ {ks ds l ks' ds' r}, Derives p ks ds l → Derives q ks' ds' r →
      Derives p (ks ++ operatorKind op :: ks') (ds ++ 0 :: ds') (.binary op l r))
    {operand operand' : Reader Expr} (ho : Explained q.language operand operand') (l : Expr) (c : Cursor) (hc :
      c.Marked) :
    Answers (p.goesOn l) (chain op? operand' l) c (chain op? operand l c) := by
  fun_induction chain op? operand l c with
  | case1 l c hnone =>
    obtain ⟨k, rest, hrest⟩ := hc.exists_cons
    exact .done [] hrest (goesOn_nil p l) fun d rest' hd => chain_stop ((hops.same hrest hd).trans hnone) _ _
  | case2 l c op hop f c' hfault =>
    have h := operand_answers hops ho hc hop
    rw [hfault] at h
    refine chain_answers_next hops hnext hc hop h (fun r => chain op? operand (.binary op l r)) ?_
    intro _ _ hdone
    cases hdone
  | case3 l c op hop r c' hr _ ih =>
    have h := operand_answers hops ho hc hop
    rw [hr] at h
    refine chain_answers_next hops hnext hc hop h (fun r => chain op? operand (.binary op l r)) ?_
    rintro _ _ ⟨⟩ hc'
    exact ih hc'
  | case4 l c op hop r c' hr hlong =>
    -- an operand behind an operator takes something
    have h := operand_answers hops ho hc hop
    rw [hr] at h
    cases h with
    | done ks hrest hks _ =>
      obtain ⟨ks', _, rfl⟩ := hks
      refine absurd ?_ hlong
      rw [Cursor.past_rest hrest, hrest]
      simp

/-- an operand and the loop behind it -/
theorem chained_answers {p q s : Phrase} {op? : Cursor → Option BinaryOp} {ops : List BinaryOp} (hops : Finds op? ops)
    (hfirst : ∀ {ks ds e}, Derives s ks ds e → Derives p ks ds e)
    (hnext : ∀ op ∈ ops, ∀ {ks ds l ks' ds' r}, Derives p ks ds l → Derives q ks' ds' r →
      Derives p (ks ++ operatorKind op :: ks') (ds ++ 0 :: ds') (.binary op l r))
    {first first' operand operand' : Reader Expr} (hf : Explained s.language first first')
    (ho : Explained q.language operand operand') :
    Explained p.language (chained op? first operand) (chained op? first' operand') := by
  intro c hc
  refine (hf c hc).andThen (chain op? operand')
    (fun l ks k rest _ hrest _ => chain_answers hops hnext ho l _ (hc.past hrest)) ?_ ?_ ?_ ?_
  · intro d ks l _ _ hd
    rw [chained, hd, Outcome.bind_done]
  · intro d f d' _ hd
    exact ⟨f, d', by rw [chained, hd, Outcome.bind_fault]⟩
  · rintro ks l ks' e ⟨ds, hd⟩ he
    exact he ks ⟨ds, hfirst hd⟩
  · intro ks l _
    exact ⟨[], l, goesOn_nil p l⟩

/-! ## Expressions -/

theorem power_answers {inner inner' : Reader Expr} (hi : Explained Phrase.sum.language inner inner') :
    Explained Phrase.power.language (power inner) (power inner') := by
  have hexponent : Explained Phrase.exponent.language (signed (primary inner)) (signed (primary inner')) :=
    signed_answers (primary_answers hi) .exponentPlain .exponentSigned
  refine chained_answers finds_power .powerFirst ?_ (primary_answers hi) hexponent
  intro op hop ks ds l ks' ds' r hl hr
  rw [List.mem_singleton.1 hop]
  exact .powerNext hl hr

theorem unary_answers {inner inner' : Reader Expr} (hi : Explained Phrase.sum.language inner inner') :
    Explained Phrase.unary.language (unary inner) (unary inner') :=
  signed_answers (power_answers hi) .unaryPlain .unarySigned

theorem product_answers {inner inner' : Reader Expr} (hi : Explained Phrase.sum.language inner inner') :
    Explained Phrase.product.language (product inner) (product inner') :=
  chained_answers finds_product .productFirst
    (fun op hop _ _ _ _ _ _ hl hr => .productNext op (by simpa using hop) hl hr)
    (unary_answers hi) (unary_answers hi)

theorem sum_answers {inner inner' : Reader Expr} (hi : Explained Phrase.sum.language inner inner') :
    Explained Phrase.sum.language (sum inner) (sum inner') :=
  chained_answers finds_sum .sumFirst (fun op hop _ _ _ _ _ _ hl hr => .sumNext op (by simpa using hop) hl hr)
    (product_answers hi) (product_answers hi)

/-- **Expressions.** What comes of an expression is explained by the kinds ahead, and comes of it with more levels too.
-/
theorem expression_answers {n m : Nat} (hle : n ≤ m) : Explained Phrase.sum.language (expression n) (expression m) := by
  induction n generalizing m with
  | zero =>
    intro c hc
    obtain ⟨k, rest, hrest⟩ := hc.exists_cons
    exact answers_here hrest (exists_language _) .tooDeep
  | succ n ih =>
    intro c hc
    obtain ⟨m, rfl⟩ : ∃ m', m = m' + 1 := ⟨m - 1, by omega⟩
    exact (sum_answers (ih (Nat.le_of_succ_le_succ hle)) c.enter hc).level

end Grammar

namespace Parser

open Grammar

/-- a list of kinds that the grammar derives, whatever its length and depth -/
def Sentence (ks : List Kind) : Prop :=
  ∃ ds e, Derives .sum ks ds e

/-- with enough levels every sentence is read up to its end -/
theorem sentence_reads {w : List Kind} (hw : Sentence w) (n : Nat) :
    ∃ m, n ≤ m ∧ ∃ e c', expression m ⟨0, w ++ [.endOfInput], .endOfInput, 0⟩ = .done e c' ∧ c'.atEnd = true := by
  obtain ⟨ds, e, h⟩ := hw
  have hready : Cursor.Ready ⟨0, w ++ [.endOfInput], .endOfInput, 0⟩ :=
    ⟨fun k hk => by simpa [eq_comm] using hk, fun _ => rfl⟩
  have hds : ∀ d ∈ ds, d < n + (ds.sum + 1) := fun d hd => by have := List.le_sum_of_mem hd; omega
  exact ⟨_, Nat.le_add_right n _, e, (accepts_iff hready rfl (derives_no_end h) (.inr ⟨[], rfl⟩)).2 ⟨ds, h, hds⟩⟩

/-- the kinds up to some token begin no sentence, if reading never gets from them to an end -/
theorem not_sentence {ks : List Kind} {k : Kind} {n : Nat}
    (h : ∀ m, n ≤ m → ∀ (d : Cursor) rest' e d', d.rest = ks ++ k :: rest' → expression m d = .done e d' →
      d'.atEnd = false)
    {w : List Kind} (hw : Sentence w) : ¬ ks ++ [k] <+: w ++ [.endOfInput] := by
  rintro ⟨rest', hrest'⟩
  obtain ⟨m, hm, e, d', hd', hend⟩ := sentence_reads hw n
  rw [List.append_assoc, List.singleton_append] at hrest'
  rw [h m hm _ rest' e d' hrest'.symm hd'] at hend
  cases hend

/-- the kind `k` is blamed rightly for the cause: what lies in front of it begins a sentence, and no sentence goes on
with it, or it is an identifier that means nothing there -/
def Blamed (cause : Cause) (ks : List Kind) (k : Kind) (rest : List Kind) : Prop :=
  (∃ w, Sentence w ∧ ks <+: w) ∧
  ((cause.kind = .syntactic ∧ ∀ w, Sentence w → ¬ ks ++ [k] <+: w ++ [.endOfInput]) ∨
   ∃ name, cause.kind = .unknownIdentifier ∧ k = .ident name ∧ Variable.ofName? name = none ∧
     ∀ f, Func.ofName? name = some f → rest.head? ≠ some .leftParen)

/-- a place is found by the number of kinds in front of it -/
theorem split_unique {l ks ks' : List Kind} {k k' : Kind} {rest rest' : List Kind} (h : l = ks ++ k :: rest)
    (h' : l = ks' ++ k' :: rest') (hlength : ks.length = ks'.length) : ks' = ks ∧ k' = k := by
  obtain ⟨hks, htail⟩ := List.append_inj (h'.symm.trans h) hlength.symm
  exact ⟨hks, (List.cons.inj htail).1⟩

theorem blamed_of_fault {n : Nat} {c c' : Cursor} (hc : c.Marked) {f : Fault} (h : expression n c = .fault f c')
    (hdeep : f.cause ≠ .tooDeep) :
    ∃ ks k rest, c.rest = ks ++ k :: rest ∧ f.index = c.passed + ks.length ∧ Blamed f.cause ks k rest := by
  obtain ⟨cause, index⟩ := f
  have hanswers : ∀ m, n ≤ m → Answers Phrase.sum.language (expression m) c (.fault ⟨cause, index⟩ c') :=
    fun m hm => h ▸ expression_answers hm c hc
  cases hanswers n le_rfl with
  | @fault _ _ ks k rest hrest hindex hbegins hreason =>
    obtain ⟨more, e, ds, hmore⟩ := hbegins
    refine ⟨ks, k, rest, hrest, hindex, ⟨ks ++ more, ⟨ds, e, hmore⟩, List.prefix_append ks more⟩, ?_⟩
    cases hreason with
    | tooDeep => exact absurd rfl hdeep
    | unknown hk hvariable hfunction => exact .inr ⟨_, rfl, hk, hvariable, hfunction⟩
    | syntactic hkind _ =>
      refine .inl ⟨hkind, fun w hw => not_sentence (n := n) (fun m hm d rest' e d' hd hread => ?_) hw⟩
      cases hanswers m hm with
      | @fault _ _ ks' k' rest₁ hrest' hindex' _ hreason' =>
        obtain ⟨rfl, rfl⟩ := split_unique hrest hrest' (Nat.add_left_cancel (hindex.symm.trans hindex'))
        cases hreason' with
        | tooDeep => exact absurd rfl hdeep
        | unknown => cases hkind
        | syntactic _ hrefused =>
          obtain ⟨f, d'', hfault⟩ := hrefused d rest' hd
          rw [hfault] at hread
          cases hread

theorem blamed_of_trailing {n : Nat} {c c' : Cursor} (hc : c.Marked) {e : Expr} (h : expression n c = .done e c')
    (hend : c'.atEnd = false) :
    ∃ ks k rest, c.rest = ks ++ k :: rest ∧ c'.index = c.passed + ks.length ∧
      Blamed (.trailingToken c'.peek) ks k rest := by
  have hanswers : ∀ m, n ≤ m → Answers Phrase.sum.language (expression m) c (.done e c') :=
    fun m hm => h ▸ expression_answers hm c hc
  cases hanswers n le_rfl with
  | @done _ ks k rest hrest hks _ =>
    have hat : (c.past ks.length).rest = k :: rest := Cursor.past_rest hrest
    have hk : k ≠ .endOfInput := by
      rintro rfl
      rw [atEnd_of_ending (.inr ⟨rest, hat⟩)] at hend
      cases hend
    obtain ⟨ds, hds⟩ := hks
    refine ⟨ks, k, rest, hrest, Cursor.index_cons hat, ⟨ks, ⟨ds, e, hds⟩, List.prefix_rfl⟩, .inl ⟨rfl, ?_⟩⟩
    refine fun w hw => not_sentence (n := n) (fun m hm d rest' e' d' hd hread => ?_) hw
    generalize hc' : c.past ks.length = c' at hanswers
    cases hanswers m hm with
    | @done _ ks' k' rest₁ hrest' _ hsame =>
      obtain ⟨rfl, rfl⟩ := split_unique hrest hrest' (Nat.add_left_cancel (congrArg Cursor.passed hc'))
      rw [hsame d rest' hd] at hread
      cases hread
      have hat' : (d.past ks'.length).rest = k' :: rest' := Cursor.past_rest hd
      simp [Cursor.atEnd, Cursor.peek_cons hat', hat', hk]

/-- the tokens around the place that a list of their kinds shows -/
theorem tokens_around {ts : List Token} {eof : Token} {ks : List Kind} {k : Kind} {rest : List Kind}
    (h : (ts ++ [eof]).map Token.kind = ks ++ k :: rest) :
    (∃ t, (ts ++ [eof])[ks.length]? = some t ∧ t.kind = k) ∧ (ts.take ks.length).map Token.kind = ks ∧
      ((ts ++ [eof]).take (ks.length + 1)).map Token.kind = ks ++ [k] ∧
      (ts ++ [eof])[ks.length + 1]?.map Token.kind = rest.head? := by
  have hlength : ts.length + 1 = ks.length + (rest.length + 1) := by simpa using congrArg List.length h
  have hfront : (ts ++ [eof]).take ks.length = ts.take ks.length := List.take_append_of_le_length (by omega)
  refine ⟨?_, ?_, ?_, ?_⟩
  · refine Option.map_eq_some_iff.1 ?_
    rw [← List.getElem?_map, h]
    simp
  · rw [← hfront, List.map_take, h, List.take_left]
  · rw [List.map_take, h, List.take_append]
    simp
  · rw [← List.getElem?_map, h, List.getElem?_append_right (by omega)]
    simp [List.head?_eq_getElem?]

/-- a rejection that is not about length or depth blames a token rightly -/
theorem blamed_of_parse {ts : List Token} {eof : Token} (heof : eof.kind = .endOfInput) {r : Rejection}
    (h : (ofTokens (ts ++ [eof])).parse.1 = .error r) (hlong : r.cause ≠ .tooLong) (hdeep : r.cause ≠ .tooDeep) :
    ∃ ks k rest, (ts ++ [eof]).map Token.kind = ks ++ k :: rest ∧
      r.position = ((ts ++ [eof])[ks.length]?.map Token.position).getD 0 ∧ Blamed r.cause ks k rest := by
  set p := ofTokens (ts ++ [eof]) with hp
  have htokens : p.tokens = ts ++ [eof] := by simp [hp, ofTokens]
  have hpassed : p.cursor.passed = 0 := by rw [hp, cursor_ofTokens]
  have hrest : p.cursor.rest = (ts ++ [eof]).map Token.kind := by simp [hp, cursor_ofTokens]
  have hmarked : p.cursor.Marked := ⟨ts.map Token.kind, by rw [hp, cursor_ofTokens, heof]⟩
  have hlocated : ∀ f : Fault, (∃ ks k rest, p.cursor.rest = ks ++ k :: rest ∧ f.index = p.cursor.passed + ks.length ∧
      Blamed f.cause ks k rest) → ∃ ks k rest, (ts ++ [eof]).map Token.kind = ks ++ k :: rest ∧
        (p.locate f).position = ((ts ++ [eof])[ks.length]?.map Token.position).getD 0 ∧ Blamed f.cause ks k rest := by
    rintro f ⟨ks, k, rest, hks, hindex, hblamed⟩
    rw [hpassed, Nat.zero_add] at hindex
    exact ⟨ks, k, rest, hrest.symm.trans hks, by rw [locate, htokens, hindex], hblamed⟩
  rcases parse_error_cases h with ⟨t, _, rfl⟩ | ⟨f, c, hread, rfl⟩ | ⟨e, c, hread, hend, rfl⟩
  · exact absurd rfl hlong
  · exact hlocated f (blamed_of_fault hmarked hread hdeep)
  · exact hlocated ⟨.trailingToken c.peek, c.index⟩ (blamed_of_trailing hmarked hread hend)

/-- **Faults name the first token that cannot be right.** A stream that is rejected, but not for its length or depth, is
rejected at the offset of a token behind the beginning of a sentence. A syntactic rejection is at a token that no
sentence goes on with; the other ones are at an identifier that is no variable and is not a function in front of a
parenthesis. -/
theorem fault_location (ts : List Token) (eof : Token) (heof : eof.kind = .endOfInput) (r : Rejection)
    (h : (ofTokens (ts ++ [eof])).parse.1 = .error r) (hlong : r.cause ≠ .tooLong) (hdeep : r.cause ≠ .tooDeep) :
    ∃ i t, (ts ++ [eof])[i]? = some t ∧ r.position = t.position ∧
      (∃ w, Sentence w ∧ (ts.take i).map Token.kind <+: w) ∧
      ((r.cause.kind = .syntactic ∧
          ∀ w, Sentence w → ¬ ((ts ++ [eof]).take (i + 1)).map Token.kind <+: w ++ [.endOfInput]) ∨
       (r.cause.kind = .unknownIdentifier ∧ ∃ name, t.kind = .ident name ∧ (∀ v : Variable, name ≠ v.name) ∧
          ((∀ f : Func, name ≠ f.name) ∨
           (∃ f : Func, name = f.name) ∧ ∃ u, (ts ++ [eof])[i + 1]? = some u ∧ u.kind ≠ .leftParen))) := by
  obtain ⟨ks, k, rest, hsplit, hposition, hbegins, hblamed⟩ := blamed_of_parse heof h hlong hdeep
  obtain ⟨⟨t, ht, hk⟩, hfront, hupto, hnext⟩ := tokens_around hsplit
  refine ⟨ks.length, t, ht, by rw [hposition, ht]; rfl, by rwa [hfront], ?_⟩
  rw [hupto]
  rcases hblamed with hsyntactic | ⟨name, hkind, hname, hvariable, hfunction⟩
  · exact .inl hsyntactic
  · refine .inr ⟨hkind, name, hk.trans hname, fun v hv => ?_, ?_⟩
    · rw [hv, ofName?_variable] at hvariable
      cases hvariable
    · by_cases hf : ∃ f : Func, name = f.name
      · obtain ⟨f, rfl⟩ := hf
        have hhead := hfunction f (ofName?_func f).1
        -- the end marker at the latest stands behind an identifier
        obtain ⟨k', rest', rfl⟩ : ∃ k' rest', rest = k' :: rest' := by
          refine List.exists_cons_of_ne_nil fun hnil => ?_
          have hlast := congrArg List.getLast? hsplit
          simp [hnil, hname, heof] at hlast
        obtain ⟨u, hu, rfl⟩ := Option.map_eq_some_iff.1 hnext
        exact .inr ⟨⟨f, rfl⟩, u, hu, fun hparen => hhead (by rw [hparen]; rfl)⟩
      · exact .inl fun f hname => hf ⟨f, hname⟩

/-- the stream of `cos(|z - )`: the operand of a minus is missing inside two groups -/
def missingOperand : List Token :=
  [⟨.ident "cos", "cos", 0⟩, ⟨.leftParen, "(", 3⟩, ⟨.pipe, "|", 4⟩, ⟨.ident "z", "z", 5⟩, ⟨.minus, "-", 7⟩,
    ⟨.rightParen, ")", 9⟩]

theorem fault_location_missingOperand :
    (ofTokens (missingOperand ++ [⟨.endOfInput, "", 10⟩])).parse.1 = .error ⟨.expectedExpression .rightParen, 9⟩ ∧
    (∃ w, Sentence w ∧ [.ident "cos", .leftParen, .pipe, .ident "z", .minus] <+: w) ∧
    ∀ w, Sentence w → ¬ [.ident "cos", .leftParen, .pipe, .ident "z", .minus, .rightParen] <+: w ++ [.endOfInput] := by
  have hparse : (ofTokens (missingOperand ++ [⟨.endOfInput, "", 10⟩])).parse.1 =
      .error ⟨.expectedExpression .rightParen, 9⟩ := by
    decide +kernel
  obtain ⟨i, t, ht, hposition, hbegins, hblamed⟩ := fault_location missingOperand _ rfl _ hparse (by decide) (by decide)
  have honly : ∀ j < 7, (missingOperand ++ [⟨.endOfInput, "", 10⟩])[j]?.map Token.position = some 9 → j = 5 := by decide
  obtain rfl : i = 5 := honly i (List.getElem?_eq_some_iff.1 ht).1 (by rw [ht, Option.map_some, ← hposition])
  rcases hblamed with ⟨_, hnone⟩ | ⟨hkind, _⟩
  · exact ⟨hparse, hbegins, hnone⟩
  · cases hkind

end Parser

end EscapeTime
