/-
The parser as loops and calls, and that they end.

In `Grammar.expression` reading ends by construction: signs are taken as one run, the levels left are counted down, and
a loop over operands gives up where an operand takes nothing. Here nothing of that is built in. Signs are passed one a
turn, a loop goes on as long as an operator is in view, and what a group holds is read by a call that only the count of
open sums refuses. `Descent.expression fuel` runs this with so many turns for each loop and so many calls inside one
another; `none` says that the fuel was used up.

`ComesTo run need o` says that `run` gives nothing but the outcome `o` on any fuel, and gives it on `need` units, unless
`o` is the fault of signs without end; then it gives nothing on any fuel.

- `signs_comesTo`, `chain_comesTo`: the two loops.
- `expression_runs`: an expression needs a unit for each token ahead and for each level left, no matter how often the
  last token of a stream is seen again.
- `descend_comesTo`, `descend_eq_none`: what a call comes to on fuel, with the fuel that is enough, and when no fuel is.
- `parse_terminates`: so a call ends on every stream whose last token is no sign.
-/
import EscapeTime.Proofs.Grammar.Stream
import EscapeTime.Proofs.Token.Spelling

namespace EscapeTime

open Grammar (applySign operatorKind powerOp? productOp? sumOp?)

namespace Descent

variable {α β : Type}

/-- reads a value from a place in a stream, or has its fuel used up -/
abbrev Attempt (α : Type) :=
  Cursor → Option (Outcome α)

/-- go on from a value; a fault stays, and so does a lack of fuel -/
def andThen (o : Option (Outcome α)) (next : α → Attempt β) : Option (Outcome β) :=
  match o with
  | none => none
  | some (.done a c) => next a c
  | some (.fault f c) => some (.fault f c)

/-- what some signs and further ones behind them amount to -/
def joined : Option Sign → Option Sign → Option Sign
  | none, s => s
  | s, none => s
  | some a, some b => some (if a = b then .pos else .neg)

/-- signs, one a turn -/
def signs : (turns : Nat) → (sofar : Option Sign) → Attempt (Option Sign)
  | 0, _, _ => none
  | turns + 1, sofar, c =>
    match c.peek with
    | .plus => signs turns (joined sofar (some .pos)) c.advance
    | .minus => signs turns (joined sofar (some .neg)) c.advance
    | _ => some (.done sofar c)

/-- signs, then an operand -/
def signed (turns : Nat) (operand : Attempt Expr) : Attempt Expr := fun c =>
  andThen (signs turns none c) fun sign c => andThen (operand c) fun e c => some (.done (applySign sign e) c)

/-- what a group holds, and its closing token -/
def group (inner : Attempt Expr) (kind : Kind) (wrap : Expr → Expr) : Attempt Expr := fun c =>
  andThen (inner c) fun e c => some (Grammar.closing kind (wrap e) c)

/-- what an identifier stands for -/
def identifier (inner : Attempt Expr) (name : String) (index : Nat) : Attempt Expr := fun c =>
  match Variable.ofName? name, Func.ofName? name with
  | some v, _ => some (.done (.var v) c)
  | none, some f =>
    if c.sees .leftParen then group inner .rightParen (.call f) c.advance
    else some (.fault ⟨.unknownIdentifier name, index⟩ c)
  | none, none => some (.fault ⟨.unknownIdentifier name, index⟩ c)

/-- a number, a variable, a function applied, or a group -/
def primary (inner : Attempt Expr) : Attempt Expr := fun c =>
  match c.peek with
  | .number value => some (.done (.number value) c.advance)
  | .ident name => identifier inner name c.index c.advance
  | .leftParen => group inner .rightParen id c.advance
  | .pipe => group inner .pipe .modulus c.advance
  | .endOfInput => some (.fault ⟨.unexpectedEnd, c.index⟩ c.advance)
  | kind => some (.fault ⟨.expectedExpression kind, c.index⟩ c.advance)

/-- further operands as long as an operator is in view, one a turn -/
def chain (op? : Cursor → Option BinaryOp) (operand : Attempt Expr) : (turns : Nat) → Expr → Attempt Expr
  | 0, _, _ => none
  | turns + 1, left, c =>
    match op? c with
    | none => some (.done left c)
    | some op => andThen (operand c.advance) fun right c => chain op? operand turns (.binary op left right) c

def chained (op? : Cursor → Option BinaryOp) (turns : Nat) (first operand : Attempt Expr) : Attempt Expr := fun c =>
  andThen (first c) fun e c => chain op? operand turns e c

def power (fuel : Nat) (inner : Attempt Expr) : Attempt Expr :=
  chained powerOp? fuel (primary inner) (signed fuel (primary inner))

def unary (fuel : Nat) (inner : Attempt Expr) : Attempt Expr :=
  signed fuel (power fuel inner)

def product (fuel : Nat) (inner : Attempt Expr) : Attempt Expr :=
  chained productOp? fuel (unary fuel inner) (unary fuel inner)

def sum (fuel : Nat) (inner : Attempt Expr) : Attempt Expr :=
  chained sumOp? fuel (product fuel inner) (product fuel inner)

/-- a call: one more sum is open, unless that is one too many -/
def expression : (fuel : Nat) → Attempt Expr
  | 0 => fun _ => none
  | fuel + 1 => fun c =>
    if Parser.maxDepth < c.enter.depth then some (.fault ⟨.tooDeep, c.enter.index⟩ c.enter)
    else (sum fuel (expression fuel) c.enter).map Outcome.leave

end Descent

/-- the fault that stands for a run without end -/
def Outcome.Endless {α : Type} : Outcome α → Prop
  | .done _ _ => False
  | .fault f _ => f.cause = .unendingSigns

namespace Descent

variable {α β : Type} {run : Nat → Option (Outcome α)} {need : Nat} {o : Outcome α}

/-! ## What a run on fuel comes to -/

/-- on any fuel `run` gives `o` or nothing, and on `need` units it gives `o`; if `o` is endless, it gives nothing on any
fuel -/
structure ComesTo (run : Nat → Option (Outcome α)) (need : Nat) (o : Outcome α) : Prop where
  only : ∀ fuel o', run fuel = some o' → o' = o ∧ ¬ o.Endless
  enough : ¬ o.Endless → ∀ fuel, need ≤ fuel → run fuel = some o

theorem ComesTo.mono (h : ComesTo run need o) {need' : Nat} (hle : need ≤ need') : ComesTo run need' o :=
  ⟨h.only, fun hends fuel hfuel => h.enough hends fuel (by omega)⟩

/-- fuel that is there in any case -/
theorem ComesTo.shift (h : ComesTo run need o) (extra : Nat) :
    ComesTo (fun fuel => run (fuel + extra)) (need - extra) o :=
  ⟨fun fuel => h.only (fuel + extra), fun hends fuel hfuel => h.enough hends (fuel + extra) (by omega)⟩

theorem comesTo_const (need : Nat) (h : ¬ o.Endless) : ComesTo (fun _ => some o) need o :=
  ⟨fun _ _ heq => ⟨(Option.some.inj heq).symm, h⟩, fun _ _ _ => rfl⟩

theorem comesTo_done (need : Nat) (a : α) (c : Cursor) : ComesTo (fun _ => some (.done a c)) need (.done a c) :=
  comesTo_const need fun hno => hno

theorem comesTo_fault (need : Nat) {f : Fault} (h : f.cause ≠ .unendingSigns) (c : Cursor) :
    ComesTo (α := α) (fun _ => some (.fault f c)) need (.fault f c) :=
  comesTo_const need h

/-- a turn or a call in front costs one unit -/
theorem ComesTo.turn (h : ComesTo run need o) (run' : Nat → Option (Outcome α)) (hzero : run' 0 = none)
    (hsucc : ∀ fuel, run' (fuel + 1) = run fuel) : ComesTo run' (need + 1) o := by
  constructor
  · intro fuel o' heq
    cases fuel with
    | zero =>
      rw [hzero] at heq
      cases heq
    | succ fuel => exact h.only fuel o' (hsucc fuel ▸ heq)
  · intro hends fuel hfuel
    cases fuel with
    | zero => omega
    | succ fuel =>
      rw [hsucc]
      exact h.enough hends fuel (by omega)

/-- one thing after another -/
theorem ComesTo.andThen (h : ComesTo run need o) {next : α → Grammar.Reader β} {next' : Nat → α → Attempt β}
    (hnext : ∀ a c, o = .done a c → ComesTo (fun fuel => next' fuel a c) need (next a c)) :
    ComesTo (fun fuel => andThen (run fuel) (next' fuel)) need (o.bind next) := by
  constructor
  · intro fuel o' heq
    cases hrun : run fuel with
    | none => simp [hrun, Descent.andThen] at heq
    | some o₁ =>
      obtain ⟨rfl, hends⟩ := h.only fuel o₁ hrun
      cases o₁ with
      | done a c => exact (hnext a c rfl).only fuel o' (by simpa [hrun, Descent.andThen] using heq)
      | fault f c =>
        simp only [hrun, Descent.andThen, Option.some.injEq] at heq
        exact ⟨heq.symm, hends⟩
  · intro hends fuel hfuel
    cases o with
    | done a c =>
      have hrun := h.enough (fun hno => hno) fuel hfuel
      simpa [hrun, Descent.andThen] using (hnext a c rfl).enough hends fuel hfuel
    | fault f c =>
      have hrun := h.enough hends fuel hfuel
      simp [hrun, Descent.andThen]

/-- one more sum is open while reading -/
theorem ComesTo.level (h : ComesTo run need o) : ComesTo (fun fuel => (run fuel).map Outcome.leave) need o.leave := by
  have hsame : o.leave.Endless ↔ o.Endless := by cases o <;> rfl
  constructor
  · intro fuel o' heq
    obtain ⟨o₁, hrun, rfl⟩ := Option.map_eq_some_iff.1 heq
    obtain ⟨rfl, hends⟩ := h.only fuel o₁ hrun
    exact ⟨rfl, fun hno => hends (hsame.1 hno)⟩
  · intro hends fuel hfuel
    simp only [h.enough (fun hno => hends (hsame.2 hno)) fuel hfuel, Option.map_some]

/-- wherever so many levels are left, `run` comes to what `r` gives; it needs a unit, and one more
for each token ahead and for each level -/
def Runs (levels : Nat) (run : Nat → Attempt α) (r : Grammar.Reader α) : Prop :=
  ∀ c : Cursor, 0 < c.size → Parser.maxDepth - c.depth = levels →
    ComesTo (fun fuel => run fuel c) (c.rest.length + levels + 1) (r c)

variable {levels : Nat}

/-- behind the token in view, where one is left -/
theorem Runs.advance {run : Nat → Attempt α} {r : Grammar.Reader α} (h : Runs levels run r) {c : Cursor}
    (hc : 0 < c.size) (hlevels : Parser.maxDepth - c.depth = levels) :
    ComesTo (fun fuel => run fuel c.advance) (c.rest.length + levels + 1) (r c.advance) := by
  rcases c.advance_cases with ⟨_, hstay⟩ | ⟨rest, hrest, hpast⟩
  · rw [hstay]
    exact h c hc hlevels
  · refine (h c.advance (by rwa [Cursor.size_advance]) (by rwa [hpast])).mono ?_
    rw [Cursor.advance_rest hrest, hrest, List.length_cons]
    omega

theorem Runs.andThen {run : Nat → Attempt α} {r : Grammar.Reader α} (h : Runs levels run r) (hr : Grammar.Confines r)
    {next : α → Grammar.Reader β} {next' : Nat → α → Attempt β}
    (hnext : ∀ a, Runs levels (fun fuel => next' fuel a) (next a)) :
    Runs levels (fun fuel c => Descent.andThen (run fuel c) (next' fuel)) fun c => (r c).bind next := by
  intro c hc hlevels
  refine (h c hc hlevels).andThen fun a c' heq => ?_
  have hconfined := hr c hc
  rw [heq] at hconfined
  cases hconfined with
  | done n hn _ =>
    refine (hnext a (c.past n) (by rwa [Cursor.size_past hn]) hlevels).mono ?_
    simp only [Cursor.past, List.length_drop]
    omega

theorem runs_const {r : Grammar.Reader α} (h : ∀ c, ¬ (r c).Endless) : Runs levels (fun _ c => some (r c)) r :=
  fun c _ _ => comesTo_const _ (h c)

/-! ## The loop over signs -/

/-- the sign that a sign token is -/
def signOfKind (k : Kind) : Sign :=
  if k = .minus then .neg else .pos

theorem joined_assoc (a b c : Option Sign) : joined (joined a b) c = joined a (joined b c) := by
  rcases a with _ | _ | _ <;> rcases b with _ | _ | _ <;> rcases c with _ | _ | _ <;> rfl

theorem joined_none (s : Option Sign) : joined s none = s := by
  cases s <;> rfl

theorem signOf_cons {k : Kind} (hk : k.isSign = true) (run : List Kind) :
    Grammar.signOf (k :: run) = joined (some (signOfKind k)) (Grammar.signOf run) := by
  by_cases hrun : run = []
  · subst hrun
    rcases Grammar.eq_of_isSign hk with rfl | rfl <;> rfl
  · rw [Grammar.signOf_of_ne_nil (List.cons_ne_nil k run), Grammar.signOf_of_ne_nil hrun]
    have hparity := Nat.mod_two_eq_zero_or_one (run.count .minus)
    rcases Grammar.eq_of_isSign hk with rfl | rfl <;> rcases hparity with hcount | hcount <;>
      simp [joined, signOfKind, hcount, Nat.add_mod]

/-- at the end of a stream the last token decides -/
theorem signs_nil {c : Cursor} (hc : c.rest = []) :
    Grammar.signs c = if c.last.isSign then .fault ⟨.unendingSigns, c.index⟩ c else .done none c := by
  have hstay : ({ c with passed := c.passed + 0, rest := [] } : Cursor) = c := by
    rw [← hc]
    rfl
  simp only [Grammar.signs, hc, List.takeWhile_nil, List.dropWhile_nil, List.length_nil, List.isEmpty_nil,
    Bool.true_and, hstay]
  rfl

/-- one sign of a run -/
theorem signs_sign {c : Cursor} {k : Kind} {rest : List Kind} (hc : c.rest = k :: rest) (hk : k.isSign = true) :
    Grammar.signs c = (Grammar.signs c.advance).bind fun s c => .done (joined (some (signOfKind k)) s) c := by
  have hpassed : c.passed + ((rest.takeWhile Kind.isSign).length + 1) =
      c.passed + 1 + (rest.takeWhile Kind.isSign).length := by
    omega
  simp only [Grammar.signs, Cursor.advance_cons hc, Cursor.past, hc, List.takeWhile_cons, List.dropWhile_cons, hk,
    if_true, List.length_cons, List.drop_succ_cons, List.drop_zero, hpassed, signOf_cons hk]
  split_ifs <;> rfl

theorem signs_turn {c : Cursor} (hc : c.peek.isSign = true) (turns : Nat) (sofar : Option Sign) :
    signs (turns + 1) sofar c = signs turns (joined sofar (some (signOfKind c.peek))) c.advance := by
  rcases Grammar.eq_of_isSign hc with hpeek | hpeek <;> simp only [signs, hpeek] <;> rfl

theorem signs_stop {c : Cursor} (hc : c.peek.isSign = false) (turns : Nat) (sofar : Option Sign) :
    signs (turns + 1) sofar c = some (.done sofar c) := by
  cases hpeek : c.peek <;> simp_all [signs, Kind.isSign]

/-- where a stream ends in a sign, the sign is passed again and again -/
theorem signs_endless {c : Cursor} (hc : c.rest = []) (hlast : c.last.isSign = true) (turns : Nat)
    (sofar : Option Sign) :
    signs turns sofar c = none := by
  induction turns generalizing sofar with
  | zero => rfl
  | succ turns ih =>
    rw [signs_turn (by rwa [Cursor.peek_nil hc]), Cursor.advance_nil hc]
    exact ih _

theorem signs_comesTo (sofar : Option Sign) (c : Cursor) :
    ComesTo (fun turns => signs turns sofar c) (c.rest.length + 1)
      ((Grammar.signs c).bind fun s c => .done (joined sofar s) c) := by
  have hstop : ∀ (sofar : Option Sign) (c : Cursor), c.peek.isSign = false →
      ComesTo (fun turns => signs turns sofar c) (c.rest.length + 1) (.done sofar c) := by
    intro sofar c hc
    have hturn := (comesTo_done 0 sofar c).turn (fun turns => signs turns sofar c) rfl fun turns =>
      signs_stop hc turns sofar
    exact hturn.mono (by omega)
  induction hrest : c.rest generalizing c sofar with
  | nil =>
    rw [signs_nil hrest]
    cases hlast : c.last.isSign with
    | true =>
      refine ⟨fun turns o' heq => ?_, fun hends => absurd rfl hends⟩
      rw [signs_endless hrest hlast] at heq
      cases heq
    | false =>
      have hpeek : c.peek.isSign = false := by rwa [Cursor.peek_nil hrest]
      simpa [hrest, joined_none] using hstop sofar c hpeek
  | cons k rest ih =>
    have hpeek := Cursor.peek_cons hrest
    cases hk : k.isSign with
    | true =>
      have hnext := ih (joined sofar (some (signOfKind k))) c.advance (Cursor.advance_rest hrest)
      have hturn := hnext.turn (fun turns => signs turns sofar c) rfl fun turns => by
        rw [signs_turn (by rwa [hpeek]), hpeek]
      rw [signs_sign hrest hk]
      cases hsigns : Grammar.signs c.advance with
      | done s c' => simpa [hsigns, joined_assoc] using hturn
      | fault f c' => simpa [hsigns] using hturn
    | false =>
      have hnil : ∀ k ∈ ([] : List Kind), k.isSign = true := by simp
      have hnone : Grammar.signs c = .done none c := Grammar.signs_run hnil hk hrest
      have h := hstop sofar c (by rwa [hpeek])
      simpa [hnone, hrest, joined_none] using h

theorem signs_runs (levels : Nat) : Runs levels (fun turns => signs turns none) Grammar.signs := by
  intro c _ _
  have h := signs_comesTo none c
  have hsame : ((Grammar.signs c).bind fun s c => .done (joined none s) c) = Grammar.signs c := by
    cases Grammar.signs c <;> rfl
  rw [hsame] at h
  exact h.mono (by omega)

theorem signed_runs {operand' : Nat → Attempt Expr} {operand : Grammar.Reader Expr} (h : Runs levels operand' operand)
    (ho : Grammar.Confines operand) :
    Runs levels (fun fuel => signed fuel (operand' fuel)) (Grammar.signed operand) := by
  refine (signs_runs levels).andThen Grammar.signs_confines fun sign => ?_
  exact h.andThen ho fun e => runs_const fun c hno => hno

/-! ## Primaries -/

theorem group_runs {inner' : Nat → Attempt Expr} {inner : Grammar.Reader Expr} (h : Runs levels inner' inner)
    (hi : Grammar.Confines inner) (kind : Kind) (wrap : Expr → Expr) :
    Runs levels (fun fuel => group (inner' fuel) kind wrap) fun c =>
      (inner c).bind fun e c => Grammar.closing kind (wrap e) c := by
  refine h.andThen hi fun e => runs_const fun c => ?_
  unfold Grammar.closing
  split_ifs <;> simp [Outcome.Endless]

/-- what an identifier stands for, read at the place behind it -/
theorem identifier_runs {inner' : Nat → Attempt Expr} {inner : Grammar.Reader Expr} (h : Runs levels inner' inner)
    (hi : Grammar.Confines inner) (name : String) (index : Nat) :
    Runs levels (fun fuel => identifier (inner' fuel) name index) (Grammar.identifier inner name index) := by
  intro c hc hlevels
  have hunknown :=
    comesTo_fault (α := Expr) (c.rest.length + levels + 1) (f := ⟨.unknownIdentifier name, index⟩) (by simp) c
  unfold identifier Grammar.identifier
  cases hvariable : Variable.ofName? name with
  | some v => exact comesTo_done _ _ _
  | none =>
    cases hfunction : Func.ofName? name with
    | none => exact hunknown
    | some f =>
      dsimp only
      split_ifs with hsees
      · exact (group_runs h hi .rightParen (Expr.call f)).advance hc hlevels
      · exact hunknown

theorem primary_runs {inner' : Nat → Attempt Expr} {inner : Grammar.Reader Expr} (h : Runs levels inner' inner)
    (hi : Grammar.Confines inner) : Runs levels (fun fuel => primary (inner' fuel)) (Grammar.primary inner) := by
  intro c hc hlevels
  have hgroup : ∀ kind wrap, ComesTo (fun fuel => group (inner' fuel) kind wrap c.advance) (c.rest.length + levels + 1)
      ((inner c.advance).bind fun e c => Grammar.closing kind (wrap e) c) :=
    fun kind wrap => (group_runs h hi kind wrap).advance hc hlevels
  cases hpeek : c.peek with
  | number x => simpa only [primary, Grammar.primary, hpeek] using comesTo_done _ _ _
  | ident name =>
    simp only [primary, Grammar.primary, hpeek]
    exact (identifier_runs h hi name c.index).advance hc hlevels
  | leftParen =>
    simp only [primary, Grammar.primary, hpeek]
    exact hgroup .rightParen id
  | pipe =>
    simp only [primary, Grammar.primary, hpeek]
    exact hgroup .pipe Expr.modulus
  | _ =>
    simp only [primary, Grammar.primary, hpeek]
    exact comesTo_fault _ (by simp) _

/-! ## The loop over operands -/

section Chain

variable {q : Grammar.Phrase} {n : Nat} {op? : Cursor → Option BinaryOp} {operand' : Nat → Attempt Expr}
  {operand : Grammar.Reader Expr}

/-- the place behind an operand: in the same stream, at the same level, with less ahead -/
theorem behind_operand (hop : Grammar.Shows op?) (hs : Grammar.Sound q n operand) (ho : Grammar.Confines operand)
    {c c' : Cursor} {op : BinaryOp} {r : Expr} (hc : 0 < c.size) (hfound : op? c = some op)
    (hr : operand c.advance = .done r c') :
    0 < c'.size ∧ c'.depth = c.depth ∧ c'.rest.length < c.rest.length := by
  have hconfined := ho c.advance (by rwa [Cursor.size_advance])
  have hless := Grammar.operand_takes hop hs ho hc hfound hr
  rw [hr] at hconfined
  cases hconfined with
  | done m hm _ => exact ⟨by rwa [Cursor.size_past hm, Cursor.size_advance], c.depth_advance, hless⟩

/-- one turn: an operator in view, and an operand read behind it -/
theorem chain_turn (hop : Grammar.Shows op?) (hs : Grammar.Sound q n operand) (ho : Grammar.Confines operand)
    {c : Cursor} (hc : 0 < c.size) {op : BinaryOp} (hfound : op? c = some op) (l : Expr) :
    Grammar.chain op? operand l c =
      (operand c.advance).bind fun r c => Grammar.chain op? operand (.binary op l r) c := by
  cases hr : operand c.advance with
  | done r c' => exact Grammar.chain_step hfound hr (Grammar.operand_takes hop hs ho hc hfound hr)
  | fault f c' =>
    rw [Grammar.chain, hfound]
    simp only [hr, Outcome.bind_fault]

/-- the loop ends, as each turn leaves less ahead. A turn is given one unit less than the one in front of it, but the
fuel of its operand stays the same, so that is the turns left and the turns `taken`. -/
theorem chain_comesTo (hop : Grammar.Shows op?) (hs : Grammar.Sound q n operand) (ho : Grammar.Confines operand)
    (h : Runs levels operand' operand) (taken : Nat) (l : Expr) (c : Cursor) (hc : 0 < c.size)
    (hlevels : Parser.maxDepth - c.depth = levels) :
    ComesTo (fun turns => chain op? (operand' (turns + taken)) turns l c) (c.rest.length + levels + 1)
      (Grammar.chain op? operand l c) := by
  induction hlength : c.rest.length using Nat.strong_induction_on generalizing taken l c with
  | _ m ih =>
    cases hfound : op? c with
    | none =>
      rw [Grammar.chain_stop hfound]
      have hturn := (comesTo_done 0 l c).turn (fun turns => chain op? (operand' (turns + taken)) turns l c) rfl
        fun turns => by simp only [chain, hfound]
      exact hturn.mono (by omega)
    | some op =>
      have hoperand :
          ComesTo (fun turns => operand' (turns + (taken + 1)) c.advance) (m + levels) (operand c.advance) :=
        ((h.advance hc hlevels).shift (taken + 1)).mono (by omega)
      have hrest : ∀ r c', operand c.advance = .done r c' →
          ComesTo (fun turns => chain op? (operand' (turns + (taken + 1))) turns (.binary op l r) c') (m + levels)
            (Grammar.chain op? operand (.binary op l r) c') := by
        intro r c' hr
        obtain ⟨hsize, hdepth, hless⟩ := behind_operand hop hs ho hc hfound hr
        exact (ih _ (hlength ▸ hless) (taken + 1) _ c' hsize (by rwa [hdepth]) rfl).mono (by omega)
      rw [chain_turn hop hs ho hc hfound]
      refine (hoperand.andThen hrest).turn _ rfl fun turns => ?_
      simp only [chain, hfound, Nat.add_assoc, Nat.add_comm 1]

theorem chained_runs {first' : Nat → Attempt Expr} {first : Grammar.Reader Expr} (hop : Grammar.Shows op?)
    (hs : Grammar.Sound q n operand) (ho : Grammar.Confines operand) (hf : Grammar.Confines first)
    (hfirst : Runs levels first' first) (h : Runs levels operand' operand) :
    Runs levels (fun fuel => chained op? fuel (first' fuel) (operand' fuel)) (Grammar.chained op? first operand) :=
  hfirst.andThen hf fun e c hc hlevels => chain_comesTo hop hs ho h 0 e c hc hlevels

end Chain

/-! ## Expressions -/

theorem unary_runs {n : Nat} {inner' : Nat → Attempt Expr} {inner : Grammar.Reader Expr}
    (hs : Grammar.Sound .sum n inner) (hi : Grammar.Confines inner) (h : Runs levels inner' inner) :
    Runs levels (fun fuel => unary fuel (inner' fuel)) (Grammar.unary inner) := by
  have hprimary := Grammar.primary_confines hi
  have hexponent := Grammar.exponent_sound hs
  have hpower : Runs levels (fun fuel => power fuel (inner' fuel)) (Grammar.power inner) :=
    chained_runs Grammar.shows_power hexponent (Grammar.signed_confines hprimary) hprimary (primary_runs h hi)
      (signed_runs (primary_runs h hi) hprimary)
  exact signed_runs hpower
    (Grammar.chained_confines Grammar.shows_power hprimary hexponent (Grammar.signed_confines hprimary))

theorem sum_runs {n : Nat} {inner' : Nat → Attempt Expr} {inner : Grammar.Reader Expr} (hs : Grammar.Sound .sum n inner)
    (hi : Grammar.Confines inner) (h : Runs levels inner' inner) :
    Runs levels (fun fuel => sum fuel (inner' fuel)) (Grammar.sum inner) := by
  have hunary := Grammar.unary_confines hs hi
  have hproduct := Grammar.product_confines hs hi
  have hrun : Runs levels (fun fuel => product fuel (inner' fuel)) (Grammar.product inner) :=
    chained_runs Grammar.shows_product (Grammar.unary_sound hs) hunary hunary (unary_runs hs hi h) (unary_runs hs hi h)
  exact chained_runs Grammar.shows_sum (Grammar.product_sound hs) hproduct hproduct hrun hrun

/-- **A call for an expression comes to what the grammar's reader gives**, on one unit of fuel, one more for each token
ahead, and one more for each level left. -/
theorem expression_runs (levels : Nat) : Runs levels expression (Grammar.expression levels) := by
  induction levels with
  | zero =>
    intro c hc hlevels
    have hdeep : Parser.maxDepth < c.enter.depth := Nat.lt_succ_of_le (Nat.sub_eq_zero_iff_le.1 hlevels)
    have hfault := comesTo_fault (α := Expr) 0 (f := ⟨.tooDeep, c.enter.index⟩) (by simp) c.enter
    have hturn := hfault.turn (fun fuel => expression fuel c) rfl fun fuel => by
      simp only [expression, if_pos hdeep]
    exact hturn.mono (by omega)
  | succ levels ih =>
    intro c hc hlevels
    have hopen : ¬ Parser.maxDepth < c.enter.depth := by
      simp only [Cursor.enter]
      omega
    have hinner : Parser.maxDepth - c.enter.depth = levels := by
      simp only [Cursor.enter]
      omega
    have hsum := sum_runs (Grammar.expression_sound levels) (Grammar.expression_confines levels) ih c.enter hc hinner
    have hturn := hsum.level.turn (fun fuel => expression fuel c) rfl fun fuel => by
      simp only [expression, if_neg hopen]
    exact hturn

end Descent

namespace Parser

/-! ## A call of the parser -/

/-- a call, when its expression is read -/
def conclude (p : Parser) : Outcome Expr → Except Rejection Expr × Parser
  | .fault f c => (.error (p.locate f), p.moveTo c)
  | .done e c =>
    if c.atEnd then (.ok e, p.moveTo c)
    else (.error (p.locate ⟨.trailingToken c.peek, c.index⟩), p.moveTo c)

/-- one call on fuel: an expression up to the end of the stream, and the parser for a further call -/
def descend (p : Parser) (fuel : Nat) : Option (Except Rejection Expr × Parser) :=
  match p.excess? with
  | some t => some (.error ⟨.tooLong, t.position⟩, p)
  | none => (Descent.expression fuel p.cursor).map p.conclude

theorem parse_eq_conclude {p : Parser} (h : p.excess? = none) :
    p.parse = p.conclude (Grammar.expression (maxDepth - p.depth) p.cursor) := by
  unfold parse
  rw [h]
  cases Grammar.expression (maxDepth - p.depth) p.cursor <;> rfl

/-- a call is rejected for signs without end exactly when its expression is -/
theorem conclude_endless {p : Parser} {o : Outcome Expr} :
    (∃ r, (p.conclude o).1 = .error r ∧ r.cause = .unendingSigns) ↔ o.Endless := by
  cases o with
  | fault f c =>
    constructor
    · rintro ⟨r, hr, hcause⟩
      cases hr
      exact hcause
    · intro hcause
      exact ⟨_, rfl, hcause⟩
  | done e c =>
    refine ⟨?_, fun hno => hno.elim⟩
    rintro ⟨r, hr, hcause⟩
    unfold conclude at hr
    dsimp only at hr
    split_ifs at hr
    cases hr
    cases hcause

/-- **What a call comes to on fuel.** It is what the parser gives, unless that is a rejection for signs without end;
then a call comes to nothing. Enough is one unit, one more for each token ahead, and one more for each level left. -/
theorem descend_comesTo (p : Parser) (hne : p.tokens ≠ []) :
    (∀ fuel result, p.descend fuel = some result →
      result = p.parse ∧ ∀ r, p.parse.1 = .error r → r.cause ≠ .unendingSigns) ∧
    ((∀ r, p.parse.1 = .error r → r.cause ≠ .unendingSigns) →
      ∀ fuel, (p.tokens.length - p.passed) + (maxDepth - p.depth) < fuel → p.descend fuel = some p.parse) := by
  unfold descend
  cases hexcess : p.excess? with
  | some t =>
    have hparse : p.parse = (.error ⟨.tooLong, t.position⟩, p) := by rw [parse, hexcess]
    rw [hparse]
    refine ⟨fun fuel result h => ⟨(Option.some.inj h).symm, fun r hr => ?_⟩, fun _ _ _ => rfl⟩
    cases hr
    simp
  | none =>
    have hsize : 0 < p.cursor.size := by
      rw [size_cursor]
      exact List.length_pos_iff.2 hne
    have hahead : p.cursor.rest.length = p.tokens.length - p.passed := by
      simp only [cursor, List.length_map, List.length_drop]
    have hruns := Descent.expression_runs (maxDepth - p.depth) p.cursor hsize rfl
    have hendless := conclude_endless (p := p) (o := Grammar.expression (maxDepth - p.depth) p.cursor)
    rw [parse_eq_conclude hexcess]
    constructor
    · intro fuel result h
      obtain ⟨o, ho, rfl⟩ := Option.map_eq_some_iff.1 h
      obtain ⟨rfl, hends⟩ := hruns.only fuel o ho
      exact ⟨rfl, fun r hr hcause => hends (hendless.1 ⟨r, hr, hcause⟩)⟩
    · intro hends fuel hfuel
      have hnot : ¬ (Grammar.expression (maxDepth - p.depth) p.cursor).Endless := by
        intro hno
        obtain ⟨r, hr, hcause⟩ := hendless.2 hno
        exact hends r hr hcause
      simp only [hruns.enough hnot fuel (by omega), Option.map_some]

/-- a call that is rejected for signs without end has no end -/
theorem descend_eq_none {p : Parser} (hne : p.tokens ≠ []) {r : Rejection} (hr : p.parse.1 = .error r)
    (hcause : r.cause = .unendingSigns) (fuel : Nat) : p.descend fuel = none := by
  cases h : p.descend fuel with
  | none => rfl
  | some result => exact absurd hcause (((descend_comesTo p hne).1 fuel result h).2 r hr)

/-- the sign behind `z` is seen again and again: fuel that is enough wherever a call on two tokens ends is used up -/
example : (ofTokens [⟨.ident "z", "z", 0⟩, ⟨.plus, "+", 1⟩]).descend 200 = none := by decide +kernel

theorem unmarked_of_parse {p : Parser} (hne : p.tokens ≠ []) {r : Rejection} (h : p.parse.1 = .error r)
    (hcause : r.cause = .unendingSigns) : p.cursor.Unmarked := by
  rw [parse_eq_verdict] at h
  cases hverdict : p.verdict with
  | ok e =>
    rw [hverdict] at h
    cases h
  | error f =>
    rw [hverdict] at h
    cases h
    exact (verdict_error hne hverdict).2 hcause

/-- **A call ends on every stream whose last token is no sign**, the tokens of a text among them, from any place in the
stream and with any number of sums open. It ends with a tree, or with a rejection that is not for signs without end, and
any fuel that is more than the tokens ahead and the levels left taken together is enough. -/
theorem parse_terminates (tokens : List Token)
    (hends : (∃ last, tokens.getLast? = some last ∧ last.kind ≠ .plus ∧ last.kind ≠ .minus) ∨
      ∃ s, tokenize s = .ok tokens) (passed depth : Nat) :
    let p : Parser := ⟨tokens, passed, depth⟩
    (∀ fuel, (tokens.length - passed) + (maxDepth - depth) < fuel → p.descend fuel = some p.parse) ∧
    ((∃ e, p.parse.1 = .ok e) ∨ ∃ r, p.parse.1 = .error r ∧ r.cause ≠ .unendingSigns) := by
  intro p
  obtain ⟨last, hlast, hsign⟩ : ∃ last, tokens.getLast? = some last ∧ last.kind.isSign = false := by
    rcases hends with ⟨last, hlast, hplus, hminus⟩ | ⟨s, hs⟩
    · refine ⟨last, hlast, ?_⟩
      cases hkind : last.kind <;> simp_all [Kind.isSign]
    · obtain ⟨ts, eof, rfl, heof, _⟩ := spells_of_scan 0 s.toList tokens hs
      exact ⟨eof, by simp, by rw [heof]; rfl⟩
  have hne : p.tokens ≠ [] := by
    rintro hnil
    simp [show tokens = [] from hnil] at hlast
  have hcause : ∀ r, p.parse.1 = .error r → r.cause ≠ .unendingSigns := by
    intro r hr hcause
    have hunmarked := (unmarked_of_parse hne hr hcause).1
    simp [cursor, p, hlast, hsign] at hunmarked
  refine ⟨(descend_comesTo p hne).2 hcause, ?_⟩
  cases hparse : p.parse.1 with
  | ok e => exact .inl ⟨e, rfl⟩
  | error r => exact .inr ⟨r, rfl, hcause r hparse⟩

/-- a parser behind the only token of its stream, an opening parenthesis, with three sums open -/
def behindParenthesis : Parser :=
  ⟨[⟨.leftParen, "(", 0⟩], 1, 3⟩

/-- the parenthesis is seen again and again, and a call for what it holds is made each time, until 128 sums are open -/
theorem parse_terminates_parenthesis :
    behindParenthesis.descend 126 = some behindParenthesis.parse ∧ behindParenthesis.parse.1 = .error ⟨.tooDeep, 0⟩ ∧
    ∃ result, (ofTokens [⟨.ident "z", "z", 0⟩, ⟨.endOfInput, "", 1⟩]).descend 131 = some result ∧
      result.1 = .ok (.var .z) := by
  have hparenthesis := parse_terminates behindParenthesis.tokens (.inl ⟨_, rfl, by decide⟩) 1 3
  have htext := parse_terminates [⟨.ident "z", "z", 0⟩, ⟨.endOfInput, "", 1⟩] (.inr ⟨"z", by decide +kernel⟩) 0 0
  exact ⟨hparenthesis.1 126 (by decide), by decide +kernel, _, htext.1 131 (by decide), by decide +kernel⟩

end Parser

end EscapeTime
