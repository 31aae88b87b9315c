/-
The count of open sums.

Reading an expression opens a sum, and closes it again whether it is read or not; only the sum that is refused for being
too deep stays open. `Restored d o` says of the outcome of reading with `d` sums open that `d` are open afterwards, and
one more if that is why reading failed, whatever level it failed on.

- `Restored.andThen`, `Restored.level`: one thing after another, and a sum around it.
- `expression_restores`: an expression restores the count, by one lemma for each way of reading.
- `depth_parse`: so a call of the parser leaves the count as it was, or raises it by one if it fails as nested too
  deeply.
- `depth_counts_refusals`: after any number of calls the count is the number of those that failed so.
-/
import EscapeTime.Proofs.Calls
import EscapeTime.Proofs.Grammar.Descent

namespace EscapeTime

/-! ## Wording -/

/-- what begins with a text is no text that does not -/
theorem append_ne {u text : String} (h : ¬ u.toList <+: text.toList) (a : String) : u ++ a ≠ text := by
  rintro rfl
  rw [String.toList_append] at h
  exact h (List.prefix_append _ _)

/-- the wording tells whether the levels were used up -/
theorem Cause.message_eq_iff_tooDeep (cause : Cause) :
    cause.message = "expression nested too deeply" ↔ cause = .tooDeep := by
  have henclosed : ∀ {u : String}, ¬ u.toList <+: "expression nested too deeply".toList →
      ∀ a b, u ++ a ++ b ≠ "expression nested too deeply" := by
    intro u hu a b
    rw [String.append_assoc]
    exact append_ne hu _
  refine ⟨fun h => ?_, fun h => by rw [h]; rfl⟩
  cases cause with
  | tooDeep => rfl
  | tooLong | unexpectedEnd | unendingSigns => exact absurd h (by decide +kernel)
  | numberOutOfRange text | expectedExpression found | trailingToken found => exact absurd h (append_ne (by decide) _)
  | unexpectedCharacter c | unknownIdentifier name => exact absurd h (henclosed (by decide) _ _)
  | expectedToken expected found =>
    have hparts : "expected '" ++ (expected.display ++ "', found ") ++ found.describe =
        "expression nested too deeply" := by
      rw [← String.append_assoc]
      exact h
    exact absurd hparts (henclosed (by decide) _ _)

namespace Grammar

variable {α β : Type} {d : Nat}

/-! ## Reading -/

/-- as many sums are open as before, one more if reading failed because there were too many -/
inductive Restored (d : Nat) : Outcome α → Prop where
  | done {a : α} {c : Cursor} (hdepth : c.depth = d) : Restored d (.done a c)
  | tooDeep {f : Fault} {c : Cursor} (hcause : f.cause = .tooDeep) (hdepth : c.depth = d + 1) : Restored d (.fault f c)
  | fault {f : Fault} {c : Cursor} (hcause : f.cause ≠ .tooDeep) (hdepth : c.depth = d) : Restored d (.fault f c)

/-- at every place the reader restores the count -/
def Restores (r : Reader α) : Prop :=
  ∀ c : Cursor, Restored c.depth (r c)

/-- one thing after another -/
theorem Restored.andThen {o : Outcome α} (h : Restored d o) {next : α → Reader β} (hnext : ∀ a, Restores (next a)) :
    Restored d (o.bind next) := by
  cases h with
  | @done a c hdepth =>
    have hread := hnext a c
    rw [hdepth] at hread
    exact hread
  | tooDeep hcause hdepth => exact .tooDeep hcause hdepth
  | fault hcause hdepth => exact .fault hcause hdepth

/-- a sum that was opened is closed -/
theorem Restored.level {o : Outcome α} (h : Restored (d + 1) o) : Restored d o.leave := by
  cases h with
  | done hdepth => exact .done (congrArg (· - 1) hdepth)
  | tooDeep hcause hdepth => exact .tooDeep hcause (congrArg (· - 1) hdepth)
  | fault hcause hdepth => exact .fault hcause (congrArg (· - 1) hdepth)

/-- reading behind the token in view -/
theorem Restores.advance {r : Reader α} (h : Restores r) (c : Cursor) : Restored c.depth (r c.advance) := by
  have hread := h c.advance
  rw [c.depth_advance] at hread
  exact hread

theorem restores_done (a : α) : Restores fun c => .done a c :=
  fun _ => .done rfl

theorem restores_fault {f : Fault} (hcause : f.cause ≠ .tooDeep) : Restores fun c => (.fault f c : Outcome α) :=
  fun _ => .fault hcause rfl

theorem signs_restores : Restores signs := by
  intro c
  unfold signs
  dsimp only
  split_ifs
  · exact .fault (by simp) rfl
  · exact .done rfl

theorem signed_restores {operand : Reader Expr} (ho : Restores operand) : Restores (signed operand) := by
  intro c
  refine (signs_restores c).andThen fun sign c => ?_
  exact (ho c).andThen fun e => restores_done (applySign sign e)

theorem closing_restores (kind : Kind) (e : Expr) : Restores (closing kind e) := by
  intro c
  unfold closing
  split_ifs
  · exact (restores_done e).advance c
  · exact .fault (by simp) rfl

/-- what a group holds and its closing delimiter -/
theorem group_restores {inner : Reader Expr} (hi : Restores inner) (kind : Kind) (f : Expr → Expr) :
    Restores fun c => (inner c).bind fun e c => closing kind (f e) c :=
  fun c => (hi c).andThen fun e => closing_restores kind (f e)

theorem identifier_restores {inner : Reader Expr} (hi : Restores inner) (name : String) (index : Nat) :
    Restores (identifier inner name index) := by
  have hunknown : Restores fun c => (.fault ⟨.unknownIdentifier name, index⟩ c : Outcome Expr) :=
    restores_fault (by simp)
  intro c
  unfold identifier
  split
  · exact .done rfl
  · rename_i f _ _
    split_ifs
    · exact (group_restores hi .rightParen (Expr.call f)).advance c
    · exact hunknown c
  · exact hunknown c

theorem primary_restores {inner : Reader Expr} (hi : Restores inner) : Restores (primary inner) := by
  intro c
  unfold primary
  cases c.peek with
  | number x => exact (restores_done (Expr.number x)).advance c
  | ident name => exact (identifier_restores hi name c.index).advance c
  | leftParen => exact (group_restores hi .rightParen id).advance c
  | pipe => exact (group_restores hi .pipe Expr.modulus).advance c
  | _ => exact (restores_fault (by simp)).advance c

/-- a loop over operands -/
theorem chain_restores (op? : Cursor → Option BinaryOp) {operand : Reader Expr} (ho : Restores operand) (l : Expr) :
    Restores (chain op? operand l) := by
  intro c
  fun_induction chain op? operand l c with
  | case1 l c hnone => exact .done rfl
  | case2 l c op hfound f c' hfault =>
    have hread := ho.advance c
    rw [hfault] at hread
    cases hread with
    | tooDeep hcause hdepth => exact .tooDeep hcause hdepth
    | fault hcause hdepth => exact .fault hcause hdepth
  | case3 l c op hfound r c' hr hless ih =>
    have hread := ho.advance c
    rw [hr] at hread
    cases hread with
    | done hdepth => exact hdepth ▸ ih
  | case4 l c op hfound r c' hr hlong =>
    have hread := ho.advance c
    rw [hr] at hread
    cases hread with
    | done hdepth => exact .fault (by simp) hdepth

theorem chained_restores (op? : Cursor → Option BinaryOp) {first operand : Reader Expr} (hf : Restores first)
    (ho : Restores operand) : Restores (chained op? first operand) :=
  fun c => (hf c).andThen fun l => chain_restores op? ho l

theorem sum_restores {inner : Reader Expr} (hi : Restores inner) : Restores (sum inner) := by
  have hprimary := primary_restores hi
  have hunary : Restores (unary inner) :=
    signed_restores (chained_restores powerOp? hprimary (signed_restores hprimary))
  have hproduct : Restores (product inner) := chained_restores productOp? hunary hunary
  exact chained_restores sumOp? hproduct hproduct

/-- **Reading an expression restores the count of open sums**, but for the one that is refused. -/
theorem expression_restores (levels : Nat) : Restores (expression levels) := by
  induction levels with
  | zero =>
    intro c
    exact .tooDeep rfl rfl
  | succ levels ih =>
    intro c
    exact (sum_restores ih c.enter).level

end Grammar

namespace Parser

open Grammar

/-! ## Calls -/

/-- the call failed as nested too deeply -/
def isTooDeep : Except Rejection Expr → Bool
  | .ok _ => false
  | .error r => r.report.message == "expression nested too deeply"

theorem isTooDeep_error (r : Rejection) : isTooDeep (.error r) = decide (r.cause = .tooDeep) := by
  have hmessage : r.report.message = r.cause.message := rfl
  rw [isTooDeep, hmessage, ← decide_eq_decide.2 (Cause.message_eq_iff_tooDeep r.cause)]
  rfl

/-- when the expression is read, the count is what reading left -/
theorem depth_conclude {p : Parser} {o : Outcome Expr} (h : Restored p.depth o) :
    (p.conclude o).2.depth = p.depth + if isTooDeep (p.conclude o).1 then 1 else 0 := by
  cases h with
  | tooDeep hcause hdepth =>
    simp only [conclude, moveTo, isTooDeep_error, locate, hcause, hdepth, decide_true, if_true]
  | fault hcause hdepth =>
    simp only [conclude, moveTo, isTooDeep_error, locate, hcause, hdepth, decide_false, Bool.false_eq_true, if_false,
      Nat.add_zero]
  | @done e c hdepth =>
    have htrailing : isTooDeep (.error (p.locate ⟨.trailingToken c.peek, c.index⟩)) = false := by
      simp [isTooDeep_error, locate]
    cases hend : c.atEnd with
    | true => simp only [conclude, hend, if_true, moveTo, hdepth, isTooDeep, Bool.false_eq_true, if_false, Nat.add_zero]
    | false => simp only [conclude, hend, moveTo, hdepth, htrailing, Bool.false_eq_true, if_false, Nat.add_zero]

/-- **A call leaves the count of open sums as it was**, or raises it by one if it fails as nested too deeply. -/
theorem depth_parse (p : Parser) : p.parse.2.depth = p.depth + if isTooDeep p.parse.1 then 1 else 0 := by
  cases hexcess : p.excess? with
  | some t => simp [parse, hexcess, isTooDeep_error]
  | none =>
    rw [parse_eq_conclude hexcess]
    exact depth_conclude (expression_restores (maxDepth - p.depth) p.cursor)

theorem tokens_parse (p : Parser) : p.parse.2.tokens = p.tokens := by
  cases hexcess : p.excess? with
  | some t => simp [parse, hexcess]
  | none =>
    rw [parse_eq_conclude hexcess]
    cases expression (maxDepth - p.depth) p.cursor with
    | fault f c => rfl
    | done e c =>
      unfold conclude
      dsimp only
      split_ifs <;> rfl

/-- a call on a stream that ends in no sign comes to its end -/
theorem descend_ends {p : Parser} {last : Token} (hlast : p.tokens.getLast? = some last)
    (hsign : last.kind.isSign = false) :
    ∃ fuel, p.descend fuel = some p.parse := by
  have hne : p.tokens ≠ [] := by
    intro hnil
    simp [hnil] at hlast
  refine ⟨_, (descend_comesTo p hne).2 (fun r hr hcause => ?_) _ (Nat.lt_succ_self _)⟩
  have hunmarked := (unmarked_of_parse hne hr hcause).1
  simp [cursor, hlast, hsign] at hunmarked

/-- the last token of a fresh parser -/
theorem exists_getLast_ofTokens {tokens : List Token}
    (hlast : ∀ t, tokens.getLast? = some t → t.kind ≠ .plus ∧ t.kind ≠ .minus) :
    ∃ last, (ofTokens tokens).tokens.getLast? = some last ∧ last.kind.isSign = false := by
  cases tokens with
  | nil => exact ⟨_, rfl, rfl⟩
  | cons t ts =>
    have hgetLast := List.getLast?_eq_some_getLast (List.cons_ne_nil t ts)
    obtain ⟨hplus, hminus⟩ := hlast _ hgetLast
    refine ⟨_, hgetLast, ?_⟩
    by_contra hsign
    rcases eq_of_isSign (by simpa using hsign) with h | h
    · exact hplus h
    · exact hminus h

/-- **The count of open sums is restored on every path but one.** On a stream whose last token is no sign, each of any
number of calls one after another comes to its end, and afterwards the count is the number of calls that failed as
nested too deeply. A call that gives a tree, or fails in any other way, leaves the count as it was. -/
theorem depth_counts_refusals (tokens : List Token)
    (hlast : ∀ t, tokens.getLast? = some t → t.kind ≠ .plus ∧ t.kind ≠ .minus) (n : Nat) :
    let parser := Calls.after parse (ofTokens tokens)
    (parser n).depth = (Calls.answers parse (ofTokens tokens) n).countP isTooDeep ∧
    ∀ i, (∃ fuel, (parser i).descend fuel = some (parser i).parse) ∧
      (∀ e, (parser i).parse.1 = .ok e → (parser (i + 1)).depth = (parser i).depth) ∧
      ∀ r, (parser i).parse.1 = .error r → r.report.message ≠ "expression nested too deeply" →
        (parser (i + 1)).depth = (parser i).depth := by
  intro parser
  obtain ⟨last, hgetLast, hsign⟩ := exists_getLast_ofTokens hlast
  constructor
  · have hcount := Calls.after_counts depth_parse (ofTokens tokens) n
    rwa [show (ofTokens tokens).depth = 0 from rfl, Nat.zero_add] at hcount
  · intro i
    have htokens : (parser i).tokens.getLast? = some last := by
      refine Calls.after_keeps (P := fun p : Parser => p.tokens.getLast? = some last) (fun p hp => ?_) hgetLast i
      rw [tokens_parse]
      exact hp
    have hnext : parser (i + 1) = (parser i).parse.2 := Calls.after_succ _ _ _
    have hdepth := depth_parse (parser i)
    rw [hnext]
    refine ⟨descend_ends htokens hsign, fun e he => ?_, fun r hr hmessage => ?_⟩
    · rw [hdepth, he]
      rfl
    · rw [hdepth, hr, isTooDeep, beq_false_of_ne hmessage]
      rfl

/-- a variable in front of an opening parenthesis, and no end marker -/
def unopened : List Token :=
  [⟨.ident "z", "z", 0⟩, ⟨.leftParen, "(", 1⟩]

/-- the first call stops in front of the parenthesis, the others go into it until no level is left -/
theorem depth_unopened :
    Calls.answers parse (ofTokens unopened) 3 =
      [.error ⟨.trailingToken .leftParen, 1⟩, .error ⟨.tooDeep, 1⟩, .error ⟨.tooDeep, 1⟩] ∧
    (Calls.after parse (ofTokens unopened) 3).depth = 2 ∧
    (Calls.after parse (ofTokens unopened) 1).depth = (Calls.after parse (ofTokens unopened) 0).depth := by
  have hanswers : Calls.answers parse (ofTokens unopened) 3 =
      [.error ⟨.trailingToken .leftParen, 1⟩, .error ⟨.tooDeep, 1⟩, .error ⟨.tooDeep, 1⟩] := by decide +kernel
  have hlast : ∀ t, unopened.getLast? = some t → t.kind ≠ .plus ∧ t.kind ≠ .minus := by
    intro t ht
    cases ht
    decide
  obtain ⟨hcount, hcalls⟩ := depth_counts_refusals unopened hlast 3
  obtain ⟨_, _, hother⟩ := hcalls 0
  refine ⟨hanswers, ?_, hother ⟨.trailingToken .leftParen, 1⟩ (by decide +kernel) (by decide +kernel)⟩
  rw [hcount, hanswers]
  decide +kernel

end Parser

end EscapeTime
