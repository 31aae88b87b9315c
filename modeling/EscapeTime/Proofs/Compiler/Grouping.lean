/-
A whole equation in parentheses, with signs in front that cancel.

Parentheses leave no node, and a run of signs with an even number of minuses leaves one that is not written
(`parse_grouped`, `emit_pos`). So the text in parentheses is compiled to the code of the text itself. With signs in
front, one thing can differ: completion looks at the outermost node only, and under a sign it does not see that the
equation already adds c.

- `emitted_complete_pos`: the code under a cancelled sign is that of the equation, or c is added to it once more.
- `grouped_compile`: the exact condition for the code to be the same.
-/
import EscapeTime.Proofs.Compiler.Completion

namespace EscapeTime

open Grammar

/-! ## The tree -/

/-- the kinds of a text of signs -/
def signKinds (signs : List Char) : List Kind :=
  signs.map fun c => if c = '-' then .minus else .plus

theorem signKinds_sign {signs : List Char} : ∀ k ∈ signKinds signs, k = .plus ∨ k = .minus := by
  intro k hk
  obtain ⟨c, _, rfl⟩ := List.mem_map.1 hk
  split_ifs <;> simp

theorem count_signKinds (signs : List Char) : (signKinds signs).count .minus = signs.count '-' := by
  induction signs with
  | nil => rfl
  | cons c signs ih =>
    have hcons : signKinds (c :: signs) = (if c = '-' then .minus else .plus) :: signKinds signs := rfl
    rw [hcons, List.count_cons, List.count_cons, ih]
    by_cases hc : c = '-' <;> simp [hc]

theorem spells_signs {signs rest : List Char} {ks : List Kind} (hsigns : ∀ c ∈ signs, c = '+' ∨ c = '-')
    (hrest : Spells rest ks) : Spells (signs ++ rest) (signKinds signs ++ ks) := by
  induction signs with
  | nil => exact hrest
  | cons c signs ih =>
    obtain ⟨hc, hmore⟩ := List.forall_mem_cons.1 hsigns
    rcases hc with rfl | rfl
    · exact spells_symbol rfl (ih hmore)
    · exact spells_symbol rfl (ih hmore)

/-- signs and parentheses around a text spell signs and parentheses around its kinds -/
theorem spells_grouped {signs cs : List Char} {ks : List Kind} (hsigns : ∀ c ∈ signs, c = '+' ∨ c = '-')
    (h : Spells cs ks) :
    Spells (signs ++ '(' :: (cs ++ [')'])) (signKinds signs ++ .leftParen :: (ks ++ [.rightParen])) := by
  have hclose : Spells [')'] [.rightParen] := spells_symbol rfl .nil
  have hgroup := spells_append h (separated_of_ofSymbol? rfl []) hclose
  exact spells_signs hsigns (spells_symbol rfl hgroup)

/-- the tree of an equation under a text of signs that cancel -/
def cancelled (signs : List Char) (e : Expr) : Expr :=
  if signs = [] then e else .unary .pos e

theorem derives_cancelled {signs : List Char} (heven : signs.count '-' % 2 = 0) {ks : List Kind} {ds : List Nat}
    {e : Expr} (h : Derives .sum ks ds e) :
    Derives .sum (signKinds signs ++ .leftParen :: (ks ++ [.rightParen]))
      (List.replicate signs.length 0 ++ 0 :: (ds.map (· + 1) ++ [0])) (cancelled signs e) := by
  have hgroup : Derives .power (.leftParen :: (ks ++ [.rightParen])) (0 :: (ds.map (· + 1) ++ [0])) e :=
    .powerFirst (.parens h)
  by_cases hnil : signs = []
  · subst hnil
    exact .sumFirst (.productFirst (.unaryPlain hgroup))
  · have hne : signKinds signs ≠ [] := by simpa [signKinds] using hnil
    have hsigned := Derives.unarySigned (signKinds signs) hne signKinds_sign hgroup
    rw [count_signKinds, if_neg (by omega)] at hsigned
    have hlength : (signKinds signs).length = signs.length := List.length_map _
    rw [hlength] at hsigned
    rw [cancelled, if_neg hnil]
    exact .sumFirst (.productFirst hsigned)

/-- an equation in parentheses, behind signs that cancel, is the equation under one sign without effect -/
theorem parse_grouped {signs s : String} {e : Expr} {tokens : List Token} {ds : List Nat}
    (hsigns : ∀ c ∈ signs.toList, c = '+' ∨ c = '-') (heven : signs.toList.count '-' % 2 = 0)
    (h : parse s = .ok e) (htokens : tokenize s = .ok tokens)
    (hlen : signs.length + (tokens.takeWhile (·.kind != .endOfInput)).length + 2 ≤ 512)
    (hd : Derives .sum ((tokens.takeWhile (·.kind != .endOfInput)).map Token.kind) ds e) (hds : ∀ d ∈ ds, d ≤ 126) :
    parse (signs ++ "(" ++ s ++ ")") = .ok (cancelled signs.toList e) := by
  obtain ⟨ks, _, hspells, _, _, _⟩ := (parse_ok_iff_spells s e).1 h
  have hks := kinds_of_tokenize hspells htokens
  rw [hks] at hd
  have htext : (signs ++ "(" ++ s ++ ")").toList = signs.toList ++ '(' :: (s.toList ++ [')']) := by simp
  refine (parse_ok_iff_spells _ _).2 ⟨_, _, htext ▸ spells_grouped hsigns hspells, ?_, derives_cancelled heven hd, ?_⟩
  · have hcount : ks.length = (tokens.takeWhile (·.kind != .endOfInput)).length := by rw [← hks, List.length_map]
    have hsignCount : (signKinds signs.toList).length = signs.length := by
      rw [signKinds, List.length_map, String.length_toList]
    simp only [List.length_append, List.length_cons, List.length_nil, hsignCount, hcount]
    omega
  · intro d hd
    simp only [List.mem_append, List.mem_replicate, List.mem_cons, List.mem_map, List.not_mem_nil, or_false] at hd
    rcases hd with ⟨_, rfl⟩ | rfl | ⟨d', hd', rfl⟩ | rfl
    · exact Nat.zero_le _
    · exact Nat.zero_le _
    · exact Nat.succ_le_succ (hds d' hd')
    · exact Nat.zero_le _

/-! ## The code -/

/-- a plus sign is not written -/
theorem Emitter.emit_pos (m : Emitter) (e : Expr) :
    m.emit (.unary .pos e) = m.emit e ∧ m.helpers (.unary .pos e) = m.helpers e :=
  ⟨rfl, rfl⟩

/-- adding c calls no helper -/
theorem Emitter.helpers_plusConstant (m : Emitter) (e : Expr) : m.helpers (.binary .add e (.var .c)) = m.helpers e := by
  simp [Emitter.helpers, Emitter.computation, Computation.helpers, Computation.ofExpr, Computation.calls]

namespace Compiler

/-- completion does not see the equation under the sign: one that ends in adding c gets it once more -/
theorem emitted_complete_pos (k : Compiler) (e : Expr) :
    k.emitted (k.complete (.unary .pos e)) =
      if k.appendConstant = true ∧ e.endsWithConstant = true then k.emitted (.binary .add e (.var .c))
      else k.emitted (k.complete e) := by
  have hpos : Expr.endsWithConstant (.unary .pos e) = false := rfl
  cases happend : k.appendConstant with
  | false => simp [complete, happend, emitted, Emitter.emit_pos]
  | true =>
    cases hends : e.endsWithConstant with
    | true => simp [complete, happend, hpos]; rfl
    | false => simp [complete, happend, hpos, hends]; rfl

theorem complete_of_endsWithConstant {e : Expr} (h : e.endsWithConstant = true) (k : Compiler) : k.complete e = e := by
  simp [complete, h]

end Compiler

/-- **Parentheses around a whole equation change nothing; signs that cancel may add c twice.** An equation in
parentheses, behind any signs with an even number of minuses, is accepted within the limits, with the helpers of the
equation itself. Its code is that of the equation exactly when there are no signs, or the constant is not appended, or
the equation does not end in adding it; otherwise the constant is added to that code once more. -/
theorem grouped_compile (settings : Settings) (signs s : String) (e : Expr) (tokens : List Token) (ds : List Nat)
    (hsigns : ∀ c ∈ signs.toList, c = '+' ∨ c = '-') (heven : signs.toList.count '-' % 2 = 0)
    (h : parse s = .ok e) (htokens : tokenize s = .ok tokens)
    (hlen : signs.length + (tokens.takeWhile (·.kind != .endOfInput)).length + 2 ≤ 512)
    (hd : Derives .sum ((tokens.takeWhile (·.kind != .endOfInput)).map Token.kind) ds e) (hds : ∀ d ∈ ds, d ≤ 126) :
    (settings.compiler.compile (signs ++ "(" ++ s ++ ")")).fallback = none ∧
    (settings.compiler.compile (signs ++ "(" ++ s ++ ")")).helpers = (settings.compiler.compile s).helpers ∧
    ((settings.compiler.compile (signs ++ "(" ++ s ++ ")")).code = (settings.compiler.compile s).code ↔
      signs = "" ∨ settings.appendConstant = false ∨ e.endsWithConstant = false) ∧
    (signs ≠ "" → settings.appendConstant = true → e.endsWithConstant = true →
      (settings.compiler.compile (signs ++ "(" ++ s ++ ")")).code =
        "(" ++ (settings.compiler.compile s).code ++ " + " ++ settings.bindings.constant ++ ")") := by
  have hgrouped := parse_grouped hsigns heven h htokens hlen hd hds
  have hplain : settings.compiler.compile s = settings.compiler.emitted (settings.compiler.complete e) := by
    rw [Compiler.compile, Compiler.compileStrict_of_ok h]
  have hwhole : settings.compiler.compile (signs ++ "(" ++ s ++ ")") =
      settings.compiler.emitted (settings.compiler.complete (cancelled signs.toList e)) := by
    rw [Compiler.compile, Compiler.compileStrict_of_ok hgrouped]
  rw [hplain, hwhole]
  by_cases hnil : signs = ""
  · subst hnil
    have hsame : cancelled "".toList e = e := rfl
    rw [hsame]
    exact ⟨rfl, rfl, by simp, by simp⟩
  · have hpos : cancelled signs.toList e = .unary .pos e := by simp [cancelled, hnil]
    rw [hpos, Compiler.emitted_complete_pos]
    by_cases htwice : settings.compiler.appendConstant = true ∧ e.endsWithConstant = true
    · rw [if_pos htwice, Compiler.complete_of_endsWithConstant htwice.2]
      have hcode : (settings.compiler.emitted (.binary .add e (.var .c))).code =
          "(" ++ (settings.compiler.emitted e).code ++ " + " ++ settings.bindings.constant ++ ")" :=
        Emitter.emit_plusConstant _ e
      refine ⟨rfl, Emitter.helpers_plusConstant _ e, ⟨fun heq => ?_, ?_⟩, fun _ _ _ => hcode⟩
      · -- the code with the constant added is longer
        have hlonger := congrArg String.length (hcode.symm.trans heq)
        have hparen : "(".length = 1 := rfl
        simp only [String.length_append, hparen] at hlonger
        omega
      · rintro (hno | hno | hno)
        · exact absurd hno hnil
        · exact absurd (htwice.1.symm.trans hno) (by decide)
        · exact absurd (htwice.2.symm.trans hno) (by decide)
    · rw [if_neg htwice]
      have hnot : settings.appendConstant = false ∨ e.endsWithConstant = false := by
        simpa [Settings.compiler] using not_and_or.1 htwice
      exact ⟨rfl, rfl, by simp [hnot], fun _ happend hends => absurd ⟨happend, hends⟩ htwice⟩

/-- `--(z^2 + c)`: the signs cancel and the equation adds c, yet c is added to it once more -/
theorem compile_cancelledSigns :
    parse "z^2 + c" = .ok .mandelbrot ∧
    (({} : Settings).compiler.compile "z^2 + c").code = "(cmul(z, z) + c)" ∧
    (({} : Settings).compiler.compile "--(z^2 + c)").fallback = none ∧
    (({} : Settings).compiler.compile "--(z^2 + c)").code = "((cmul(z, z) + c) + c)" := by
  decide +kernel

/-- the tokens of the text z^2 -/
def squareTokens : List Token :=
  [⟨.ident "z", "z", 0⟩, ⟨.caret, "^", 1⟩, ⟨.number .two, "2", 2⟩, ⟨.endOfInput, "", 3⟩]

/-- `-+-(z^2)` is compiled to the code of `z^2`, which does not end in adding c -/
theorem grouped_compile_square :
    (parse "z^2" = .ok (.binary .pow (.var .z) (.number .two)) ∧ tokenize "z^2" = .ok squareTokens) ∧
    (({} : Settings).compiler.compile "-+-(z^2)").code = (({} : Settings).compiler.compile "z^2").code := by
  have hparse : parse "z^2" = .ok (.binary .pow (.var .z) (.number .two)) := by decide +kernel
  have htokens : tokenize "z^2" = .ok squareTokens := by decide +kernel
  have hd : Derives .sum [.ident "z", .caret, .number .two] [0, 0, 0] (.binary .pow (.var .z) (.number .two)) :=
    .sumFirst (.productFirst (.unaryPlain (.powerNext (.powerFirst (.var .z)) (.exponentPlain (.number .two)))))
  have hall := grouped_compile {} "-+-" "z^2" _ squareTokens [0, 0, 0] (by simp) (by decide) hparse htokens
    (by decide) hd (by simp)
  exact ⟨⟨hparse, htokens⟩, hall.2.2.1.2 (.inr (.inr rfl))⟩

end EscapeTime
