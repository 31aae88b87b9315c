/-
Emitted code may stand as an operand anywhere.

A text is an operand when its parentheses are balanced and each of its commas and operators stands inside parentheses.
Then nothing of what stands around it can bind to a part of it.

- `Balanced.append`, `Balanced.group`: balanced texts one behind another, and in parentheses.
- `operand_group`: a word with a balanced text in parentheses behind it is an operand.
- `operand_code`: so is the code of every computation, as each is written in this form or is a name.
- `Operand.spliced`: in a longer text, an operand ends at the level it began at and never falls below it, and its commas
  and operators stand at a higher one.
- `emit_operand`: the code of an equation is an operand if the names of the variables are.
-/
import EscapeTime.Proofs.Shader.Calls
import EscapeTime.Proofs.Warning.Partners

namespace EscapeTime

namespace Validation

variable {a b : List Char}

/-! ## Levels of joined texts -/

theorem level_append_left (b : List Char) {k : Nat} (hk : k ≤ a.length) : level (a ++ b) k = level a k := by
  rw [level, List.take_append_of_le_length hk, level]

theorem level_append_right (a b : List Char) (k : Nat) :
    level (a ++ b) (a.length + k) = level a a.length + level b k := by
  simp only [level, List.take_length_add_append, List.take_length, List.count_append]
  omega

theorem Balanced.append (ha : Balanced a) (hb : Balanced b) : Balanced (a ++ b) := by
  constructor
  · intro k
    rcases Nat.le_total k a.length with hk | hk
    · rw [level_append_left b hk]
      exact ha.1 k
    · obtain ⟨j, rfl⟩ := Nat.exists_eq_add_of_le hk
      rw [level_append_right, ha.2, zero_add]
      exact hb.1 j
  · rw [List.length_append, level_append_right, ha.2, hb.2, add_zero]

/-- inside parentheses a text is one level up -/
theorem level_group (a : List Char) {k : Nat} (hk : k ≤ a.length) :
    level ('(' :: (a ++ [')'])) (k + 1) = 1 + level a k := by
  rw [level_cons, level_append_left [')'] hk]
  rfl

theorem Balanced.group (h : Balanced a) : Balanced ('(' :: (a ++ [')'])) := by
  have hend : level ('(' :: (a ++ [')'])) (a.length + 1 + 1) = 0 := by
    rw [level_cons, level_append_right, h.2]
    rfl
  have hlength : ('(' :: (a ++ [')'])).length = a.length + 1 + 1 := by simp
  constructor
  · intro k
    rcases Nat.lt_or_ge k (a.length + 2) with hk | hk
    · cases k with
      | zero => simp
      | succ k =>
        have hinside := h.1 k
        rw [level_group a (by omega)]
        omega
    · rw [level_of_length_le (by omega), hlength, hend]
  · rw [hlength, hend]

end Validation

open Validation

/-! ## Operands -/

/-- what binds to the text around it: a comma, or an operator -/
def binders : List Char :=
  [',', '+', '-', '*', '/']

/-- the parentheses are balanced, and no comma or operator stands outside of all of them -/
structure Operand (text : List Char) : Prop where
  balanced : Balanced text
  inside : ∀ i c, text[i]? = some c → c ∈ binders → level text i ≠ 0

theorem operand_iff (text : List Char) :
    Operand text ↔ ((unbalanced? 0 0 text.zipIdx).isNone &&
      (List.range text.length).all fun i => text[i]?.all (!binders.contains ·) || level text i != 0) = true := by
  simp only [Bool.and_eq_true, Option.isNone_iff_eq_none, unbalanced?_eq_none_iff, List.all_eq_true, List.mem_range,
    Bool.or_eq_true, Option.all_eq_true, bne_iff_ne, Bool.not_eq_true', List.contains_eq_mem, decide_eq_false_iff_not]
  constructor
  · intro h
    refine ⟨h.balanced, fun i _ => ?_⟩
    by_cases hlevel : level text i = 0
    · exact .inl fun c hi hc => h.inside i c hi hc hlevel
    · exact .inr hlevel
  · rintro ⟨hbalanced, hinside⟩
    refine ⟨hbalanced, fun i c hi hc => ?_⟩
    rcases hinside i (List.getElem?_eq_some_iff.1 hi).1 with hnone | hlevel
    · exact absurd hc (hnone c hi)
    · exact hlevel

instance : DecidablePred Operand :=
  fun text => decidable_of_iff' _ (operand_iff text)

/-- a word: neither parentheses nor anything that binds -/
def Plain (text : List Char) : Prop :=
  ∀ c ∈ text, c ∉ '(' :: ')' :: binders

instance : DecidablePred Plain :=
  fun text => List.decidableBAll _ text

theorem Plain.balanced {text : List Char} (h : Plain text) : Balanced text :=
  balanced_of_no_parenthesis (fun hopen => h '(' hopen (by simp)) fun hclose => h ')' hclose (by simp)

/-- a word, and behind it a balanced text in parentheses -/
theorem operand_group {word text : List Char} (hword : Plain word) (htext : Balanced text) :
    Operand (word ++ '(' :: (text ++ [')'])) := by
  refine ⟨hword.balanced.append htext.group, fun i c hi hc => ?_⟩
  rcases Nat.lt_or_ge i word.length with hlt | hge
  · -- the word holds nothing that binds
    rw [List.getElem?_append_left hlt] at hi
    exact absurd (List.mem_cons_of_mem _ (List.mem_cons_of_mem _ hc)) (hword c (List.mem_of_getElem? hi))
  · obtain ⟨j, rfl⟩ := Nat.exists_eq_add_of_le hge
    rw [List.getElem?_append_right hge, Nat.add_sub_cancel_left] at hi
    rw [level_append_right, hword.balanced.2, zero_add]
    cases j with
    | zero =>
      obtain rfl : '(' = c := by simpa using hi
      exact absurd hc (by decide)
    | succ j =>
      have hj := (List.getElem?_eq_some_iff.1 hi).1
      simp only [List.length_cons, List.length_append, List.length_nil] at hj
      have hinside := htext.1 j
      rw [level_group text (by omega)]
      omega

theorem operand_parentheses {text : List Char} (h : Balanced text) : Operand ('(' :: (text ++ [')'])) := by
  have hnone : Plain [] := by decide
  exact operand_group hnone h

/-- **An operand stands in a text as one thing.** It ends at the level at which it began and falls below it nowhere, and
what binds in it stands at a higher level than what binds around it. -/
theorem Operand.spliced {text : List Char} (h : Operand text) (before behind : List Char) :
    let whole := before ++ text ++ behind
    level whole (before.length + text.length) = level whole before.length ∧
    (∀ i ≤ text.length, level whole before.length ≤ level whole (before.length + i)) ∧
    ∀ i c, text[i]? = some c → c ∈ binders → level whole before.length < level whole (before.length + i) := by
  intro whole
  have hlevel : ∀ i ≤ text.length, level whole (before.length + i) = level whole before.length + level text i := by
    intro i hi
    have hwhole : whole = before ++ (text ++ behind) := List.append_assoc before text behind
    rw [hwhole, level_append_right, level_append_left behind hi, level_append_left (text ++ behind) le_rfl]
  refine ⟨?_, fun i hi => ?_, fun i c hi hc => ?_⟩
  · rw [hlevel _ le_rfl, h.balanced.2, add_zero]
  · have hnonneg := h.balanced.1 i
    rw [hlevel i hi]
    omega
  · have hnonneg := h.balanced.1 i
    have hinside := h.inside i c hi hc
    rw [hlevel i (List.getElem?_eq_some_iff.1 hi).1.le]
    omega

/-! ## Code -/

namespace Computation

theorem plain_name (h : Helper) : Plain h.name.toList := by
  cases h <;> decide

theorem balanced_literal (x : Binary64) : Balanced x.literal.toList :=
  balanced_of_no_parenthesis (x.notMem_literal rfl (by decide)) (x.notMem_literal rfl (by decide))

theorem operand_call1 (h : Helper) {s : String} (hs : Operand s.toList) : Operand (call1 h s).toList := by
  have htext : (call1 h s).toList = h.name.toList ++ '(' :: (s.toList ++ [')']) := by simp [call1]
  rw [htext]
  exact operand_group (plain_name h) hs.balanced

theorem operand_call2 (h : Helper) {s t : String} (hs : Operand s.toList) (ht : Operand t.toList) :
    Operand (call2 h s t).toList := by
  have htext : (call2 h s t).toList = h.name.toList ++ '(' :: (s.toList ++ ", ".toList ++ t.toList ++ [')']) := by
    simp [call2]
  have hcomma : Balanced ", ".toList := balanced_of_no_parenthesis (by decide) (by decide)
  rw [htext]
  exact operand_group (plain_name h) ((hs.balanced.append hcomma).append ht.balanced)

/-- two operands with a sign between them, in parentheses -/
theorem operand_between {s t : List Char} (sign : List Char) (hsign : '(' ∉ sign ∧ ')' ∉ sign) (hs : Operand s)
    (ht : Operand t) : Operand ('(' :: (s ++ sign ++ t ++ [')'])) := by
  have hbalanced : Balanced sign := balanced_of_no_parenthesis hsign.1 hsign.2
  exact operand_parentheses ((hs.balanced.append hbalanced).append ht.balanced)

/-- the code of a computation is an operand if the names are -/
theorem operand_code (names : Bindings) (hnames : ∀ v, Operand (names.text v).toList) (a : Computation) :
    Operand (a.code names).toList := by
  induction a with
  | var v => exact hnames v
  | number x =>
    have htext : (code names (number x)).toList =
        "vec2".toList ++ '(' :: (x.literal.toList ++ ", 0.0".toList ++ [')']) := by
      simp [code]
    have hzero : Balanced ", 0.0".toList := balanced_of_no_parenthesis (by decide) (by decide)
    rw [htext]
    exact operand_group (by decide) ((balanced_literal x).append hzero)
  | neg a ih =>
    have htext : (code names (neg a)).toList = '(' :: ("-".toList ++ (a.code names).toList ++ [')']) := by simp [code]
    have hminus : Balanced "-".toList := balanced_of_no_parenthesis (by decide) (by decide)
    rw [htext]
    exact operand_parentheses (hminus.append ih.balanced)
  | abs a ih =>
    have htext : (code names (abs a)).toList = "abs".toList ++ '(' :: ((a.code names).toList ++ [')']) := by simp [code]
    rw [htext]
    exact operand_group (by decide) ih.balanced
  | conj a ih =>
    have htext : (code names (conj a)).toList =
        '(' :: ((a.code names).toList ++ " * ".toList ++ "vec2(1.0, -1.0)".toList ++ [')']) := by
      simp [code]
    rw [htext]
    exact operand_between _ (by decide) ih (by decide)
  | add a b iha ihb =>
    have htext : (code names (add a b)).toList =
        '(' :: ((a.code names).toList ++ " + ".toList ++ (b.code names).toList ++ [')']) := by
      simp [code]
    rw [htext]
    exact operand_between _ (by decide) iha ihb
  | sub a b iha ihb =>
    have htext : (code names (sub a b)).toList =
        '(' :: ((a.code names).toList ++ " - ".toList ++ (b.code names).toList ++ [')']) := by
      simp [code]
    rw [htext]
    exact operand_between _ (by decide) iha ihb
  | mul a b iha ihb | div a b iha ihb | pow a b iha ihb => exact operand_call2 _ iha ihb
  | apply f a ih => exact operand_call1 _ ih

end Computation

/-- **Emitted code may stand as an operand or an argument anywhere.** If the names of the variables have balanced
parentheses, with commas and operators inside parentheses only, then so has the code of every equation, whether small
powers are expanded or not. In any text around it the code then ends at the level at which it began, falls below it
nowhere, and has its own commas and operators at higher levels. -/
theorem emit_operand (m : Emitter)
    (hnames : ∀ text ∈ [m.bindings.iterate, m.bindings.constant, m.bindings.power], Operand text.toList) (e : Expr) :
    Operand (m.emit e).toList ∧
    ∀ before behind : List Char,
      let code := (m.emit e).toList
      let whole := before ++ code ++ behind
      level whole (before.length + code.length) = level whole before.length ∧
      (∀ i ≤ code.length, level whole before.length ≤ level whole (before.length + i)) ∧
      ∀ i c, code[i]? = some c → c ∈ [',', '+', '-', '*', '/'] →
        level whole before.length < level whole (before.length + i) := by
  have hoperand : Operand (m.emit e).toList := by
    refine Computation.operand_code m.bindings (fun v => hnames _ ?_) _
    cases v <;> simp [Bindings.text]
  exact ⟨hoperand, hoperand.spliced⟩

/-- names that are calls, with operators and a comma in their arguments -/
def Emitter.calling : Emitter :=
  ⟨{ iterate := "f(a + b, (u))", constant := "g()(-x)" }, true⟩

/-- `z^3 - conj(-3)`, with the sign in the number -/
def Expr.cubeLessConjugate : Expr :=
  .binary .sub (.binary .pow (.var .z) (.number .three)) (.call .conj (.number ⟨0xc008000000000000⟩))

/-- behind `n - ` the code is subtracted as a whole: its own minus sign stands one level up -/
theorem emit_operand_calling :
    (∀ text ∈ [Emitter.calling.bindings.iterate, Emitter.calling.bindings.constant, Emitter.calling.bindings.power],
      Operand text.toList) ∧
    Emitter.calling.emit .cubeLessConjugate =
      "(cmul(cmul(f(a + b, (u)), f(a + b, (u))), f(a + b, (u))) - (vec2(-3.0, 0.0) * vec2(1.0, -1.0)))" ∧
    Operand (Emitter.calling.emit .cubeLessConjugate).toList ∧
    level ("n - ".toList ++ (Emitter.calling.emit .cubeLessConjugate).toList ++ []) 4 <
      level ("n - ".toList ++ (Emitter.calling.emit .cubeLessConjugate).toList ++ []) (4 + 57) := by
  have hnames : ∀ text ∈ [Emitter.calling.bindings.iterate, Emitter.calling.bindings.constant,
      Emitter.calling.bindings.power], Operand text.toList := by
    decide
  obtain ⟨hoperand, hspliced⟩ := emit_operand Emitter.calling hnames .cubeLessConjugate
  exact ⟨hnames, by decide +kernel, hoperand, (hspliced "n - ".toList []).2.2 57 '-' (by decide +kernel) (by decide)⟩

end EscapeTime
