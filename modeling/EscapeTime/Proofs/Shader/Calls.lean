/-
Which helpers emitted code calls.

A call of a helper shows in the text as the name of the helper with an opening parenthesis behind it. The texts of
operands are arbitrary where the bindings are, but they always stand between characters that no name holds, and never
directly in front of a parenthesis. So no call arises where two pieces of code meet, and none is lost:

- `occurrences_code`: the text of a computation holds as many calls of a helper as the computation makes.
- `mem_helpers_iff_called`: the helpers reported for an equation are those that its code calls.
-/
import EscapeTime.Proofs.Number.Numeral
import EscapeTime.Proofs.Text.Occurrence

namespace EscapeTime

open Text

/-- how a call of the helper begins -/
def Helper.opening (h : Helper) : List Char :=
  h.name.toList ++ ['(']

theorem Helper.mem_all (h : Helper) : h ∈ all := by
  cases h <;> decide

namespace Computation

/-- how often the helper is called -/
def callCount (h : Helper) : Computation → Nat
  | var _ | number _ => 0
  | neg a | abs a | conj a => a.callCount h
  | add a b | sub a b => a.callCount h + b.callCount h
  | mul a b => (if h = .cmul then 1 else 0) + (a.callCount h + b.callCount h)
  | div a b => (if h = .cdiv then 1 else 0) + (a.callCount h + b.callCount h)
  | pow a b => (if h = .cpow then 1 else 0) + (a.callCount h + b.callCount h)
  | apply f a => (if h = f.helper then 1 else 0) + a.callCount h

theorem calls_iff_callCount (h : Helper) (a : Computation) : a.calls h = true ↔ 0 < a.callCount h := by
  induction a with
  | var v => simp [calls, callCount]
  | number x => simp [calls, callCount]
  | neg a ih | abs a ih | conj a ih => simpa [calls, callCount] using ih
  | add a b iha ihb | sub a b iha ihb => simp [calls, callCount, iha, ihb]
  | mul a b iha ihb | div a b iha ihb | pow a b iha ihb =>
    simp only [calls, callCount, Bool.or_eq_true, beq_iff_eq, iha, ihb]
    split_ifs with hh <;> simp [hh]
  | apply f a ih =>
    simp only [calls, callCount, Bool.or_eq_true, beq_iff_eq, ih]
    split_ifs with hh <;> simp [hh]

theorem mem_helpers_iff (h : Helper) (a : Computation) : h ∈ a.helpers ↔ a.calls h = true := by
  simp [helpers, h.mem_all]

theorem mem_helpers_iff_callCount (h : Helper) (a : Computation) : h ∈ a.helpers ↔ 0 < a.callCount h := by
  rw [mem_helpers_iff, calls_iff_callCount]

end Computation

/-! ## Calls in a text -/

namespace Helper

/-- no name ends in another one -/
theorem name_suffix_iff (h g : Helper) : h.name.toList <:+ g.name.toList ↔ h = g := by
  cases h <;> cases g <;> decide

theorem paren_notMem_name (h : Helper) : '(' ∉ h.name.toList := by
  cases h <;> decide

theorem paren_mem_opening (h : Helper) : '(' ∈ h.opening := by
  simp [opening]

theorem opening_ne_nil (h : Helper) : h.opening ≠ [] := by
  simp [opening]

/-- the characters that stand next to operands -/
def separators : List Char :=
  [' ', ',', '-', '+', ')']

theorem notMem_opening (h : Helper) : ∀ c ∈ separators, c ∉ h.opening := by
  have hall : separators.Forall (· ∉ h.opening) := by cases h <;> decide
  exact List.forall_iff_forall_mem.1 hall

/-- a text without parentheses -/
theorem occurrences_plain (h : Helper) {s : List Char} (hs : '(' ∉ s) : occurrences h.opening s = 0 :=
  occurrences_eq_zero h.paren_mem_opening hs

/-- a word in front of a parenthesis -/
theorem occurrences_word (h : Helper) {word : List Char} (hword : '(' ∉ word) (s : List Char) :
    occurrences h.opening (word ++ '(' :: s) =
      (if h.name.toList <:+ word then 1 else 0) + occurrences h.opening s := by
  have hnone : occurrences (h.name.toList ++ ['(']) word = 0 := h.occurrences_plain hword
  rw [opening, occurrences_last h.paren_notMem_name, hnone, Nat.add_zero]

/-- a word that is no helper, or no word at all, in front of a parenthesis -/
theorem occurrences_group (h : Helper) {word : List Char} (hword : word ∈ ["".toList, "abs".toList, "vec2".toList])
    (s : List Char) : occurrences h.opening (word ++ '(' :: s) = occurrences h.opening s := by
  have hparen : '(' ∉ word := by
    revert word
    decide
  have hname : ¬ h.name.toList <:+ word := by
    revert word
    cases h <;> decide
  rw [h.occurrences_word hparen, if_neg hname, Nat.zero_add]

/-- an operand in front of a separator -/
theorem occurrences_operand (h : Helper) {c : Char} (hc : c ∈ separators) (s t : List Char) :
    occurrences h.opening (s ++ c :: t) = occurrences h.opening s + occurrences h.opening t :=
  occurrences_separator h.opening_ne_nil (h.notMem_opening c hc)

theorem occurrences_skip (h : Helper) {c : Char} (hc : c ∈ separators) (t : List Char) :
    occurrences h.opening (c :: t) = occurrences h.opening t :=
  Text.occurrences_skip h.opening_ne_nil (h.notMem_opening c hc) t

/-- an operand in front of a closing parenthesis, at the end -/
theorem occurrences_closed (h : Helper) (s : List Char) :
    occurrences h.opening (s ++ [')']) = occurrences h.opening s := by
  rw [h.occurrences_operand (by decide), h.occurrences_plain (s := []) (by simp), Nat.add_zero]

/-- two operands around a sign, in parentheses -/
theorem occurrences_between (h : Helper) {c : Char} (hc : c ∈ separators) (s t : List Char) :
    occurrences h.opening ("".toList ++ '(' :: (s ++ ' ' :: c :: ' ' :: (t ++ [')']))) =
      occurrences h.opening s + occurrences h.opening t := by
  rw [h.occurrences_group (by simp), h.occurrences_operand (by decide), h.occurrences_skip hc,
    h.occurrences_skip (by decide), h.occurrences_closed]

end Helper

/-- a number is written with letters, digits, a sign and a point, be it finite or not -/
theorem Binary64.notMem_literal {c : Char} (hc : c.isAlphanum = false) (hmarks : c ≠ '-' ∧ c ≠ '.') (x : Binary64) :
    c ∉ x.literal.toList := by
  intro hmem
  cases hfin : x.isFinite with
  | true =>
    rcases literal_chars hfin c hmem with h | h | h
    · exact hmarks.1 h
    · exact hmarks.2 h
    · simp [Char.isAlphanum, h] at hc
  | false =>
    have hwhole : x.isWhole = false := by simp [isWhole, hfin]
    have hwords : ∀ d ∈ "NaN".toList ++ '-' :: "inf".toList, d = '-' ∨ d.isAlphanum = true :=
      List.forall_iff_forall_mem.1 (by decide)
    have hword : c ∈ "NaN".toList ++ '-' :: "inf".toList := by
      simp only [literal, hwhole, display, hfin, Bool.false_eq_true, if_false] at hmem
      split_ifs at hmem
      · exact List.mem_append_left _ hmem
      · rw [toList_signed] at hmem
        split_ifs at hmem
        · exact List.mem_append_right _ hmem
        · exact List.mem_append_right _ (List.mem_cons_of_mem _ hmem)
    rcases hwords c hword with h | h
    · exact hmarks.1 h
    · rw [h] at hc
      cases hc

namespace Computation

theorem occurrences_call1 (h g : Helper) (a : String) :
    occurrences h.opening (call1 g a).toList = (if h = g then 1 else 0) + occurrences h.opening a.toList := by
  have htext : (call1 g a).toList = g.name.toList ++ '(' :: (a.toList ++ [')']) := by simp [call1]
  rw [htext, h.occurrences_word g.paren_notMem_name, h.occurrences_closed]
  simp only [Helper.name_suffix_iff]

theorem occurrences_call2 (h g : Helper) (a b : String) :
    occurrences h.opening (call2 g a b).toList =
      (if h = g then 1 else 0) + (occurrences h.opening a.toList + occurrences h.opening b.toList) := by
  have htext : (call2 g a b).toList = g.name.toList ++ '(' :: (a.toList ++ ',' :: ' ' :: (b.toList ++ [')'])) := by
    simp [call2]
  rw [htext, h.occurrences_word g.paren_notMem_name, h.occurrences_operand (by decide), h.occurrences_skip (by decide),
    h.occurrences_closed]
  simp only [Helper.name_suffix_iff]

/-- **The text of a computation holds as many calls of a helper as the computation makes**, if the names hold none. -/
theorem occurrences_code (names : Bindings) (h : Helper)
    (hnames : ∀ v, occurrences h.opening (names.text v).toList = 0) (a : Computation) :
    occurrences h.opening (a.code names).toList = a.callCount h := by
  induction a with
  | var v => exact hnames v
  | number x =>
    have htext : (code names (number x)).toList =
        "vec2".toList ++ '(' :: (x.literal.toList ++ ',' :: " 0.0)".toList) := by
      simp [code]
    rw [htext, h.occurrences_group (by simp), h.occurrences_operand (by decide),
      h.occurrences_plain (x.notMem_literal rfl (by decide)), h.occurrences_plain (by decide)]
    rfl
  | neg a ih =>
    have htext : (code names (neg a)).toList = "".toList ++ '(' :: '-' :: ((a.code names).toList ++ [')']) := by
      simp [code]
    rw [htext, h.occurrences_group (by simp), h.occurrences_skip (by decide), h.occurrences_closed, ih, callCount]
  | abs a ih =>
    have htext : (code names (abs a)).toList = "abs".toList ++ '(' :: ((a.code names).toList ++ [')']) := by simp [code]
    rw [htext, h.occurrences_group (by simp), h.occurrences_closed, ih, callCount]
  | conj a ih =>
    have htext : (code names (conj a)).toList =
        "".toList ++ '(' :: ((a.code names).toList ++ ' ' :: "* vec2(1.0, -1.0))".toList) := by
      simp [code]
    have hfactor : occurrences h.opening "* vec2(1.0, -1.0))".toList = 0 := by cases h <;> decide
    rw [htext, h.occurrences_group (by simp), h.occurrences_operand (by decide), hfactor, ih, callCount]
    rfl
  | add a b iha ihb =>
    have htext : (code names (add a b)).toList =
        "".toList ++ '(' :: ((a.code names).toList ++ ' ' :: '+' :: ' ' :: ((b.code names).toList ++ [')'])) := by
      simp [code]
    rw [htext, h.occurrences_between (by decide), iha, ihb, callCount]
  | sub a b iha ihb =>
    have htext : (code names (sub a b)).toList =
        "".toList ++ '(' :: ((a.code names).toList ++ ' ' :: '-' :: ' ' :: ((b.code names).toList ++ [')'])) := by
      simp [code]
    rw [htext, h.occurrences_between (by decide), iha, ihb, callCount]
  | mul a b iha ihb | div a b iha ihb | pow a b iha ihb => rw [code, occurrences_call2, iha, ihb, callCount]
  | apply f a ih => rw [code, occurrences_call1, ih, callCount]

end Computation

/-- **The helpers reported for an equation are exactly those that its code calls.** Where no name holds the name of a
helper with a parenthesis behind it, a helper is reported exactly when its name occurs in the code with a parenthesis
behind it. -/
theorem mem_helpers_iff_called (m : Emitter)
    (hnames : ∀ text ∈ [m.bindings.iterate, m.bindings.constant, m.bindings.power], ∀ g : Helper,
      ¬ (g.name ++ "(").toList <:+: text.toList) (e : Expr) (h : Helper) :
    h ∈ m.helpers e ↔ (h.name ++ "(").toList <:+: (m.emit e).toList := by
  have hopening : ∀ g : Helper, (g.name ++ "(").toList = g.opening := fun g => String.toList_append
  have hnone : ∀ v, occurrences h.opening (m.bindings.text v).toList = 0 := by
    intro v
    rw [occurrences_eq_zero_iff, ← hopening]
    exact hnames _ (by cases v <;> simp [Bindings.text]) h
  rw [hopening, ← occurrences_pos_iff, Emitter.emit, Computation.occurrences_code _ h hnone, Emitter.helpers,
    Computation.mem_helpers_iff_callCount]

/-- names that begin as a call ends, and end as a call begins -/
def Emitter.torn : Emitter :=
  ⟨{ iterate := "mul(u)", constant := "cmul" }, true⟩

/-- `-c / z` -/
def Expr.negQuotient : Expr :=
  .binary .div (.unary .neg (.var .c)) (.var .z)

/-- the code `cdiv((-cmul), mul(u))` divides, and does not multiply -/
theorem mem_helpers_torn :
    (∀ text ∈ [Emitter.torn.bindings.iterate, Emitter.torn.bindings.constant, Emitter.torn.bindings.power],
      ∀ g : Helper, ¬ (g.name ++ "(").toList <:+: text.toList) ∧
    Emitter.torn.emit .negQuotient = "cdiv((-cmul), mul(u))" ∧
    (Helper.cdiv ∈ Emitter.torn.helpers .negQuotient ∧ "cdiv(".toList <:+: (Emitter.torn.emit .negQuotient).toList) ∧
    Helper.cmul ∉ Emitter.torn.helpers .negQuotient ∧
      ¬ "cmul(".toList <:+: (Emitter.torn.emit .negQuotient).toList := by
  have hnames : ∀ text ∈ [Emitter.torn.bindings.iterate, Emitter.torn.bindings.constant, Emitter.torn.bindings.power],
      ∀ g : Helper, ¬ (g.name ++ "(").toList <:+: text.toList := by
    intro text htext g
    revert text
    cases g <;> decide
  have hdiv : Helper.cdiv ∈ Emitter.torn.helpers .negQuotient := by decide
  have hmul : Helper.cmul ∉ Emitter.torn.helpers .negQuotient := by decide
  exact ⟨hnames, by decide, ⟨hdiv, (mem_helpers_iff_called _ hnames _ .cdiv).1 hdiv⟩, hmul,
    fun h => hmul ((mem_helpers_iff_called _ hnames _ .cmul).2 h)⟩

end EscapeTime
