/-
Emitted code can be read back: the text determines the computation.

`Settles expand e a` gives the computation `a` of an equation `e` by rules, one for each kind of node; `ofExpr` computes
it (`settles_iff`). The text of a computation is a word and a body behind it (`text_eq`). The word tells the operators
apart but for those that are written in parentheses and for the two that are written as vectors, and there the body
does.

- `settles_iff`: every equation has exactly one computation.
- `readable`: the text of a computation, with any text behind it that does not run on from it, has no second reading.
- `emit_eq_iff`: two equations have the same code exactly when they have the same computation.
-/
import EscapeTime.Proofs.Shader.Power
import EscapeTime.Proofs.Token.Spelling

namespace EscapeTime

/-! ## The computation of an equation, by rules -/

/-- `a` is the computation of an equation; small powers of repeatable bases are products if `expand` is set -/
inductive Settles (expand : Bool) : Expr → Computation → Prop where
  | var (v : Variable) : Settles expand (.var v) (.var v)
  | number (x : Binary64) : Settles expand (.number x) (.number x)
  | pos {e a} : Settles expand e a → Settles expand (.unary .pos e) a
  | neg {e a} : Settles expand e a → Settles expand (.unary .neg e) (.neg a)
  | add {l a r b} : Settles expand l a → Settles expand r b → Settles expand (.binary .add l r) (.add a b)
  | sub {l a r b} : Settles expand l a → Settles expand r b → Settles expand (.binary .sub l r) (.sub a b)
  | mul {l a r b} : Settles expand l a → Settles expand r b → Settles expand (.binary .mul l r) (.mul a b)
  | div {l a r b} : Settles expand l a → Settles expand r b → Settles expand (.binary .div l r) (.div a b)
  | square {l a} (hexpand : expand = true) (hbase : Repeatable l) :
      Settles expand l a → Settles expand (.binary .pow l (.number .two)) (.mul a a)
  | cube {l a} (hexpand : expand = true) (hbase : Repeatable l) :
      Settles expand l a → Settles expand (.binary .pow l (.number .three)) (.mul (.mul a a) a)
  | pow {l a r b} (h : ¬ (expand = true ∧ Expr.IsSmallPower l r)) :
      Settles expand l a → Settles expand r b → Settles expand (.binary .pow l r) (.pow a b)
  | abs {e a} : Settles expand e a → Settles expand (.call .abs e) (.abs a)
  | modulus {e a} : Settles expand e a → Settles expand (.modulus e) (.abs a)
  | conj {e a} : Settles expand e a → Settles expand (.call .conj e) (.conj a)
  | apply {f g e a} (h : (f, g) ∈ [(Func.sin, Elementary.sin), (.cos, .cos), (.tan, .tan), (.exp, .exp), (.sqrt, .sqrt),
      (.log, .log), (.ln, .log)]) : Settles expand e a → Settles expand (.call f e) (.apply g a)

theorem settles_powered {expand : Bool} {l r : Expr} {a b : Computation} (hl : Settles expand l a)
    (hr : Settles expand r b) : Settles expand (.binary .pow l r) (Computation.powered expand l r a b) := by
  cases hpower : Expr.smallPower? expand l r with
  | none =>
    rw [Computation.powered, hpower]
    exact .pow (Expr.smallPower?_eq_none_iff.1 hpower) hl hr
  | some p =>
    rw [Computation.powered, hpower]
    obtain ⟨hexpand, hbase, rfl⟩ := Expr.smallPower?_eq_some_iff.1 hpower
    cases p with
    | square => exact .square hexpand hbase hl
    | cube => exact .cube hexpand hbase hl

theorem settles_ofExpr (expand : Bool) (e : Expr) : Settles expand e (Computation.ofExpr expand e) := by
  induction e with
  | var v => exact .var v
  | number x => exact .number x
  | unary sign e ih =>
    cases sign with
    | pos => exact .pos ih
    | neg => exact .neg ih
  | binary op l r ihl ihr =>
    cases op with
    | add => exact .add ihl ihr
    | sub => exact .sub ihl ihr
    | mul => exact .mul ihl ihr
    | div => exact .div ihl ihr
    | pow => exact settles_powered ihl ihr
  | call f e ih =>
    cases f with
    | abs => exact .abs ih
    | conj => exact .conj ih
    | _ => exact .apply (by decide) ih
  | modulus e ih => exact .modulus ih

theorem ofExpr_of_settles {expand : Bool} {e : Expr} {a : Computation} (h : Settles expand e a) :
    Computation.ofExpr expand e = a := by
  induction h with
  | var v => rfl
  | number x => rfl
  | pos _ ih => exact ih
  | neg _ ih | abs _ ih | modulus _ ih | conj _ ih => simp [Computation.ofExpr, Computation.applied, ih]
  | add _ _ ihl ihr | sub _ _ ihl ihr | mul _ _ ihl ihr | div _ _ ihl ihr => simp [Computation.ofExpr, ihl, ihr]
  | @square l a hexpand hbase _ ih =>
    have hpower : Expr.smallPower? expand l (.number .two) = some .square :=
      Expr.smallPower?_eq_some_iff.2 ⟨hexpand, hbase, rfl⟩
    rw [Computation.ofExpr, ih, Computation.powered, hpower]
  | @cube l a hexpand hbase _ ih =>
    have hpower : Expr.smallPower? expand l (.number .three) = some .cube :=
      Expr.smallPower?_eq_some_iff.2 ⟨hexpand, hbase, rfl⟩
    rw [Computation.ofExpr, ih, Computation.powered, hpower]
  | pow h _ _ ihl ihr =>
    rw [Computation.ofExpr, ihl, ihr, Computation.powered, Expr.smallPower?_eq_none_iff.2 h]
  | apply h _ ih =>
    simp only [List.mem_cons, List.not_mem_nil, or_false, Prod.mk.injEq] at h
    rcases h with ⟨rfl, rfl⟩ | ⟨rfl, rfl⟩ | ⟨rfl, rfl⟩ | ⟨rfl, rfl⟩ | ⟨rfl, rfl⟩ | ⟨rfl, rfl⟩ | ⟨rfl, rfl⟩ <;>
      simp [Computation.ofExpr, Computation.applied, ih]

theorem settles_iff (expand : Bool) (e : Expr) (a : Computation) :
    Settles expand e a ↔ Computation.ofExpr expand e = a :=
  ⟨ofExpr_of_settles, fun h => h ▸ settles_ofExpr expand e⟩

namespace Computation

/-- the numbers that occur -/
def numbers : Computation → List Binary64
  | var _ => []
  | number value => [value]
  | neg a | abs a | conj a | apply _ a => a.numbers
  | add a b | sub a b | mul a b | div a b | pow a b => a.numbers ++ b.numbers

/-- a power has no other numbers than its base and its exponent -/
theorem mem_numbers_powered {expand : Bool} {l r : Expr} {a b : Computation} {x : Binary64}
    (h : x ∈ (powered expand l r a b).numbers) : x ∈ a.numbers ∨ x ∈ b.numbers := by
  unfold powered at h
  split at h <;> simp only [numbers, List.mem_append] at h <;> tauto

theorem mem_numbers_ofExpr {expand : Bool} {e : Expr} {x : Binary64} (h : x ∈ (ofExpr expand e).numbers) :
    x ∈ e.numbers := by
  induction e with
  | var v => exact h
  | number y => exact h
  | unary sign e ih => cases sign <;> exact ih h
  | binary op l r ihl ihr =>
    have hboth : x ∈ (ofExpr expand l).numbers ∨ x ∈ (ofExpr expand r).numbers := by
      cases op with
      | pow => exact mem_numbers_powered h
      | _ => exact List.mem_append.1 h
    exact List.mem_append.2 (hboth.imp ihl ihr)
  | call f e ih => cases f <;> exact ih h
  | modulus e ih => exact ih h

/-! ## The text of a computation, cut behind its first word -/

/-- the code under the default names, as characters -/
def text (a : Computation) : List Char :=
  (a.code {}).toList

/-- the identifier that the text begins with, if it does -/
def word : Computation → String
  | var .z => "z"
  | var .c => "c"
  | var .n | number _ => "vec2"
  | neg _ | conj _ | add _ _ | sub _ _ => ""
  | abs _ => "abs"
  | mul _ _ => "cmul"
  | div _ _ => "cdiv"
  | pow _ _ => "cpow"
  | apply f _ => f.helper.name

/-- what stands behind the first word -/
def body : Computation → List Char
  | var .z | var .c => []
  | var .n => '(' :: ("power".toList ++ ',' :: " 0.0)".toList)
  | number x => '(' :: (x.literal.toList ++ ',' :: " 0.0)".toList)
  | neg a => '(' :: '-' :: (a.text ++ [')'])
  | abs a | apply _ a => '(' :: (a.text ++ [')'])
  | conj a => '(' :: (a.text ++ ' ' :: '*' :: " vec2(1.0, -1.0))".toList)
  | add a b => '(' :: (a.text ++ ' ' :: '+' :: ' ' :: (b.text ++ [')']))
  | sub a b => '(' :: (a.text ++ ' ' :: '-' :: ' ' :: (b.text ++ [')']))
  | mul a b | div a b | pow a b => '(' :: (a.text ++ ',' :: ' ' :: (b.text ++ [')']))

theorem text_eq (a : Computation) : a.text = a.word.toList ++ a.body := by
  cases a with
  | var v => cases v <;> rfl
  | number x => simp [text, code, word, body]
  | neg a => simp [text, code, word, body]
  | abs a => simp [text, code, word, body]
  | conj a => simp [text, code, word, body]
  | add a b => simp [text, code, word, body]
  | sub a b => simp [text, code, word, body]
  | mul a b => simp [text, code, call2, Helper.name, word, body]
  | div a b => simp [text, code, call2, Helper.name, word, body]
  | pow a b => simp [text, code, call2, Helper.name, word, body]
  | apply f a => simp [text, code, call1, word, body]

theorem isIdentPart_word (a : Computation) : ∀ c ∈ a.word.toList, isIdentPart c = true := by
  have h : a.word.toList.all isIdentPart = true := by
    cases a with
    | var v => cases v <;> decide
    | apply f _ =>
      simp only [word]
      cases f <;> decide
    | _ =>
      simp only [word]
      decide
  exact List.all_eq_true.1 h

/-- the first word does not run on into what stands behind it -/
theorem separated_body (a : Computation) {s : List Char} (hs : Separated s) : Separated (a.body ++ s) := by
  cases a with
  | var v =>
    cases v with
    | z | c => exact hs
    | n => exact separated_of_ofSymbol? rfl _
  | _ => exact separated_of_ofSymbol? rfl _

/-- equal texts have equal words and equal bodies -/
theorem word_body_eq {a b : Computation} {s t : List Char} (hs : Separated s) (ht : Separated t)
    (h : a.text ++ s = b.text ++ t) : a.word = b.word ∧ a.body ++ s = b.body ++ t := by
  have hstop : ∀ (c : Computation) {u : List Char}, Separated u → ∀ d ∈ (c.body ++ u).head?, isIdentPart d = false :=
    fun c _ hu d hd => (separated_body c hu d hd).1
  rw [text_eq, text_eq, List.append_assoc, List.append_assoc] at h
  constructor
  · rw [← String.toList_inj, ← takeWhile_run _ a.isIdentPart_word (hstop a hs), h,
      takeWhile_run _ b.isIdentPart_word (hstop b ht)]
  · rw [← dropWhile_run _ a.isIdentPart_word (hstop a hs), h, dropWhile_run _ b.isIdentPart_word (hstop b ht)]

/-- no text begins with a minus sign -/
theorem text_ne_minus (a : Computation) (s t : List Char) : a.text ++ s ≠ '-' :: t := by
  rw [text_eq]
  cases a with
  | var v => cases v <;> simp [word, body]
  | apply f a => cases f <;> simp [word, Elementary.helper, Helper.name]
  | _ => simp [word, body]

/-- `a` is written as a vector of `w` and zero -/
inductive Scalar : Computation → List Char → Prop where
  | power : Scalar (var .n) "power".toList
  | number (x : Binary64) : Scalar (number x) x.literal.toList

/-- `a` is written in parentheses, as `x` with the text `u` behind it -/
inductive Grouped : Computation → Computation → List Char → Prop where
  | conj (x : Computation) : Grouped (conj x) x (' ' :: '*' :: " vec2(1.0, -1.0))".toList)
  | add (x y : Computation) : Grouped (add x y) x (' ' :: '+' :: ' ' :: (y.text ++ [')']))
  | sub (x y : Computation) : Grouped (sub x y) x (' ' :: '-' :: ' ' :: (y.text ++ [')']))

/-- the pairs of computations that their first words do not tell apart -/
inductive Alike : Computation → Computation → Prop where
  | iterate : Alike (var .z) (var .z)
  | constant : Alike (var .c) (var .c)
  | scalar {a b w w'} (ha : Scalar a w) (hb : Scalar b w') : Alike a b
  | neg (a b : Computation) : Alike (neg a) (neg b)
  | negGrouped {b y v} (a : Computation) (hb : Grouped b y v) : Alike (neg a) b
  | groupedNeg {a x u} (b : Computation) (ha : Grouped a x u) : Alike a (neg b)
  | grouped {a x u b y v} (ha : Grouped a x u) (hb : Grouped b y v) : Alike a b
  | abs (a b : Computation) : Alike (abs a) (abs b)
  | mul (a₁ a₂ b₁ b₂ : Computation) : Alike (mul a₁ a₂) (mul b₁ b₂)
  | div (a₁ a₂ b₁ b₂ : Computation) : Alike (div a₁ a₂) (div b₁ b₂)
  | pow (a₁ a₂ b₁ b₂ : Computation) : Alike (pow a₁ a₂) (pow b₁ b₂)
  | apply (f : Elementary) (a b : Computation) : Alike (apply f a) (apply f b)

theorem helper_name_inj {f g : Elementary} (h : f.helper.name = g.helper.name) : f = g := by
  revert h
  cases f <;> cases g <;> decide

/-- no elementary function is called by the first word of another operator -/
theorem helper_name_fresh (f : Elementary) :
    f.helper.name ∉ ["z", "c", "vec2", "", "abs", "cmul", "cdiv", "cpow"] := by
  cases f <;> decide

/-- the words that stand for one operator -/
theorem eq_of_word (a : Computation) :
    (a.word = "z" → a = var .z) ∧ (a.word = "c" → a = var .c) ∧ (a.word = "abs" → ∃ x, a = abs x) ∧
    (a.word = "cmul" → ∃ x y, a = mul x y) ∧ (a.word = "cdiv" → ∃ x y, a = div x y) ∧
    (a.word = "cpow" → ∃ x y, a = pow x y) := by
  cases a with
  | var v => cases v <;> simp [word]
  | apply f x =>
    have hfresh := helper_name_fresh f
    simp only [List.mem_cons, not_or] at hfresh
    simp [word, hfresh]
  | _ => simp [word]

theorem scalar_of_word {a : Computation} (h : a.word = "vec2") : ∃ w, Scalar a w := by
  cases a with
  | var v =>
    cases v with
    | n => exact ⟨_, .power⟩
    | _ => simp [word] at h
  | number x => exact ⟨_, .number x⟩
  | apply f _ => exact absurd (by simp [← h, word]) (helper_name_fresh f)
  | _ => simp [word] at h

theorem grouped_of_word {a : Computation} (h : a.word = "") : (∃ x, a = neg x) ∨ ∃ x u, Grouped a x u := by
  cases a with
  | neg x => exact .inl ⟨x, rfl⟩
  | conj x => exact .inr ⟨_, _, .conj x⟩
  | add x y => exact .inr ⟨_, _, .add x y⟩
  | sub x y => exact .inr ⟨_, _, .sub x y⟩
  | var v => cases v <;> simp [word] at h
  | apply f _ => exact absurd (by simp [← h, word]) (helper_name_fresh f)
  | _ => simp [word] at h

theorem apply_of_word {a : Computation} {f : Elementary} (h : a.word = f.helper.name) : ∃ x, a = apply f x := by
  cases a with
  | apply g x => exact ⟨x, by rw [helper_name_inj h]⟩
  | var v => cases v <;> exact absurd (by simp [← h, word]) (helper_name_fresh f)
  | _ => exact absurd (by simp [← h, word]) (helper_name_fresh f)

theorem alike_of_grouped {a b x : Computation} {u : List Char} (ha : Grouped a x u) (h : b.word = "") : Alike a b := by
  rcases grouped_of_word h with ⟨y, rfl⟩ | ⟨y, v, hb⟩
  · exact .groupedNeg y ha
  · exact .grouped ha hb

/-- the first word leaves these pairs only -/
theorem alike_of_word {a b : Computation} (h : a.word = b.word) : Alike a b := by
  obtain ⟨hz, hc, habs, hmul, hdiv, hpow⟩ := eq_of_word b
  cases a with
  | var v =>
    cases v with
    | z =>
      obtain rfl := hz h.symm
      exact .iterate
    | c =>
      obtain rfl := hc h.symm
      exact .constant
    | n =>
      obtain ⟨w, hb⟩ := scalar_of_word h.symm
      exact .scalar .power hb
  | number x =>
    obtain ⟨w, hb⟩ := scalar_of_word h.symm
    exact .scalar (.number x) hb
  | neg x =>
    rcases grouped_of_word h.symm with ⟨y, rfl⟩ | ⟨y, v, hb⟩
    · exact .neg x y
    · exact .negGrouped x hb
  | conj x => exact alike_of_grouped (.conj x) h.symm
  | add x y => exact alike_of_grouped (.add x y) h.symm
  | sub x y => exact alike_of_grouped (.sub x y) h.symm
  | abs x =>
    obtain ⟨y, rfl⟩ := habs h.symm
    exact .abs x y
  | mul x₁ x₂ =>
    obtain ⟨y₁, y₂, rfl⟩ := hmul h.symm
    exact .mul x₁ x₂ y₁ y₂
  | div x₁ x₂ =>
    obtain ⟨y₁, y₂, rfl⟩ := hdiv h.symm
    exact .div x₁ x₂ y₁ y₂
  | pow x₁ x₂ =>
    obtain ⟨y₁, y₂, rfl⟩ := hpow h.symm
    exact .pow x₁ x₂ y₁ y₂
  | apply f x =>
    obtain ⟨y, rfl⟩ := apply_of_word h.symm
    exact .apply f x y

/-! ## The body tells the rest apart -/

theorem body_scalar {a : Computation} {w : List Char} (h : Scalar a w) :
    a.body = '(' :: (w ++ ',' :: " 0.0)".toList) := by
  cases h with
  | power => rfl
  | number x => rfl

theorem body_grouped {a x : Computation} {u : List Char} (h : Grouped a x u) : a.body = '(' :: (x.text ++ u) := by
  cases h <;> simp [body]

/-- a component holds no comma -/
theorem scalar_no_comma {a : Computation} {w : List Char} (h : Scalar a w) (hfin : ∀ x ∈ a.numbers, x.isFinite = true) :
    ∀ c ∈ w, (c != ',') = true := by
  cases h with
  | power => exact List.all_eq_true.1 (by decide)
  | number x =>
    intro c hc
    rcases Binary64.literal_chars (hfin x (by simp [numbers])) c hc with rfl | rfl | hdigit
    · rfl
    · rfl
    · by_contra hcomma
      obtain rfl : c = ',' := by simpa using hcomma
      exact absurd hdigit (by decide)

/-- a literal is not the name of the power -/
theorem literal_ne_power {x : Binary64} (hfin : x.isFinite = true) : x.literal.toList ≠ "power".toList := by
  intro h
  have hp : 'p' ∈ x.literal.toList := by rw [h]; decide
  rcases Binary64.literal_chars hfin 'p' hp with hp | hp | hp <;> exact absurd hp (by decide)

theorem scalar_inj {a b : Computation} {w w' : List Char} (ha : Scalar a w) (hb : Scalar b w') (h : w = w')
    (hafin : ∀ x ∈ a.numbers, x.isFinite = true) (hbfin : ∀ x ∈ b.numbers, x.isFinite = true) : a = b := by
  cases ha with
  | power =>
    cases hb with
    | power => rfl
    | number y => exact absurd h.symm (literal_ne_power (hbfin y (by simp [numbers])))
  | number x =>
    have hx := hafin x (by simp [numbers])
    cases hb with
    | power => exact absurd h (literal_ne_power hx)
    | number y => rw [Binary64.literal_inj hx (hbfin y (by simp [numbers])) (String.toList_inj.1 h)]

/-- vectors end at the same place, and their components are equal -/
theorem scalar_read {a b : Computation} {w w' s t : List Char} (ha : Scalar a w) (hb : Scalar b w')
    (hafin : ∀ x ∈ a.numbers, x.isFinite = true) (hbfin : ∀ x ∈ b.numbers, x.isFinite = true)
    (h : a.body ++ s = b.body ++ t) : a = b ∧ s = t := by
  have hcut : w ++ ',' :: (" 0.0)".toList ++ s) = w' ++ ',' :: (" 0.0)".toList ++ t) := by
    simpa [body_scalar ha, body_scalar hb] using h
  have hw : w = w' := by
    have htake := congrArg (List.takeWhile (· != ',')) hcut
    rwa [takeWhile_run _ (scalar_no_comma ha hafin) (by simp), takeWhile_run _ (scalar_no_comma hb hbfin) (by simp)]
      at htake
  refine ⟨scalar_inj ha hb hw hafin hbfin, ?_⟩
  rw [hw] at hcut
  simpa using hcut

/-! ## One reading -/

/-- with a text behind it that does not run on from it, the text of `a` is that of no other computation -/
def Readable (a : Computation) : Prop :=
  ∀ b s t, (∀ x ∈ b.numbers, x.isFinite = true) → Separated s → Separated t → a.text ++ s = b.text ++ t → a = b ∧ s = t

/-- the computations that an operator is applied to -/
def operands : Computation → List Computation
  | var _ | number _ => []
  | neg a | abs a | conj a | apply _ a => [a]
  | add a b | sub a b | mul a b | div a b | pow a b => [a, b]

/-- a readable operand in front of a closing parenthesis -/
theorem Readable.close {a b : Computation} {s t : List Char} (ha : Readable a)
    (hb : ∀ x ∈ b.numbers, x.isFinite = true) (h : a.text ++ ')' :: s = b.text ++ ')' :: t) : a = b ∧ s = t := by
  obtain ⟨rfl, hrest⟩ := ha b _ _ hb (separated_of_ofSymbol? rfl s) (separated_of_ofSymbol? rfl t) h
  exact ⟨rfl, (List.cons.inj hrest).2⟩

/-- two readable operands, with the same characters between them -/
theorem Readable.pair {a₁ a₂ b₁ b₂ : Computation} {gap s t : List Char} (ha₁ : Readable a₁) (ha₂ : Readable a₂)
    (hb : ∀ x ∈ b₁.numbers ++ b₂.numbers, x.isFinite = true) (hgap : ∀ u, Separated (gap ++ u))
    (h : a₁.text ++ (gap ++ (a₂.text ++ ')' :: s)) = b₁.text ++ (gap ++ (b₂.text ++ ')' :: t))) :
    a₁ = b₁ ∧ a₂ = b₂ ∧ s = t := by
  obtain ⟨hb₁, hb₂⟩ := List.forall_mem_append.1 hb
  obtain ⟨rfl, hrest⟩ := ha₁ b₁ _ _ hb₁ (hgap _) (hgap _) h
  obtain ⟨rfl, hend⟩ := ha₂.close hb₂ (List.append_cancel_left hrest)
  exact ⟨rfl, rfl, hend⟩

/-- behind equal first operands the operator and the second operand are equal -/
theorem grouped_read {a x b y : Computation} {u v s t : List Char} (ha : Grouped a x u) (hb : Grouped b y v)
    (hread : ∀ c ∈ a.operands, Readable c) (hfin : ∀ x ∈ b.numbers, x.isFinite = true)
    (h : a.body ++ s = b.body ++ t) : a = b ∧ s = t := by
  rw [body_grouped ha, body_grouped hb] at h
  simp only [List.cons_append, List.append_assoc, List.cons.injEq, true_and] at h
  have hx : Readable x := hread x (by cases ha <;> simp [operands])
  have hy : ∀ z ∈ y.numbers, z.isFinite = true := fun z hz => hfin z (by cases hb <;> simp [numbers, hz])
  -- a blank stands behind the first operand in all three forms
  have hsep : ∀ {c d w} (r : List Char), Grouped c d w → Separated (w ++ r) := by
    rintro _ _ _ r (_ | _ | _) <;> exact separated_blank _
  obtain ⟨rfl, hrest⟩ := hx y _ _ hy (hsep s ha) (hsep t hb) h
  cases ha with
  | conj =>
    cases hb with
    | conj => simpa using hrest
    | _ => simp at hrest
  | add x x₂ =>
    cases hb with
    | add _ y₂ =>
      have htext : x₂.text ++ ')' :: s = y₂.text ++ ')' :: t := by simpa using hrest
      obtain ⟨rfl, hend⟩ := (hread x₂ (by simp [operands])).close (List.forall_mem_append.1 hfin).2 htext
      exact ⟨rfl, hend⟩
    | _ => simp at hrest
  | sub x x₂ =>
    cases hb with
    | sub _ y₂ =>
      have htext : x₂.text ++ ')' :: s = y₂.text ++ ')' :: t := by simpa using hrest
      obtain ⟨rfl, hend⟩ := (hread x₂ (by simp [operands])).close (List.forall_mem_append.1 hfin).2 htext
      exact ⟨rfl, hend⟩
    | _ => simp at hrest

/-- an operator with readable operands is readable -/
theorem readable_of_operands (a : Computation) (hafin : ∀ x ∈ a.numbers, x.isFinite = true)
    (hread : ∀ c ∈ a.operands, Readable c) : Readable a := by
  intro b s t hbfin hs ht h
  obtain ⟨hword, hbody⟩ := word_body_eq hs ht h
  have hcomma : ∀ u : List Char, Separated ([',', ' '] ++ u) := fun u => separated_of_ofSymbol? rfl _
  cases alike_of_word hword with
  | iterate => exact ⟨rfl, hbody⟩
  | constant => exact ⟨rfl, hbody⟩
  | scalar ha hb => exact scalar_read ha hb hafin hbfin hbody
  | neg x y =>
    have hy : ∀ z ∈ y.numbers, z.isFinite = true := hbfin
    obtain ⟨rfl, hend⟩ := (hread x (by simp [operands])).close hy (by simpa [body] using hbody)
    exact ⟨rfl, hend⟩
  | negGrouped x hb =>
    -- behind a parenthesis only a negation goes on with a minus sign
    rw [body_grouped hb] at hbody
    simp only [body, List.cons_append, List.append_assoc, List.cons.injEq, true_and] at hbody
    exact absurd hbody.symm (text_ne_minus _ _ _)
  | groupedNeg y ha =>
    rw [body_grouped ha] at hbody
    simp only [body, List.cons_append, List.append_assoc, List.cons.injEq, true_and] at hbody
    exact absurd hbody (text_ne_minus _ _ _)
  | grouped ha hb => exact grouped_read ha hb hread hbfin hbody
  | abs x y =>
    have hy : ∀ z ∈ y.numbers, z.isFinite = true := hbfin
    obtain ⟨rfl, hend⟩ := (hread x (by simp [operands])).close hy (by simpa [body] using hbody)
    exact ⟨rfl, hend⟩
  | mul x₁ x₂ y₁ y₂ =>
    obtain ⟨rfl, rfl, hend⟩ := (hread x₁ (by simp [operands])).pair (hread x₂ (by simp [operands])) hbfin hcomma
      (by simpa [body] using hbody)
    exact ⟨rfl, hend⟩
  | div x₁ x₂ y₁ y₂ =>
    obtain ⟨rfl, rfl, hend⟩ := (hread x₁ (by simp [operands])).pair (hread x₂ (by simp [operands])) hbfin hcomma
      (by simpa [body] using hbody)
    exact ⟨rfl, hend⟩
  | pow x₁ x₂ y₁ y₂ =>
    obtain ⟨rfl, rfl, hend⟩ := (hread x₁ (by simp [operands])).pair (hread x₂ (by simp [operands])) hbfin hcomma
      (by simpa [body] using hbody)
    exact ⟨rfl, hend⟩
  | apply f x y =>
    have hy : ∀ z ∈ y.numbers, z.isFinite = true := hbfin
    obtain ⟨rfl, hend⟩ := (hread x (by simp [operands])).close hy (by simpa [body] using hbody)
    exact ⟨rfl, hend⟩

/-- **The text of a computation with finite numbers has one reading.** -/
theorem readable (a : Computation) (hfin : ∀ x ∈ a.numbers, x.isFinite = true) : Readable a := by
  induction a with
  | var v => exact readable_of_operands _ hfin (by simp [operands])
  | number x => exact readable_of_operands _ hfin (by simp [operands])
  | neg a ih | abs a ih | conj a ih | apply f a ih =>
    exact readable_of_operands _ hfin (List.forall_mem_singleton.2 (ih hfin))
  | add a b iha ihb | sub a b iha ihb | mul a b iha ihb | div a b iha ihb | pow a b iha ihb =>
    obtain ⟨ha, hb⟩ := List.forall_mem_append.1 hfin
    exact readable_of_operands _ hfin (by simpa [operands] using ⟨iha ha, ihb hb⟩)

theorem code_inj {a b : Computation} (ha : ∀ x ∈ a.numbers, x.isFinite = true)
    (hb : ∀ x ∈ b.numbers, x.isFinite = true) (h : a.code {} = b.code {}) : a = b := by
  have hnil : Separated [] := by simp [Separated]
  exact (readable a ha b [] [] hb hnil hnil (by simp [text, h])).1

end Computation

/-- **The code determines the computation.** Every equation has exactly one computation, and under the default names two
equations with finite numbers have the same code exactly when they have the same computation. -/
theorem emit_eq_iff (expand : Bool) :
    (∀ e, ∃! a, Settles expand e a) ∧
    ∀ e₁ e₂ : Expr, (∀ x ∈ e₁.numbers ++ e₂.numbers, x.isFinite = true) →
      (({ expandSmallPowers := expand } : Emitter).emit e₁ = ({ expandSmallPowers := expand } : Emitter).emit e₂ ↔
        ∃ a, Settles expand e₁ a ∧ Settles expand e₂ a) := by
  simp only [settles_iff]
  refine ⟨fun e => existsUnique_eq', fun e₁ e₂ hfin => ?_⟩
  obtain ⟨h₁, h₂⟩ := List.forall_mem_append.1 hfin
  constructor
  · intro h
    have hcode := Computation.code_inj (fun x hx => h₁ x (Computation.mem_numbers_ofExpr hx))
      (fun x hx => h₂ x (Computation.mem_numbers_ofExpr hx)) h
    exact ⟨_, rfl, hcode.symm⟩
  · rintro ⟨a, ha₁, ha₂⟩
    simp only [Emitter.emit, Emitter.computation, ha₁, ha₂]

/-- `z^2 - ln(|z|)` and `+(z * z) - log(abs(z))` have the same code -/
theorem emit_square_eq_emit_product :
    Binary64.two.isFinite = true ∧
    ({ expandSmallPowers := true } : Emitter).emit
        (.binary .sub (.binary .pow (.var .z) (.number .two)) (.call .ln (.modulus (.var .z)))) =
      ({ expandSmallPowers := true } : Emitter).emit
        (.binary .sub (.unary .pos (.binary .mul (.var .z) (.var .z))) (.call .log (.call .abs (.var .z)))) := by
  have hfin : Binary64.two.isFinite = true := by decide
  refine ⟨hfin, ((emit_eq_iff true).2 _ _ (by simpa [Expr.numbers] using hfin)).2
    ⟨.sub (.mul (.var .z) (.var .z)) (.apply .log (.abs (.var .z))), ?_, ?_⟩⟩
  · exact .sub (.square rfl (.var .z) (.var .z)) (.apply (by decide) (.modulus (.var .z)))
  · exact .sub (.pos (.mul (.var .z) (.var .z))) (.apply (by decide) (.abs (.var .z)))

end EscapeTime
