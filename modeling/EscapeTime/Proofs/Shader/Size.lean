/-
How much code an equation becomes.

A small power is written as a product in which the base stands two or three times. The base is a leaf, or one operation
on a leaf, so nothing that is long or calls a helper is written twice:

- `extent_repeatable`, `callCount_repeatable`: what may be written several times is short and makes no calls.
- `extent_le`: so the code has at most as many characters as its longest leaf and twenty more, for each node.
- `callCount_ofExpr`: each node makes its own calls, and no node makes calls for another one.
- `emit_linear`: both for emitted code, with the calls counted in the text.
-/
import EscapeTime.Proofs.Expr.Nodes
import EscapeTime.Proofs.Shader.Calls
import EscapeTime.Proofs.Shader.Power

namespace EscapeTime

/-! ## Length -/

namespace Computation

/-- how long the code is, node by node -/
def extent (names : Bindings) : Computation → Nat
  | var v => (names.text v).length
  | number x => x.literal.length + 11
  | neg a => a.extent names + 3
  | abs a => a.extent names + 5
  | conj a => a.extent names + 20
  | add a b | sub a b => a.extent names + b.extent names + 5
  | mul a b | div a b | pow a b => a.extent names + b.extent names + 8
  | apply f a => a.extent names + f.helper.name.length + 2

theorem length_call2 {h : Helper} (hh : h.isBinary = true) (a b : String) :
    (call2 h a b).length = a.length + b.length + 8 := by
  have hname : h.name.length = 4 := by
    cases h with
    | cmul | cdiv | cpow => rfl
    | _ => cases hh
  have htext : (call2 h a b).length = h.name.length + 1 + a.length + 2 + b.length + 1 := by
    simp only [call2, String.length_append]
    rfl
  omega

theorem length_code (names : Bindings) (a : Computation) : (a.code names).length = a.extent names := by
  have hopen : "(".length = 1 := rfl
  have hclose : ")".length = 1 := rfl
  induction a with
  | var v => rfl
  | number x =>
    have hvector : "vec2(".length = 5 ∧ ", 0.0)".length = 6 := ⟨rfl, rfl⟩
    simp only [code, extent, String.length_append]
    omega
  | neg a ih =>
    have hminus : "(-".length = 2 := rfl
    simp only [code, extent, String.length_append, ih]
    omega
  | abs a ih =>
    have habs : "abs(".length = 4 := rfl
    simp only [code, extent, String.length_append, ih]
    omega
  | conj a ih =>
    have hfactor : " * vec2(1.0, -1.0))".length = 19 := rfl
    simp only [code, extent, String.length_append, ih]
    omega
  | add a b iha ihb | sub a b iha ihb =>
    have hsign : " + ".length = 3 ∧ " - ".length = 3 := ⟨rfl, rfl⟩
    simp only [code, extent, String.length_append, iha, ihb]
    omega
  | mul a b iha ihb | div a b iha ihb | pow a b iha ihb => rw [code, length_call2 rfl, extent, iha, ihb]
  | apply f a ih =>
    simp only [code, call1, extent, String.length_append, ih]
    omega

/-- no function costs more than the conjugate -/
theorem extent_applied_le (names : Bindings) (f : Func) (a : Computation) :
    (applied f a).extent names ≤ a.extent names + 20 := by
  have hname : ∀ g : Elementary, g.helper.name.length ≤ 5 := fun g => by cases g <;> decide
  have hcall : ∀ g : Elementary, (apply g a).extent names ≤ a.extent names + 20 := by
    intro g
    have := hname g
    rw [extent]
    omega
  cases f with
  | abs => exact Nat.add_le_add_left (by decide) _
  | conj => exact le_rfl
  | sin | cos | tan | exp | sqrt | log | ln => exact hcall _

end Computation

namespace Expr

theorem nodes_leaf {e : Expr} (h : e.isLeaf = true) : e.nodes = [e] := by
  cases e with
  | var v | number v => rfl
  | _ => cases h

end Expr

/-- a leaf, or one operation on a leaf that is written out -/
theorem Repeatable.leaf_or {e : Expr} (h : Repeatable e) :
    e.isLeaf = true ∨
      ∃ leaf, leaf.isLeaf = true ∧ (e = .call .abs leaf ∨ e = .call .conj leaf ∨ e = .modulus leaf) := by
  cases h with
  | var v | number v => exact .inl rfl
  | abs h => exact .inr ⟨_, h, .inl rfl⟩
  | conj h => exact .inr ⟨_, h, .inr (.inl rfl)⟩
  | modulus h => exact .inr ⟨_, h, .inr (.inr rfl)⟩

namespace Computation

/-- no leaf of the equation takes more than `w` characters -/
def Narrow (names : Bindings) (expand : Bool) (w : Nat) (e : Expr) : Prop :=
  ∀ leaf ∈ e.nodes, leaf.isLeaf = true → (ofExpr expand leaf).extent names ≤ w

variable {names : Bindings} {expand : Bool} {w : Nat} {e : Expr}

theorem Narrow.below (h : Narrow names expand w e) {x : Expr} (hx : x ∈ e.children) : Narrow names expand w x :=
  fun leaf hmem => h leaf (Expr.mem_nodes_of_mem_children hx hmem)

theorem Narrow.leaf (h : Narrow names expand w e) (hleaf : e.isLeaf = true) : (ofExpr expand e).extent names ≤ w :=
  h e (by rw [Expr.nodes_leaf hleaf]; exact List.mem_singleton_self e) hleaf

/-- what may be written several times is short: all but the leaf in it costs no more than the conjugate -/
theorem extent_repeatable (hw : Narrow names expand w e) (h : Repeatable e) :
    (ofExpr expand e).extent names + 20 ≤ w + 20 * e.nodes.length ∧ e.nodes.length ≤ 2 := by
  rcases h.leaf_or with hleaf | ⟨leaf, hleaf, he⟩
  · have hext := hw.leaf hleaf
    rw [Expr.nodes_leaf hleaf, List.length_singleton]
    omega
  · have hext : (ofExpr expand leaf).extent names ≤ w := by
      refine (hw.below ?_).leaf hleaf
      rcases he with rfl | rfl | rfl <;> exact List.mem_singleton_self leaf
    have hnodes : e.nodes.length = 2 := by
      rcases he with rfl | rfl | rfl <;> simp [Expr.nodes, Expr.nodes_leaf hleaf]
    have hcost : (ofExpr expand e).extent names ≤ (ofExpr expand leaf).extent names + 20 := by
      rcases he with rfl | rfl | rfl
      · exact extent_applied_le names .abs _
      · exact extent_applied_le names .conj _
      · exact extent_applied_le names .abs _
    omega

/-- a power costs no more than its nodes allow, though its base may stand in the code three times -/
theorem extent_powered_le {l r : Expr} (hl : Narrow names expand w l)
    (hboundl : (ofExpr expand l).extent names ≤ (w + 20) * l.nodes.length)
    (hboundr : (ofExpr expand r).extent names ≤ (w + 20) * r.nodes.length) :
    (ofExpr expand (.binary .pow l r)).extent names ≤ (w + 20) * (l.nodes.length + r.nodes.length + 1) := by
  rw [ofExpr, powered]
  cases hpower : Expr.smallPower? expand l r with
  | none =>
    simp only [extent, Nat.mul_add]
    omega
  | some p =>
    obtain ⟨_, hbase, rfl⟩ := Expr.smallPower?_eq_some_iff.1 hpower
    obtain ⟨hshort, hfew⟩ := extent_repeatable hl hbase
    have hone : 1 ≤ l.nodes.length := by cases l <;> simp [Expr.nodes]
    have hr : (Expr.number p.exponent).nodes.length = 1 := rfl
    -- one or two nodes in the base: with the number of nodes known the bound is linear
    obtain hn | hn : l.nodes.length = 1 ∨ l.nodes.length = 2 := by omega
    all_goals
      rw [hn] at hshort
      rw [hn, hr]
      cases p <;> simp only [extent] <;> omega

/-- **The code of an equation is no longer than its nodes allow**, `w + 20` characters for each. -/
theorem extent_le (hw : Narrow names expand w e) : (ofExpr expand e).extent names ≤ (w + 20) * e.nodes.length := by
  induction e with
  | var v | number v =>
    have hleaf := hw.leaf rfl
    rw [Expr.nodes_leaf rfl, List.length_singleton]
    omega
  | unary sign e ih =>
    have hbound := ih (hw.below (List.mem_singleton_self e))
    cases sign with
    | pos =>
      simp only [ofExpr, Expr.nodes, List.length_cons, Nat.mul_add]
      omega
    | neg =>
      simp only [ofExpr, extent, Expr.nodes, List.length_cons, Nat.mul_add]
      omega
  | binary op l r ihl ihr =>
    have hl := hw.below (Expr.mem_children_left op l r)
    have hr := hw.below (Expr.mem_children_right op l r)
    have hboundl := ihl hl
    have hboundr := ihr hr
    rw [Expr.nodes, List.length_cons, List.length_append]
    cases op with
    | add | sub | mul | div =>
      simp only [ofExpr, extent, Nat.mul_add]
      omega
    | pow => exact extent_powered_le hl hboundl hboundr
  | call f e ih =>
    have hbound := ih (hw.below (List.mem_singleton_self e))
    have happlied := extent_applied_le names f (ofExpr expand e)
    simp only [ofExpr, Expr.nodes, List.length_cons, Nat.mul_add]
    omega
  | modulus e ih =>
    have hbound := ih (hw.below (List.mem_singleton_self e))
    simp only [ofExpr, extent, Expr.nodes, List.length_cons, Nat.mul_add]
    omega

end Computation

/-! ## Calls -/

namespace Expr

/-- the node applies a function that the helper backs -/
def isCallOf (h : Helper) : Expr → Bool
  | call f _ => f.helper? == some h
  | _ => false

def isProduct : Expr → Bool
  | binary .mul _ _ => true
  | _ => false

def isQuotient : Expr → Bool
  | binary .div _ _ => true
  | _ => false

/-- the node is a power that is written in this way; `none` is a call of the power function -/
def isPower (expand : Bool) (way : Option SmallPower) : Expr → Bool
  | binary .pow l r => smallPower? expand l r == way
  | _ => false

/-- how often the node itself calls the helper -/
def ownCalls (expand : Bool) (h : Helper) : Expr → Nat
  | binary .mul _ _ => if h = .cmul then 1 else 0
  | binary .div _ _ => if h = .cdiv then 1 else 0
  | binary .pow l r =>
    match smallPower? expand l r with
    | some .square => if h = .cmul then 1 else 0
    | some .cube => if h = .cmul then 2 else 0
    | none => if h = .cpow then 1 else 0
  | call f _ => if f.helper? = some h then 1 else 0
  | _ => 0

end Expr

namespace Computation

variable (expand : Bool) (h : Helper)

theorem callCount_applied (f : Func) (a : Computation) :
    (applied f a).callCount h = (if f.helper? = some h then 1 else 0) + a.callCount h := by
  cases f <;> simp [applied, callCount, Func.helper?, Func.elementary?, eq_comm]

/-- what may be written several times calls nothing -/
theorem callCount_repeatable {e : Expr} (he : Repeatable e) : (ofExpr expand e).callCount h = 0 := by
  have hnone : ∀ leaf : Expr, leaf.isLeaf = true → (ofExpr expand leaf).callCount h = 0 := by
    intro leaf hleaf
    cases leaf with
    | var v | number v => rfl
    | _ => cases hleaf
  rcases he.leaf_or with hleaf | ⟨leaf, hleaf, rfl | rfl | rfl⟩
  · exact hnone e hleaf
  all_goals exact hnone leaf hleaf

/-- a power makes its own calls and, as a base is written again only if it makes none, those of its operands once -/
theorem callCount_powered (l r : Expr) :
    (ofExpr expand (.binary .pow l r)).callCount h =
      Expr.ownCalls expand h (.binary .pow l r) + ((ofExpr expand l).callCount h + (ofExpr expand r).callCount h) := by
  rw [ofExpr, powered, Expr.ownCalls]
  cases hpower : Expr.smallPower? expand l r with
  | none => rfl
  | some p =>
    obtain ⟨_, hbase, rfl⟩ := Expr.smallPower?_eq_some_iff.1 hpower
    have hnone := callCount_repeatable expand h hbase
    have hexponent : (ofExpr expand (.number p.exponent)).callCount h = 0 := rfl
    cases p with
    | square => simp only [callCount, hnone, hexponent, Nat.add_zero]
    | cube =>
      simp only [callCount, hnone, hexponent, Nat.add_zero]
      split_ifs <;> rfl

/-- **Each node makes its own calls**, and makes them once. -/
theorem callCount_ofExpr (e : Expr) : (ofExpr expand e).callCount h = (e.nodes.map (Expr.ownCalls expand h)).sum := by
  induction e with
  | var v | number v => rfl
  | unary sign e ih => cases sign <;> simp [ofExpr, callCount, Expr.nodes, Expr.ownCalls, ih]
  | binary op l r ihl ihr =>
    rw [Expr.nodes, List.map_cons, List.map_append, List.sum_cons, List.sum_append, ← ihl, ← ihr]
    cases op with
    | add | sub => exact (Nat.zero_add _).symm
    | mul | div => rfl
    | pow => exact callCount_powered expand h l r
  | call f e ih =>
    rw [Expr.nodes, List.map_cons, List.sum_cons, ← ih, ofExpr, callCount_applied]
    rfl
  | modulus e ih => simp [ofExpr, callCount, Expr.nodes, Expr.ownCalls, ih]

end Computation

namespace Expr

variable (expand : Bool)

theorem sum_toNat (p : Expr → Bool) (es : List Expr) : (es.map fun e => (p e).toNat).sum = es.countP p := by
  induction es with
  | nil => rfl
  | cons e es ih =>
    rw [List.map_cons, List.sum_cons, ih, List.countP_cons, Nat.add_comm]
    cases p e <;> rfl

/-- which nodes call a helper -/
theorem ownCalls_eq (h : Helper) (e : Expr) :
    ownCalls expand h e =
      match h with
      | .cmul => e.isProduct.toNat + (e.isPower expand (some .square)).toNat + 2 * (e.isPower expand (some .cube)).toNat
      | .cdiv => e.isQuotient.toNat
      | .cpow => (e.isPower expand none).toNat
      | h => (e.isCallOf h).toNat := by
  cases e with
  | binary op l r =>
    cases op with
    | pow =>
      rw [ownCalls]
      cases hpower : smallPower? expand l r with
      | none => cases h <;> simp [isProduct, isQuotient, isPower, isCallOf, hpower]
      | some p => cases p <;> cases h <;> simp [isProduct, isQuotient, isPower, isCallOf, hpower]
    | add | sub | mul | div => cases h <;> rfl
  | call f e => cases f <;> cases h <;> rfl
  | var v | number v => cases h <;> rfl
  | unary sign e | modulus e => cases h <;> rfl

end Expr

/-! ## Emitted code -/

namespace Emitter

open Text (occurrences)

variable (m : Emitter)

/-- the length of the longest leaf of an equation, as it is emitted -/
def widestLeaf (e : Expr) : Nat :=
  ((e.nodes.filter Expr.isLeaf).map fun leaf => (m.emit leaf).length).foldr max 0

theorem narrow_widestLeaf (e : Expr) : Computation.Narrow m.bindings m.expandSmallPowers (m.widestLeaf e) e := by
  intro leaf hmem hleaf
  rw [← Computation.length_code]
  refine List.le_max_of_le' 0 ?_ le_rfl
  exact List.mem_map_of_mem (List.mem_filter.2 ⟨hmem, hleaf⟩)

theorem length_emit_le (e : Expr) : (m.emit e).length ≤ (m.widestLeaf e + 20) * e.nodes.length := by
  rw [emit, Computation.length_code]
  exact Computation.extent_le (m.narrow_widestLeaf e)

/-- the text of an equation holds as many calls of a helper as its nodes make, if the names hold none -/
theorem occurrences_emit {h : Helper}
    (hnames :
      ∀ text ∈ [m.bindings.iterate, m.bindings.constant, m.bindings.power], ¬ (h.name ++ "(").toList <:+: text.toList)
    (e : Expr) :
    occurrences (h.name ++ "(").toList (m.emit e).toList = (e.nodes.map (Expr.ownCalls m.expandSmallPowers h)).sum := by
  have hopening : (h.name ++ "(").toList = h.opening := String.toList_append
  have hnone : ∀ v, occurrences h.opening (m.bindings.text v).toList = 0 := by
    intro v
    rw [Text.occurrences_eq_zero_iff, ← hopening]
    exact hnames _ (by cases v <;> simp [Bindings.text])
  rw [hopening, emit, Computation.occurrences_code _ h hnone, computation, Computation.callCount_ofExpr]

/-- **The code of an equation is linear in its size, and no call is written twice.** The code has at most as many
characters as the longest leaf and twenty more, for each node. And where no name holds the name of a helper with a
parenthesis behind it, the helpers of elementary functions are called as often as there are nodes with such a function,
quotients once for each quotient, powers once for each power that is not expanded, and products once for each product
and each expanded square and twice for each expanded cube. -/
theorem emit_linear (e : Expr) :
    (m.emit e).length ≤ (m.widestLeaf e + 20) * e.nodes.length ∧
    ((∀ text ∈ [m.bindings.iterate, m.bindings.constant, m.bindings.power], ∀ g : Helper,
        ¬ (g.name ++ "(").toList <:+: text.toList) →
      let called := fun h : Helper => occurrences (h.name ++ "(").toList (m.emit e).toList
      let powers := fun way => e.nodes.countP (Expr.isPower m.expandSmallPowers way)
      (∀ h ∈ [Helper.csin, .ccos, .ctan, .cexp, .csqrt, .clog], called h = e.nodes.countP (Expr.isCallOf h)) ∧
      called .cdiv = e.nodes.countP Expr.isQuotient ∧
      called .cpow = powers none ∧
      called .cmul = e.nodes.countP Expr.isProduct + powers (some .square) + 2 * powers (some .cube)) := by
  refine ⟨m.length_emit_le e, fun hnames => ?_⟩
  have hcalled : ∀ (h : Helper) (own : Expr → Nat), (∀ x, Expr.ownCalls m.expandSmallPowers h x = own x) →
      occurrences (h.name ++ "(").toList (m.emit e).toList = (e.nodes.map own).sum := by
    intro h own hown
    rw [m.occurrences_emit (fun text htext => hnames text htext h) e, funext hown]
  refine ⟨fun h hh => ?_, ?_, ?_, ?_⟩
  · refine (hcalled h _ fun x => ?_).trans (Expr.sum_toNat _ _)
    rw [Expr.ownCalls_eq]
    cases h with
    | cmul | cdiv | cpow => exact absurd hh (by decide)
    | _ => rfl
  · exact (hcalled .cdiv _ (Expr.ownCalls_eq _ .cdiv)).trans (Expr.sum_toNat _ _)
  · exact (hcalled .cpow _ (Expr.ownCalls_eq _ .cpow)).trans (Expr.sum_toNat _ _)
  · refine (hcalled .cmul _ (Expr.ownCalls_eq _ .cmul)).trans ?_
    simp only [List.sum_map_add, List.sum_map_mul_left, Expr.sum_toNat]

end Emitter

/-- `(conj(z)^3 * (z^2)^2) / ln(c)`: a cube and a square that are expanded, and a square that is not -/
def Expr.mixedPowers : Expr :=
  .binary .div
    (.binary .mul (.binary .pow (.call .conj (.var .z)) (.number .three))
      (.binary .pow (.binary .pow (.var .z) (.number .two)) (.number .two)))
    (.call .ln (.var .c))

/-- with names that look like pieces of a call: thirteen nodes, four products, and one power, quotient and logarithm
each -/
theorem emit_linear_mixedPowers :
    (∀ text ∈ [Emitter.torn.bindings.iterate, Emitter.torn.bindings.constant, Emitter.torn.bindings.power],
      ∀ g : Helper, ¬ (g.name ++ "(").toList <:+: text.toList) ∧
    Emitter.torn.widestLeaf .mixedPowers = 14 ∧
    (Emitter.torn.emit .mixedPowers).length ≤ (14 + 20) * 13 ∧
    Text.occurrences "cmul(".toList (Emitter.torn.emit .mixedPowers).toList = 1 + 1 + 2 * 1 ∧
    Text.occurrences "cpow(".toList (Emitter.torn.emit .mixedPowers).toList = 1 ∧
    Text.occurrences "cdiv(".toList (Emitter.torn.emit .mixedPowers).toList = 1 ∧
    Text.occurrences "clog(".toList (Emitter.torn.emit .mixedPowers).toList = 1 ∧
    Text.occurrences "csin(".toList (Emitter.torn.emit .mixedPowers).toList = 0 := by
  have hnames : ∀ text ∈ [Emitter.torn.bindings.iterate, Emitter.torn.bindings.constant, Emitter.torn.bindings.power],
      ∀ g : Helper, ¬ (g.name ++ "(").toList <:+: text.toList := by
    intro text htext g
    revert text
    cases g <;> decide
  have hwidest : Emitter.torn.widestLeaf .mixedPowers = 14 := by decide +kernel
  obtain ⟨hlength, hcalls⟩ := Emitter.torn.emit_linear .mixedPowers
  obtain ⟨hfunctions, hquotients, hpowers, hproducts⟩ := hcalls hnames
  rw [hwidest] at hlength
  exact ⟨hnames, hwidest, hlength, hproducts, hpowers, hquotients, hfunctions .clog (by decide),
    hfunctions .csin (by decide)⟩

end EscapeTime
