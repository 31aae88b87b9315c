/-
Accepted trees are small.

Every node of a tree was built from a token of its own, so a tree has no more nodes than its stream has tokens, and
their number is limited. The functions that go over a tree, `emit`, `helpers`, `references` and `render`, are given here
by what one call does (`Expr.Body`); each goes on to children only, so it never has more calls open than the tree is
high.

- `derives_nodes_le`: a phrase has no more nodes than tokens.
- `parse_nodes_le`: nor has an accepted tree, whatever stands behind the first end marker and whether or not there is
  one.
- `descends_emit`, `descends_helpers`, `descends_references`, `descends_render`: one call of each function.
- `parse_bounded`: on an accepted tree 512 calls inside one another are enough for each of them.
-/
import EscapeTime.Proofs.Grammar.Stream
import EscapeTime.Proofs.Shader.Size

namespace EscapeTime

/-! ## Nodes and tokens -/

/-- a phrase has no more nodes than tokens: signs are folded, and delimiters leave one node or none -/
theorem Grammar.derives_nodes_le {p : Phrase} {ks : List Kind} {ds : List Nat} {e : Expr} (h : Derives p ks ds e) :
    e.nodes.length ≤ ks.length := by
  induction h with
  | sumFirst _ ih | productFirst _ ih | unaryPlain _ ih | powerFirst _ ih | exponentPlain _ ih => exact ih
  | sumNext op _ _ _ ihl ihr | productNext op _ _ _ ihl ihr =>
    simp only [Expr.nodes, List.length_cons, List.length_append]
    omega
  | powerNext _ _ ihl ihr =>
    simp only [Expr.nodes, List.length_cons, List.length_append]
    omega
  | unarySigned run hne _ _ ih | exponentSigned run hne _ _ ih =>
    have hsign : 0 < run.length := List.length_pos_iff.2 hne
    simp only [Expr.nodes, List.length_cons, List.length_append]
    omega
  | number x => exact le_rfl
  | var v => exact le_rfl
  | call f _ ih | parens _ ih | bars _ ih =>
    simp only [Expr.nodes, List.length_cons, List.length_append]
    omega

namespace Parser

open Grammar

/-- an accepted stream has few tokens in front of its first end marker, though only one token is looked at -/
theorem length_unended_le {tokens : List Token} (h : (ofTokens tokens).excess? = none) :
    (unended tokens).length ≤ maxTokens := by
  by_contra hlong
  -- the token at the limit would stand in front of the first end marker
  have hlt : maxTokens < (unended tokens).length := Nat.lt_of_not_le hlong
  obtain ⟨t, ht⟩ : ∃ t, (unended tokens)[maxTokens]? = some t := ⟨_, List.getElem?_eq_getElem hlt⟩
  have hkind : t.kind ≠ .endOfInput := unended_no_end tokens t (List.mem_of_getElem? ht)
  have htoken : tokens[maxTokens]? = some t := by
    obtain ⟨rest, hrest⟩ : unended tokens <+: tokens := List.takeWhile_prefix _
    rw [← hrest, List.getElem?_append_left hlt, ht]
  have hne : tokens.map Token.kind ≠ [] := by
    intro hnil
    rw [List.map_eq_nil_iff.1 hnil] at htoken
    cases htoken
  rw [excess?, tokens_ofTokens rfl hne, htoken] at h
  simp [Option.filter, hkind] at h

theorem parse_nodes_le {tokens : List Token} {e : Expr} (h : (ofTokens tokens).parse.1 = .ok e) :
    e.nodes.length ≤ (unended tokens).length ∧ (unended tokens).length ≤ maxTokens := by
  by_cases hne : tokens = []
  · -- a fresh parser without tokens is one on an end marker
    subst hne
    have hmarker : (ofTokens [⟨.endOfInput, "", 0⟩]).parse.1 = .ok e := h
    obtain ⟨_, ds, hd, _⟩ := (parse_fresh_ok_iff_excess (List.cons_ne_nil _ _) e).1 hmarker
    exact absurd rfl (derives_ne_nil hd)
  · obtain ⟨hexcess, ds, hd, _⟩ := (parse_fresh_ok_iff_excess hne e).1 h
    refine ⟨?_, length_unended_le hexcess⟩
    simpa using derives_nodes_le hd

end Parser

/-! ## What one call does -/

namespace Expr

/-- one call of `render` -/
def renderBody : Body String := fun again e =>
  match e with
  | var v => some v.name
  | number value => some value.display
  | unary sign operand => do return "(" ++ sign.symbol ++ (← again operand) ++ ")"
  | binary op left right => do return "(" ++ (← again left) ++ " " ++ op.symbol ++ " " ++ (← again right) ++ ")"
  | call f argument => do return f.name ++ "(" ++ (← again argument) ++ ")"
  | modulus operand => do return "|" ++ (← again operand) ++ "|"

theorem descends_render : Descends renderBody render := by
  intro again e h
  cases e with
  | var v | number v => rfl
  | unary _ e | call _ e | modulus e =>
    simp [renderBody, render, h e (List.mem_singleton_self e)]
  | binary op l r =>
    simp [renderBody, render, h l (mem_children_left op l r), h r (mem_children_right op l r)]

/-- one call of `references`; the right operand is looked at only if the left one does not refer to the variable -/
def referencesBody (v : Variable) : Body Bool := fun again e =>
  match e with
  | var w => some (w == v)
  | number _ => some false
  | unary _ operand => again operand
  | binary _ left right => do if ← again left then return true else again right
  | call _ argument => again argument
  | modulus operand => again operand

theorem descends_references (v : Variable) : Descends (referencesBody v) (references v) := by
  intro again e h
  cases e with
  | var w | number w => rfl
  | unary _ e | call _ e | modulus e => exact h e (List.mem_singleton_self e)
  | binary op l r =>
    simp only [referencesBody, h l (mem_children_left op l r), h r (mem_children_right op l r), references]
    cases l.references v <;> rfl

end Expr

/-- the helpers of several sets, in the order of `Helper.all` -/
def Helper.gather (sets : List (List Helper)) : List Helper :=
  all.filter fun h => sets.any (·.contains h)

theorem Computation.helpers_eq_gather {a : Computation} {sets : List (List Helper)}
    (h : ∀ g, a.calls g = true ↔ ∃ set ∈ sets, g ∈ set) : a.helpers = Helper.gather sets := by
  refine List.filter_congr fun g _ => ?_
  rw [Bool.eq_iff_iff, h g]
  simp

namespace Emitter

variable (m : Emitter)

/-- the text of a function applied: a call of its helper, or written out -/
def emitApplied (f : Func) (a : String) : String :=
  match f.helper? with
  | some h => Computation.call1 h a
  | none => if f = .conj then "(" ++ a ++ " * vec2(1.0, -1.0))" else "abs(" ++ a ++ ")"

/-- one call of `emit` -/
def emitBody : Expr.Body String := fun again e =>
  match e with
  | .var v => some (m.bindings.text v)
  | .number value => some ("vec2(" ++ value.literal ++ ", 0.0)")
  | .unary .pos operand => again operand
  | .unary .neg operand => do return "(-" ++ (← again operand) ++ ")"
  | .binary .add left right => do return "(" ++ (← again left) ++ " + " ++ (← again right) ++ ")"
  | .binary .sub left right => do return "(" ++ (← again left) ++ " - " ++ (← again right) ++ ")"
  | .binary .mul left right => do return Computation.call2 .cmul (← again left) (← again right)
  | .binary .div left right => do return Computation.call2 .cdiv (← again left) (← again right)
  | .binary .pow left right => do
    let a ← again left
    match Expr.smallPower? m.expandSmallPowers left right with
    | some .square => return Computation.call2 .cmul a a
    | some .cube => return Computation.call2 .cmul (Computation.call2 .cmul a a) a
    | none => return Computation.call2 .cpow a (← again right)
  | .call f argument => do return emitApplied f (← again argument)
  | .modulus operand => do return emitApplied .abs (← again operand)

theorem emit_applied (f : Func) (a : Computation) :
    (Computation.applied f a).code m.bindings = emitApplied f (a.code m.bindings) := by
  cases f <;> rfl

theorem descends_emit : Expr.Descends m.emitBody m.emit := by
  intro again e h
  cases e with
  | var v | number v => rfl
  | unary sign e =>
    have he := h e (List.mem_singleton_self e)
    cases sign <;> simp [emitBody, he, emit, computation, Computation.ofExpr, Computation.code]
  | binary op l r =>
    have hl := h l (Expr.mem_children_left op l r)
    have hr := h r (Expr.mem_children_right op l r)
    cases op with
    | add | sub | mul | div => simp [emitBody, hl, hr, emit, computation, Computation.ofExpr, Computation.code]
    | pow =>
      have hemit : m.emit (.binary .pow l r) =
          (Computation.powered m.expandSmallPowers l r (m.computation l) (m.computation r)).code m.bindings := rfl
      rw [hemit, Computation.powered]
      cases hpower : Expr.smallPower? m.expandSmallPowers l r with
      | none => simp [emitBody, hl, hr, hpower, emit, Computation.code]
      | some p => cases p <;> simp [emitBody, hl, hpower, emit, Computation.code]
  | call f e =>
    have he := h e (List.mem_singleton_self e)
    simp [emitBody, he, emit, computation, Computation.ofExpr, emit_applied]
  | modulus e =>
    have he := h e (List.mem_singleton_self e)
    simp only [emitBody, he]
    rfl

/-- one call of `helpers` -/
def helpersBody : Expr.Body (List Helper) := fun again e =>
  match e with
  | .var _ | .number _ => some []
  | .unary _ operand => again operand
  | .binary .add left right | .binary .sub left right => do return Helper.gather [← again left, ← again right]
  | .binary .mul left right => do return Helper.gather [[.cmul], ← again left, ← again right]
  | .binary .div left right => do return Helper.gather [[.cdiv], ← again left, ← again right]
  | .binary .pow left right => do
    let a ← again left
    match Expr.smallPower? m.expandSmallPowers left right with
    | some _ => return Helper.gather [[.cmul], a]
    | none => return Helper.gather [[.cpow], a, ← again right]
  | .call f argument => do return Helper.gather [f.helper?.toList, ← again argument]
  | .modulus operand => again operand

theorem helpers_applied (f : Func) (a : Computation) :
    (Computation.applied f a).helpers = Helper.gather [f.helper?.toList, a.helpers] := by
  refine Computation.helpers_eq_gather fun g => ?_
  cases f <;>
    simp [Computation.applied, Computation.calls, Func.helper?, Func.elementary?, Computation.mem_helpers_iff]

/-- the helpers of an operation: those of its operands, and its own if it has one -/
theorem helpers_operation (a b : Computation) :
    (a.add b).helpers = Helper.gather [a.helpers, b.helpers] ∧
    (a.sub b).helpers = Helper.gather [a.helpers, b.helpers] ∧
    (a.mul b).helpers = Helper.gather [[.cmul], a.helpers, b.helpers] ∧
    (a.div b).helpers = Helper.gather [[.cdiv], a.helpers, b.helpers] ∧
    (a.pow b).helpers = Helper.gather [[.cpow], a.helpers, b.helpers] := by
  refine ⟨?_, ?_, ?_, ?_, ?_⟩ <;>
  · refine Computation.helpers_eq_gather fun g => ?_
    simp [Computation.calls, Computation.mem_helpers_iff, or_assoc]

/-- a product that stands for a small power has the helpers of the base -/
theorem helpers_repeated (a : Computation) :
    (a.mul a).helpers = Helper.gather [[.cmul], a.helpers] ∧
      ((a.mul a).mul a).helpers = Helper.gather [[.cmul], a.helpers] := by
  refine ⟨?_, ?_⟩ <;>
  · refine Computation.helpers_eq_gather fun g => ?_
    simp [Computation.calls, Computation.mem_helpers_iff]

theorem descends_helpers : Expr.Descends m.helpersBody m.helpers := by
  intro again e h
  cases e with
  | var v | number v => rfl
  | unary sign e => cases sign <;> exact h e (List.mem_singleton_self e)
  | binary op l r =>
    have hl := h l (Expr.mem_children_left op l r)
    have hr := h r (Expr.mem_children_right op l r)
    cases op with
    | add | sub | mul | div => simp [helpersBody, hl, hr, helpers, computation, Computation.ofExpr, helpers_operation]
    | pow =>
      have hhelpers : m.helpers (.binary .pow l r) =
          (Computation.powered m.expandSmallPowers l r (m.computation l) (m.computation r)).helpers := rfl
      rw [hhelpers, Computation.powered]
      cases hpower : Expr.smallPower? m.expandSmallPowers l r with
      | none => simp [helpersBody, hl, hr, hpower, helpers, helpers_operation]
      | some p => cases p <;> simp [helpersBody, hl, hpower, helpers, helpers_repeated]
  | call f e =>
    have he := h e (List.mem_singleton_self e)
    simp [helpersBody, he, helpers, computation, Computation.ofExpr, helpers_applied]
  | modulus e => exact h e (List.mem_singleton_self e)

end Emitter

/-! ## Accepted trees -/

namespace Parser

/-- **Accepted trees are bounded by their tokens.** A tree that a fresh parser gives for a stream has at most as many
nodes as there are tokens in front of the first end marker, and these are at most 512, wherever the end marker stands
and whether or not there is one. So the tree is at most 512 nodes high, and 512 calls inside one another are enough to
emit it, to list its helpers, to look for a variable in it and to render it. -/
theorem parse_bounded (tokens : List Token) (e : Expr) (h : (ofTokens tokens).parse.1 = .ok e) :
    (e.nodes.length ≤ (tokens.takeWhile (·.kind != .endOfInput)).length ∧
      (tokens.takeWhile (·.kind != .endOfInput)).length ≤ 512) ∧
    e.height ≤ 512 ∧
    (∀ m : Emitter, Expr.nested m.emitBody 512 e = some (m.emit e) ∧
      Expr.nested m.helpersBody 512 e = some (m.helpers e)) ∧
    (∀ v, Expr.nested (Expr.referencesBody v) 512 e = some (e.references v)) ∧
    Expr.nested Expr.renderBody 512 e = some e.render := by
  obtain ⟨hnodes, hlength⟩ := parse_nodes_le h
  have hheight : e.height ≤ 512 := (e.height_le_length_nodes.trans hnodes).trans hlength
  exact ⟨⟨hnodes, hlength⟩, hheight,
    fun m => ⟨m.descends_emit.nested_eq hheight, m.descends_helpers.nested_eq hheight⟩,
    fun v => (Expr.descends_references v).nested_eq hheight, Expr.descends_render.nested_eq hheight⟩

/-- `--z + c`, without an end marker -/
def unmarkedSum : List Token :=
  [⟨.minus, "-", 0⟩, ⟨.minus, "-", 1⟩, ⟨.ident "z", "z", 2⟩, ⟨.plus, "+", 4⟩, ⟨.ident "c", "c", 6⟩]

/-- five tokens, and four nodes as the signs are folded into one -/
theorem parse_bounded_unmarkedSum :
    (ofTokens unmarkedSum).parse.1 = .ok (.binary .add (.unary .pos (.var .z)) (.var .c)) ∧
    (Expr.binary .add (.unary .pos (.var .z)) (.var .c)).nodes.length ≤ 5 ∧
    Expr.nested ({} : Emitter).emitBody 512 (.binary .add (.unary .pos (.var .z)) (.var .c)) = some "(z + c)" ∧
    Expr.nested Expr.renderBody 512 (.binary .add (.unary .pos (.var .z)) (.var .c)) = some "((+z) + c)" := by
  have hparse : (ofTokens unmarkedSum).parse.1 = .ok (.binary .add (.unary .pos (.var .z)) (.var .c)) := by
    decide +kernel
  obtain ⟨⟨hnodes, _⟩, _, hemit, _, hrender⟩ := parse_bounded unmarkedSum _ hparse
  exact ⟨hparse, hnodes, (hemit {}).1, hrender⟩

end Parser

end EscapeTime
