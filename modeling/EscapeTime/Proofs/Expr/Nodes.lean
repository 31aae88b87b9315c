/-
The nodes of a tree, and how deep a function over trees calls itself.

`nodes` lists the subtrees of a tree, one for each node, so counting nodes of a sort is counting in a list. A function
over trees is given by its body, in which the calls of the function itself are a parameter; `nested body depth` runs it
with at most so many calls inside one another.

- `height_lt_of_mem_children`: every step down a tree leaves a lower tree.
- `height_le_length_nodes`: a path has no more nodes than the tree.
- `Descends.nested_eq`: a function that calls itself on children only needs no more calls inside one another than the
  tree is high.
-/
import Mathlib.Tactic
import EscapeTime.Expr.Basic

namespace EscapeTime.Expr

/-- the trees right below the root -/
def children : Expr → List Expr
  | var _ | number _ => []
  | unary _ e | call _ e | modulus e => [e]
  | binary _ l r => [l, r]

/-- the subtrees, one for each node, the tree itself first -/
def nodes : Expr → List Expr
  | var v => [var v]
  | number x => [number x]
  | unary sign e => unary sign e :: e.nodes
  | binary op l r => binary op l r :: (l.nodes ++ r.nodes)
  | call f e => call f e :: e.nodes
  | modulus e => modulus e :: e.nodes

/-- the most nodes on a path from the root to a leaf -/
def height : Expr → Nat
  | var _ | number _ => 1
  | unary _ e | call _ e | modulus e => e.height + 1
  | binary _ l r => max l.height r.height + 1

theorem mem_children_left (op : BinaryOp) (l r : Expr) : l ∈ (binary op l r).children :=
  List.mem_cons_self

theorem mem_children_right (op : BinaryOp) (l r : Expr) : r ∈ (binary op l r).children :=
  List.mem_cons_of_mem _ (List.mem_singleton_self r)

/-- the nodes below a child are nodes of the tree -/
theorem mem_nodes_of_mem_children {e x y : Expr} (hx : x ∈ e.children) (hy : y ∈ x.nodes) : y ∈ e.nodes := by
  cases e with
  | var v | number v => cases hx
  | unary _ _ | call _ _ | modulus _ =>
    obtain rfl := List.mem_singleton.1 hx
    exact List.mem_cons_of_mem _ hy
  | binary op l r =>
    simp only [children, List.mem_cons, List.not_mem_nil, or_false] at hx
    refine List.mem_cons_of_mem _ (List.mem_append.2 ?_)
    rcases hx with rfl | rfl
    · exact .inl hy
    · exact .inr hy

theorem height_pos (e : Expr) : 0 < e.height := by
  cases e <;> simp [height]

theorem height_lt_of_mem_children {e x : Expr} (h : x ∈ e.children) : x.height < e.height := by
  cases e with
  | var v | number v => cases h
  | unary _ e | call _ e | modulus e =>
    obtain rfl := List.mem_singleton.1 h
    exact Nat.lt_succ_self _
  | binary op l r =>
    simp only [children, List.mem_cons, List.not_mem_nil, or_false] at h
    rcases h with rfl | rfl <;> simp only [height] <;> omega

theorem height_le_length_nodes (e : Expr) : e.height ≤ e.nodes.length := by
  induction e with
  | var v | number v => exact le_rfl
  | unary _ e ih | call _ e ih | modulus e ih => simpa [height, nodes] using ih
  | binary op l r ihl ihr =>
    simp only [height, nodes, List.length_cons, List.length_append]
    omega

/-! ## Calls inside one another -/

variable {β : Type}

/-- what one call of a function over trees does, given what it calls for other trees -/
abbrev Body (β : Type) :=
  (Expr → Option β) → Expr → Option β

/-- the function with at most so many calls inside one another; `none` says that there would be one more -/
def nested (body : Body β) : (depth : Nat) → Expr → Option β
  | 0, _ => none
  | depth + 1, e => body (nested body depth) e

/-- one call gives the value of `f` as soon as the calls for the children do, whatever a call for any other tree would
give -/
def Descends (body : Body β) (f : Expr → β) : Prop :=
  ∀ (inner : Expr → Option β) (e : Expr), (∀ x ∈ e.children, inner x = some (f x)) → body inner e = some (f e)

/-- as many calls inside one another as the tree is high are enough -/
theorem Descends.nested_eq {body : Body β} {f : Expr → β} (h : Descends body f) {depth : Nat} {e : Expr}
    (hheight : e.height ≤ depth) : nested body depth e = some (f e) := by
  induction depth generalizing e with
  | zero =>
    have hpos := e.height_pos
    omega
  | succ depth ih =>
    refine h _ e fun x hx => ih ?_
    have hlower := height_lt_of_mem_children hx
    omega

end EscapeTime.Expr
