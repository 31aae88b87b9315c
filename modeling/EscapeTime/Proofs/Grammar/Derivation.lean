/-
The grammar of equations, as a relation between token kinds and trees.

`Derives p ks ds e`: the kinds `ks` are a phrase `p` whose tree is `e`. The relation has one rule for each alternative
of the grammar and says nothing about how a phrase is found. The list `ds` runs along `ks` and holds for each kind the
number of groups (parentheses, bars, arguments of a call) that are open around it; the delimiters of a group stand
outside it.

Facts about every derivation:
- `derives_length`: there is one count for each kind.
- `derives_head`: a phrase is not empty; it begins with a number, an identifier or an opening delimiter, or with a sign
  if it is not a power or a primary.
- `derives_last`: it ends in a number, an identifier or a closing delimiter.
- `derives_no_end`: the end marker is in no phrase.
-/
import Mathlib.Tactic
import EscapeTime.Grammar.Expression

namespace EscapeTime.Grammar

/-- the phrases of the grammar, from loosest to tightest binding -/
inductive Phrase where
  | sum
  | product
  | unary
  | power
  | exponent
  | primary
  deriving DecidableEq

/-- the token of a binary operator -/
def operatorKind : BinaryOp → Kind
  | .add => .plus
  | .sub => .minus
  | .mul => .star
  | .div => .slash
  | .pow => .caret

/-- `ks` is a phrase `p` with tree `e`; `ds` counts the groups around each kind -/
inductive Derives : Phrase → List Kind → List Nat → Expr → Prop where
  | sumFirst {ks ds e} : Derives .product ks ds e → Derives .sum ks ds e
  | sumNext {ks ds l ks' ds' r} (op : BinaryOp) (hop : op = .add ∨ op = .sub) :
      Derives .sum ks ds l → Derives .product ks' ds' r →
      Derives .sum (ks ++ operatorKind op :: ks') (ds ++ 0 :: ds') (.binary op l r)
  | productFirst {ks ds e} : Derives .unary ks ds e → Derives .product ks ds e
  | productNext {ks ds l ks' ds' r} (op : BinaryOp) (hop : op = .mul ∨ op = .div) :
      Derives .product ks ds l → Derives .unary ks' ds' r →
      Derives .product (ks ++ operatorKind op :: ks') (ds ++ 0 :: ds') (.binary op l r)
  | unaryPlain {ks ds e} : Derives .power ks ds e → Derives .unary ks ds e
  | unarySigned {ks ds e} (run : List Kind) (hne : run ≠ []) (hrun : ∀ k ∈ run, k = .plus ∨ k = .minus) :
      Derives .power ks ds e →
      Derives .unary (run ++ ks) (List.replicate run.length 0 ++ ds)
        (.unary (if run.count .minus % 2 = 1 then .neg else .pos) e)
  | powerFirst {ks ds e} : Derives .primary ks ds e → Derives .power ks ds e
  | powerNext {ks ds l ks' ds' r} :
      Derives .power ks ds l → Derives .exponent ks' ds' r →
      Derives .power (ks ++ .caret :: ks') (ds ++ 0 :: ds') (.binary .pow l r)
  | exponentPlain {ks ds e} : Derives .primary ks ds e → Derives .exponent ks ds e
  | exponentSigned {ks ds e} (run : List Kind) (hne : run ≠ []) (hrun : ∀ k ∈ run, k = .plus ∨ k = .minus) :
      Derives .primary ks ds e →
      Derives .exponent (run ++ ks) (List.replicate run.length 0 ++ ds)
        (.unary (if run.count .minus % 2 = 1 then .neg else .pos) e)
  | number (x : Binary64) : Derives .primary [.number x] [0] (.number x)
  | var (v : Variable) : Derives .primary [.ident v.name] [0] (.var v)
  | call {ks ds e} (f : Func) :
      Derives .sum ks ds e →
      Derives .primary (.ident f.name :: .leftParen :: ks ++ [.rightParen]) (0 :: 0 :: ds.map (· + 1) ++ [0])
        (.call f e)
  | parens {ks ds e} :
      Derives .sum ks ds e → Derives .primary (.leftParen :: ks ++ [.rightParen]) (0 :: ds.map (· + 1) ++ [0]) e
  | bars {ks ds e} :
      Derives .sum ks ds e → Derives .primary (.pipe :: ks ++ [.pipe]) (0 :: ds.map (· + 1) ++ [0]) (.modulus e)

/-! ## Beginnings and ends of phrases -/

/-- a primary may begin with this kind -/
def beginsPrimary : Kind → Bool
  | .number _ | .ident _ | .leftParen | .pipe => true
  | _ => false

/-- a primary may end in this kind -/
def endsPrimary : Kind → Bool
  | .number _ | .ident _ | .rightParen | .pipe => true
  | _ => false

/-- the phrase may begin with this kind: signs may stand in front of all phrases but powers and primaries -/
def Phrase.mayBegin : Phrase → Kind → Bool
  | .power, k | .primary, k => beginsPrimary k
  | _, k => k.isSign || beginsPrimary k

theorem Phrase.mayBegin_sum {p : Phrase} {k : Kind} (h : p.mayBegin k = true) : Phrase.sum.mayBegin k = true := by
  cases p <;> simp_all [Phrase.mayBegin]

theorem isSign_of_mem {run : List Kind} (hrun : ∀ k ∈ run, k = .plus ∨ k = .minus) : ∀ k ∈ run, k.isSign = true := by
  intro k hk
  rcases hrun k hk with rfl | rfl <;> rfl

theorem derives_length {p : Phrase} {ks : List Kind} {ds : List Nat} {e : Expr} (h : Derives p ks ds e) :
    ds.length = ks.length := by
  induction h <;> simp_all

/-- a phrase begins as its kind of phrase may; it is never empty -/
theorem derives_head {p : Phrase} {ks : List Kind} {ds : List Nat} {e : Expr} (h : Derives p ks ds e) :
    ∃ k ks', ks = k :: ks' ∧ p.mayBegin k = true := by
  induction h with
  | sumFirst _ ih | productFirst _ ih =>
    obtain ⟨k, ks', rfl, hk⟩ := ih
    exact ⟨k, ks', rfl, hk⟩
  | unaryPlain _ ih | exponentPlain _ ih =>
    obtain ⟨k, ks', rfl, hk⟩ := ih
    exact ⟨k, ks', rfl, Phrase.mayBegin_sum hk⟩
  | powerFirst _ ih =>
    obtain ⟨k, ks', rfl, hk⟩ := ih
    exact ⟨k, ks', rfl, hk⟩
  | sumNext op _ _ _ ih _ | productNext op _ _ _ ih _ =>
    obtain ⟨k, ks', rfl, hk⟩ := ih
    exact ⟨k, _, List.cons_append, hk⟩
  | powerNext _ _ ih _ =>
    obtain ⟨k, ks', rfl, hk⟩ := ih
    exact ⟨k, _, List.cons_append, hk⟩
  | unarySigned run hne hrun _ _ | exponentSigned run hne hrun _ _ =>
    obtain ⟨k, run', rfl⟩ := List.exists_cons_of_ne_nil hne
    refine ⟨k, _, List.cons_append, ?_⟩
    simp [Phrase.mayBegin, isSign_of_mem hrun k List.mem_cons_self]
  | number x => exact ⟨_, _, rfl, rfl⟩
  | var v => exact ⟨_, _, rfl, rfl⟩
  | call f _ _ => exact ⟨_, _, List.cons_append, rfl⟩
  | parens _ _ => exact ⟨_, _, List.cons_append, rfl⟩
  | bars _ _ => exact ⟨_, _, List.cons_append, rfl⟩

theorem derives_ne_nil {p : Phrase} {ks : List Kind} {ds : List Nat} {e : Expr} (h : Derives p ks ds e) : ks ≠ [] := by
  obtain ⟨k, ks', rfl, _⟩ := derives_head h
  exact List.cons_ne_nil k ks'

/-- there is a kind in a phrase, and so a count -/
theorem derives_count {p : Phrase} {ks : List Kind} {ds : List Nat} {e : Expr} (h : Derives p ks ds e) :
    ∃ d, d ∈ ds := by
  refine List.exists_mem_of_ne_nil ds fun hnil => derives_ne_nil h ?_
  rw [← List.length_eq_zero_iff, ← derives_length h, hnil, List.length_nil]

/-- a phrase ends as a primary does -/
theorem derives_last {p : Phrase} {ks : List Kind} {ds : List Nat} {e : Expr} (h : Derives p ks ds e) :
    ∃ k, ks.getLast? = some k ∧ endsPrimary k = true := by
  induction h with
  | sumFirst _ ih | productFirst _ ih | unaryPlain _ ih | powerFirst _ ih | exponentPlain _ ih => exact ih
  | sumNext op _ _ _ _ ih | productNext op _ _ _ _ ih =>
    obtain ⟨k, hk, hend⟩ := ih
    exact ⟨k, by simp [List.getLast?_append, List.getLast?_cons, hk], hend⟩
  | powerNext _ _ _ ih =>
    obtain ⟨k, hk, hend⟩ := ih
    exact ⟨k, by simp [List.getLast?_append, List.getLast?_cons, hk], hend⟩
  | unarySigned run _ _ _ ih | exponentSigned run _ _ _ ih =>
    obtain ⟨k, hk, hend⟩ := ih
    exact ⟨k, by simp [List.getLast?_append, hk], hend⟩
  | number x => exact ⟨_, rfl, rfl⟩
  | var v => exact ⟨_, rfl, rfl⟩
  | call f _ _ | parens _ _ | bars _ _ => exact ⟨_, List.getLast?_concat, rfl⟩

theorem operatorKind_ne_end (op : BinaryOp) : operatorKind op ≠ .endOfInput := by
  cases op <;> decide

/-- the end marker is in no phrase -/
theorem derives_no_end {p : Phrase} {ks : List Kind} {ds : List Nat} {e : Expr} (h : Derives p ks ds e) :
    ∀ k ∈ ks, k ≠ .endOfInput := by
  induction h with
  | sumFirst _ ih | productFirst _ ih | unaryPlain _ ih | powerFirst _ ih | exponentPlain _ ih => exact ih
  | sumNext op _ _ _ ihl ihr | productNext op _ _ _ ihl ihr =>
    simp only [List.forall_mem_append, List.forall_mem_cons]
    exact ⟨ihl, operatorKind_ne_end op, ihr⟩
  | powerNext _ _ ihl ihr =>
    simp only [List.forall_mem_append, List.forall_mem_cons]
    exact ⟨ihl, operatorKind_ne_end .pow, ihr⟩
  | unarySigned run _ hrun _ ih | exponentSigned run _ hrun _ ih =>
    simp only [List.forall_mem_append]
    refine ⟨fun k hk => ?_, ih⟩
    rcases hrun k hk with rfl | rfl <;> decide
  | number x => simp
  | var v => simp
  | call f _ ih | parens _ ih | bars _ ih =>
    simp only [List.cons_append, List.forall_mem_cons, List.forall_mem_append]
    simpa using ih

/-! ## Primaries and groups -/

theorem derives_sum_of_primary {ks : List Kind} {ds : List Nat} {e : Expr} (h : Derives .primary ks ds e) :
    Derives .unary ks ds e ∧ Derives .product ks ds e ∧ Derives .sum ks ds e :=
  ⟨.unaryPlain (.powerFirst h), .productFirst (.unaryPlain (.powerFirst h)),
    .sumFirst (.productFirst (.unaryPlain (.powerFirst h)))⟩

/-- a group is one level more for every kind inside it, and none for its closing delimiter -/
theorem count_le_of_group {ds : List Nat} {n : Nat} (h : ∀ d ∈ ds, d ≤ n) : ∀ d ∈ ds.map (· + 1) ++ [0], d ≤ n + 1 := by
  intro d hd
  simp only [List.mem_append, List.mem_map, List.mem_singleton] at hd
  rcases hd with ⟨d', hd', rfl⟩ | rfl
  · exact Nat.succ_le_succ (h d' hd')
  · exact Nat.zero_le _

end EscapeTime.Grammar
