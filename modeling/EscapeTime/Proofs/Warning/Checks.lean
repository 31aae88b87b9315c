/-
What each check of a text asks for, and where its warning points.

`Meets cs kind` states the condition of each check with quantifiers over the text, and `Points cs kind p` says where the
warning of a check that fails has to point. Neither mentions a scan. Places in a text are found in lists of characters
with their offsets, in which the offsets grow (`Ordered`), also when the blanks are left out.

- `first?_eq_some_iff`: a warning is what the first check that fails finds.
- `found?_eq_none_iff`, `points_of_found?`: a check finds nothing exactly when its condition is met, and otherwise finds
  the right place.
- `validate_first_unmet`: a text draws no warning exactly when it meets all conditions; otherwise the warning is of the
  first condition that is not met, and points where it should.
-/
import EscapeTime.Proofs.Warning.FalseAlarm
import EscapeTime.Proofs.Warning.Parentheses
import EscapeTime.Proofs.Token.Tiling

namespace EscapeTime

namespace Validation

/-! ## The conditions -/

def operators : List Char :=
  ['+', '-', '*', '/', '^']

/-- the characters that an equation may hold -/
def Allowed (c : Char) : Prop :=
  c.isAlphanum = true ∨ c ∈ ['_', '|', ' ', '\t', '\n', '\r', '+', '-', '*', '/', '^', '(', ')', '.', ',']

/-- an exponent may begin with the character -/
def BeginsExponent (c : Char) : Prop :=
  c.isAlphanum = true ∨ c ∈ ['_', '.', '(', '|', '+', '-']

/-- three operators in a row begin at the offset -/
def RunAt (cs : List Char) (i : Nat) : Prop :=
  ∀ j, i ≤ j → j < i + 3 → ∃ c ∈ operators, cs[j]? = some c

/-- an operator in front of a closing parenthesis, or one that needs a left operand behind an opening one -/
def Dangles (a b : Char) : Prop :=
  (a ∈ operators ∧ b = ')') ∨ (a = '(' ∧ b ∈ ['*', '/', '^'])

/-- what the check of each kind asks of a text -/
def Meets (cs : List Char) : WarningKind → Prop
  | .empty => ∃ c ∈ cs, Text.isWhiteSpace c = false
  | .disallowedCharacters => ∀ c ∈ cs, Allowed c
  | .unbalancedParentheses => Balanced cs
  | .unmatchedPipe => Even (cs.count '|')
  | .invalidOperatorSequence => ∀ i, ¬ RunAt cs i
  | .danglingOperator => ∀ a b, [a, b] <:+: dense cs → ¬ Dangles a b
  | .invalidPowerSyntax => '^' ∈ cs → ∃ b, ['^', b] <:+: dense cs ∧ BeginsExponent b

/-- two characters that are neighbours once the blanks are gone, at their offsets in the whole text -/
structure Neighbours (cs : List Char) (i j : Nat) (a b : Char) : Prop where
  left : cs[i]? = some a
  right : cs[j]? = some b
  solid : ¬ Blank a ∧ ¬ Blank b
  gap : Gap cs (i + 1) j

/-- two characters with their offsets dangle, and the operator is the one at offset `p` -/
def OperatorOf (x y : Located) (p : Nat) : Prop :=
  (x.1 ∈ operators ∧ y.1 = ')' ∧ p = x.2) ∨ (x.1 = '(' ∧ y.1 ∈ ['*', '/', '^'] ∧ p = y.2)

/-- the neighbours at offset `i` and behind it dangle, with the operator at offset `p` -/
def DanglesAt (cs : List Char) (i p : Nat) : Prop :=
  ∃ j a b, Neighbours cs i j a b ∧ OperatorOf (a, i) (b, j) p

/-- where the warning of a check that fails points; of parentheses left open it may be any opening one -/
def Points (cs : List Char) : WarningKind → Option Nat → Prop
  | .empty, p => p = none
  | .disallowedCharacters, p => ∃ i ∈ p, IsLeast {i | ∃ c ∈ cs[i]?, ¬ Allowed c} i
  | .unbalancedParentheses, p =>
    ∃ i ∈ p, IsLeast {j | Excess cs j} i ∨ ((∀ j, ¬ Excess cs j) ∧ cs[i]? = some '(')
  | .unmatchedPipe, p => ∃ i ∈ p, IsGreatest {i | cs[i]? = some '|'} i
  | .invalidOperatorSequence, p => ∃ i ∈ p, IsLeast {i | RunAt cs i} i
  | .danglingOperator, p => ∃ i, (∃ k ∈ p, DanglesAt cs i k) ∧ ∀ i' k', DanglesAt cs i' k' → i ≤ i'
  | .invalidPowerSyntax, p => ∃ i ∈ p, IsLeast {i | cs[i]? = some '^'} i

theorem isOperator_iff (c : Char) : isOperator c = true ↔ c ∈ operators := by
  simp [isOperator, operators, or_assoc]

theorem isAllowed_iff (c : Char) : isAllowed c = true ↔ Allowed c := by
  simp only [isAllowed, isIdentPart, isBlank, isOperator, Allowed, Bool.or_eq_true, beq_iff_eq, List.mem_cons,
    List.not_mem_nil, or_false]
  grind

theorem startsExponent_iff (c : Char) : startsExponent c = true ↔ BeginsExponent c := by
  simp [startsExponent, isIdentPart, BeginsExponent, or_assoc]

theorem needsLeftOperand_iff (c : Char) : needsLeftOperand c = true ↔ c ∈ ['*', '/', '^'] := by
  simp [needsLeftOperand, or_assoc]

/-! ## Characters with their offsets -/

/-- the offsets grow along the list -/
def Ordered (l : List Located) : Prop :=
  l.Pairwise fun x y => x.2 < y.2

theorem ordered_zipIdx (cs : List Char) : Ordered cs.zipIdx := by
  refine List.pairwise_map.1 ?_
  rw [List.zipIdx_map_snd]
  exact List.pairwise_lt_range'

/-- the characters other than blanks, with their offsets -/
def located (cs : List Char) : List Located :=
  cs.zipIdx.filter fun x => !isBlank x.1

theorem ordered_located (cs : List Char) : Ordered (located cs) :=
  (ordered_zipIdx cs).filter _

theorem mem_located {cs : List Char} {x : Located} : x ∈ located cs ↔ cs[x.2]? = some x.1 ∧ ¬ Blank x.1 := by
  rw [located, List.mem_filter, List.mem_zipIdx_iff_getElem?, ← isBlank_iff, Bool.not_eq_true', Bool.not_eq_true]

/-- what is found first in a list has the least offset -/
theorem find?_eq_some_iff {l : List Located} (hl : Ordered l) {p : Located → Bool} (i : Nat) :
    (l.find? p).map (·.2) = some i ↔ IsLeast {i | ∃ c, (c, i) ∈ l ∧ p (c, i) = true} i := by
  have hleast : ∀ x, l.find? p = some x → IsLeast {i | ∃ c, (c, i) ∈ l ∧ p (c, i) = true} x.2 := by
    intro x hx
    obtain ⟨hp, before, after, rfl, hbefore⟩ := List.find?_eq_some_iff_append.1 hx
    refine ⟨⟨x.1, by simp, hp⟩, ?_⟩
    rintro j ⟨c, hmem, hpc⟩
    rw [List.mem_append, List.mem_cons] at hmem
    rcases hmem with hmem | rfl | hmem
    · have hnot := hbefore _ hmem
      rw [hpc] at hnot
      cases hnot
    · exact le_rfl
    · exact ((List.pairwise_cons.1 (List.pairwise_append.1 hl).2.1).1 _ hmem).le
  constructor
  · intro h
    obtain ⟨x, hx, rfl⟩ := Option.map_eq_some_iff.1 h
    exact hleast x hx
  · intro h
    obtain ⟨c, hmem, hp⟩ := h.1
    obtain ⟨x, hx⟩ := Option.isSome_iff_exists.1 (List.find?_isSome.2 ⟨_, hmem, hp⟩)
    rw [hx, Option.map_some, (hleast x hx).unique h]

/-- what gives the least number with a property gives nothing exactly when no number has it -/
theorem eq_none_iff_of_least {o : Option Nat} {P : Nat → Prop} (h : ∀ i, o = some i ↔ IsLeast {i | P i} i) :
    o = none ↔ ∀ i, ¬ P i := by
  classical
  constructor
  · rintro rfl i hi
    have hex : ∃ i, P i := ⟨i, hi⟩
    have hleast := (h (Nat.find hex)).2 ⟨Nat.find_spec hex, fun m hm => Nat.find_min' hex hm⟩
    cases hleast
  · intro hnone
    cases ho : o with
    | none => rfl
    | some i => exact absurd ((h i).1 ho).1 (hnone i)

/-- two entries stand next to each other exactly when no offset lies between theirs -/
theorem pair_infix_iff {l : List Located} (hl : Ordered l) {x y : Located} :
    [x, y] <:+: l ↔ x ∈ l ∧ y ∈ l ∧ x.2 < y.2 ∧ ∀ z ∈ l, z.2 ≤ x.2 ∨ y.2 ≤ z.2 := by
  constructor
  · rintro ⟨before, after, rfl⟩
    simp only [Ordered, List.append_assoc, List.cons_append, List.nil_append, List.pairwise_append, List.pairwise_cons,
      List.forall_mem_cons] at hl
    obtain ⟨_, ⟨⟨hlt, _⟩, hafter, _⟩, hbefore⟩ := hl
    refine ⟨by simp, by simp, hlt, fun z hz => ?_⟩
    simp only [List.append_assoc, List.cons_append, List.nil_append, List.mem_append, List.mem_cons] at hz
    rcases hz with hz | rfl | rfl | hz
    · exact .inl (hbefore z hz).1.le
    · exact .inl le_rfl
    · exact .inr le_rfl
    · exact .inr (hafter z hz).le
  · rintro ⟨hx, hy, hlt, hnone⟩
    obtain ⟨before, after, rfl⟩ := List.append_of_mem hx
    obtain ⟨_, hcons, hbefore⟩ := List.pairwise_append.1 hl
    obtain ⟨hafter, hrest⟩ := List.pairwise_cons.1 hcons
    -- `y` stands behind `x`, and nothing can stand between them
    have hy' : y ∈ after := by
      rcases List.mem_append.1 hy with hmem | hmem
      · exact absurd (hbefore y hmem x List.mem_cons_self) (by omega)
      · rcases List.mem_cons.1 hmem with rfl | hmem
        · exact absurd hlt (lt_irrefl _)
        · exact hmem
    obtain ⟨z, after, rfl⟩ := List.exists_cons_of_ne_nil (List.ne_nil_of_mem hy')
    rcases List.mem_cons.1 hy' with rfl | hmem
    · exact ⟨before, after, by simp⟩
    · have hz : x.2 < z.2 := hafter z List.mem_cons_self
      have hzy : z.2 < y.2 := (List.pairwise_cons.1 hrest).1 y hmem
      have hout := hnone z (by simp)
      omega

theorem pair_infix_cons_cons {x y a b : Located} {rest : List Located} :
    [x, y] <:+: a :: b :: rest ↔ (x = a ∧ y = b) ∨ [x, y] <:+: b :: rest := by
  rw [List.infix_cons_iff, List.cons_prefix_cons, List.cons_prefix_cons]
  simp

/-- in a list of at most one entry nothing has a neighbour -/
theorem pair_not_infix_of_short {l : List Located} (h : l.length < 2) (x y : Located) : ¬ [x, y] <:+: l :=
  fun hpair => absurd hpair.length_le (not_le.2 h)

theorem neighbours_iff {cs : List Char} {i j : Nat} {a b : Char} :
    [(a, i), (b, j)] <:+: located cs ↔ Neighbours cs i j a b := by
  rw [pair_infix_iff (ordered_located cs), mem_located, mem_located]
  constructor
  · rintro ⟨⟨ha, ha'⟩, ⟨hb, hb'⟩, hlt, hnone⟩
    refine ⟨ha, hb, ⟨ha', hb'⟩, hlt, fun k c hk hkj hc => ?_⟩
    by_contra hblank
    have hout := hnone (c, k) (mem_located.2 ⟨hc, hblank⟩)
    omega
  · rintro ⟨ha, hb, ⟨ha', hb'⟩, hlt, hgap⟩
    refine ⟨⟨ha, ha'⟩, ⟨hb, hb'⟩, hlt, fun z hz => ?_⟩
    obtain ⟨hz, hsolid⟩ := mem_located.1 hz
    by_contra hin
    exact hsolid (hgap z.2 z.1 (by omega) (by omega) hz)

/-- neighbours without the blanks are neighbours with offsets in the whole text -/
theorem pair_infix_dense_iff {cs : List Char} {a b : Char} :
    [a, b] <:+: dense cs ↔ ∃ i j, [(a, i), (b, j)] <:+: located cs := by
  rw [← map_fst_dense, List.infix_map_iff]
  constructor
  · rintro ⟨l, hl, hab⟩
    match l, hab with
    | [x, y], hab =>
      obtain ⟨rfl, rfl⟩ : a = x.1 ∧ b = y.1 := by simpa using hab
      exact ⟨x.2, y.2, hl⟩
  · rintro ⟨i, j, h⟩
    exact ⟨_, h, rfl⟩

/-! ## The checks -/

theorem disallowed?_eq_some_iff (cs : List Char) (i : Nat) :
    disallowed? cs.zipIdx = some i ↔ IsLeast {i | ∃ c ∈ cs[i]?, ¬ Allowed c} i := by
  rw [disallowed?, find?_eq_some_iff (ordered_zipIdx cs)]
  simp only [List.mem_zipIdx_iff_getElem?, Bool.not_eq_true', ← Bool.not_eq_true, isAllowed_iff, Option.mem_def]

theorem disallowed?_eq_none_iff (cs : List Char) : disallowed? cs.zipIdx = none ↔ ∀ c ∈ cs, Allowed c := by
  rw [eq_none_iff_of_least (disallowed?_eq_some_iff cs)]
  constructor
  · intro h c hc
    obtain ⟨i, hi⟩ := List.mem_iff_getElem?.1 hc
    by_contra hnot
    exact h i ⟨c, hi, hnot⟩
  · rintro h i ⟨c, hc, hnot⟩
    exact hnot (h c (List.mem_of_getElem? hc))

/-- the last of the entries has the greatest offset -/
theorem unmatchedPipe?_cases (cs : List Char) :
    (unmatchedPipe? cs.zipIdx = none ↔ Even (cs.count '|')) ∧
    ∀ i, unmatchedPipe? cs.zipIdx = some i → IsGreatest {i | cs[i]? = some '|'} i := by
  have hmem : ∀ c i, (c, i) ∈ cs.zipIdx.filter (·.1 == '|') ↔ cs[i]? = some '|' ∧ c = '|' := by
    intro c i
    rw [List.mem_filter, List.mem_zipIdx_iff_getElem?, beq_iff_eq]
    constructor
    · rintro ⟨hc, rfl⟩
      exact ⟨hc, rfl⟩
    · rintro ⟨hc, rfl⟩
      exact ⟨hc, rfl⟩
  have hordered : Ordered (cs.zipIdx.filter (·.1 == '|')) := (ordered_zipIdx cs).filter _
  rw [unmatchedPipe?, length_bars, Nat.even_iff]
  split_ifs with heven
  · simp [heven]
  · have hne : cs.zipIdx.filter (·.1 == '|') ≠ [] := by
      intro hnil
      rw [← length_bars, hnil] at heven
      exact heven rfl
    refine ⟨by simpa [heven] using hne, fun i hi => ?_⟩
    obtain ⟨⟨c, i⟩, hlast, rfl⟩ := Option.map_eq_some_iff.1 hi
    obtain ⟨before, hbars⟩ := List.getLast?_eq_some_iff.1 hlast
    rw [hbars] at hmem hordered
    refine ⟨((hmem c i).1 (by simp)).1, fun j hj => ?_⟩
    have hj' := (hmem '|' j).2 ⟨hj, rfl⟩
    rcases List.mem_append.1 hj' with hbefore | hsame
    · exact ((List.pairwise_append.1 hordered).2.2 _ hbefore _ List.mem_cons_self).le
    · rw [List.mem_singleton] at hsame
      cases hsame
      exact le_rfl

theorem runAt_cons (c : Char) (cs : List Char) (i : Nat) : RunAt (c :: cs) (i + 1) ↔ RunAt cs i := by
  constructor
  · intro h j hij hlt
    simpa using h (j + 1) (by omega) (by omega)
  · intro h j hij hlt
    obtain ⟨j, rfl⟩ : ∃ k, j = k + 1 := ⟨j - 1, by omega⟩
    simpa using h j (by omega) (by omega)

theorem runAt_zero_iff {cs : List Char} :
    RunAt cs 0 ↔ ∃ a b c rest, cs = a :: b :: c :: rest ∧ a ∈ operators ∧ b ∈ operators ∧ c ∈ operators := by
  constructor
  · intro h
    obtain ⟨a, ha, h0⟩ := h 0 le_rfl (by omega)
    obtain ⟨b, hb, h1⟩ := h 1 (by omega) (by omega)
    obtain ⟨c, hc, h2⟩ := h 2 (by omega) (by omega)
    match cs, h0, h1, h2 with
    | x :: y :: z :: rest, h0, h1, h2 =>
      simp only [List.getElem?_cons_zero, List.getElem?_cons_succ, Option.some.injEq] at h0 h1 h2
      subst h0 h1 h2
      exact ⟨x, y, z, rest, rfl, ha, hb, hc⟩
  · rintro ⟨a, b, c, rest, rfl, ha, hb, hc⟩ j _ hlt
    match j, hlt with
    | 0, _ => exact ⟨a, ha, rfl⟩
    | 1, _ => exact ⟨b, hb, rfl⟩
    | 2, _ => exact ⟨c, hc, rfl⟩

/-- one character: three operators begin with it, or the search goes on behind it -/
theorem operatorRun?_cons (n : Nat) (c : Char) (cs : List Char) :
    (RunAt (c :: cs) 0 ∧ operatorRun? ((c :: cs).zipIdx n) = some n) ∨
    (¬ RunAt (c :: cs) 0 ∧ operatorRun? ((c :: cs).zipIdx n) = operatorRun? (cs.zipIdx (n + 1))) := by
  match cs with
  | [] => exact .inr ⟨by simp [runAt_zero_iff], rfl⟩
  | [b] => exact .inr ⟨by simp [runAt_zero_iff], rfl⟩
  | b :: d :: rest =>
    have hops : (isOperator c && isOperator b && isOperator d) = true ↔ RunAt (c :: b :: d :: rest) 0 := by
      simp [runAt_zero_iff, isOperator_iff, and_assoc]
    by_cases hrun : RunAt (c :: b :: d :: rest) 0
    · refine .inl ⟨hrun, ?_⟩
      simp only [List.zipIdx_cons, operatorRun?, hops.2 hrun, if_true]
    · refine .inr ⟨hrun, ?_⟩
      simp only [List.zipIdx_cons, operatorRun?, hops.not.2 hrun, Bool.false_eq_true, if_false]

/-- the search finds where the first three operators in a row begin -/
theorem operatorRun?_eq_some_iff_offset (cs : List Char) : ∀ n p : Nat,
    operatorRun? (cs.zipIdx n) = some p ↔ ∃ i, p = n + i ∧ IsLeast {i | RunAt cs i} i := by
  induction cs with
  | nil =>
    intro n p
    refine ⟨fun h => (by cases h), ?_⟩
    rintro ⟨i, _, hrun, _⟩
    obtain ⟨c, _, hc⟩ := hrun i le_rfl (by omega)
    cases hc
  | cons c cs ih =>
    intro n p
    rcases operatorRun?_cons n c cs with ⟨hrun, hfound⟩ | ⟨hrun, hfound⟩
    · have hleast : IsLeast {i | RunAt (c :: cs) i} 0 := ⟨hrun, fun i _ => Nat.zero_le i⟩
      rw [hfound]
      constructor
      · rintro ⟨⟩
        exact ⟨0, rfl, hleast⟩
      · rintro ⟨i, rfl, hi⟩
        rw [hi.unique hleast]
        rfl
    · rw [hfound, ih]
      constructor
      · rintro ⟨i, rfl, hi⟩
        refine ⟨i + 1, by omega, (isLeast_succ_iff hrun).2 ?_⟩
        simpa only [runAt_cons] using hi
      · rintro ⟨i, rfl, hi⟩
        cases i with
        | zero => exact absurd hi.1 hrun
        | succ i =>
          refine ⟨i, by omega, ?_⟩
          simpa only [runAt_cons] using (isLeast_succ_iff hrun).1 hi

theorem operatorRun?_eq_some_iff (cs : List Char) (i : Nat) :
    operatorRun? cs.zipIdx = some i ↔ IsLeast {i | RunAt cs i} i := by
  simp [operatorRun?_eq_some_iff_offset]

theorem OperatorOf.dangles {x y : Located} {p : Nat} (h : OperatorOf x y p) : Dangles x.1 y.1 :=
  h.imp (fun h => ⟨h.1, h.2.1⟩) fun h => ⟨h.1, h.2.1⟩

/-- one pair of neighbours: it dangles, or the search goes on with the next pair -/
theorem dangling?_cons_cons (x y : Located) (rest : List Located) :
    (∃ p, OperatorOf x y p ∧ dangling? (x :: y :: rest) = some p) ∨
    (¬ Dangles x.1 y.1 ∧ dangling? (x :: y :: rest) = dangling? (y :: rest)) := by
  obtain ⟨a, i⟩ := x
  obtain ⟨b, j⟩ := y
  have hend : (isOperator a && b == ')') = true ↔ a ∈ operators ∧ b = ')' := by simp [isOperator_iff]
  have hbegin : (a == '(' && needsLeftOperand b) = true ↔ a = '(' ∧ b ∈ ['*', '/', '^'] := by
    simp [needsLeftOperand_iff]
  rw [dangling?]
  split_ifs with h h'
  · exact .inl ⟨i, .inl ⟨(hend.1 h).1, (hend.1 h).2, rfl⟩, rfl⟩
  · exact .inl ⟨j, .inr ⟨(hbegin.1 h').1, (hbegin.1 h').2, rfl⟩, rfl⟩
  · refine .inr ⟨?_, rfl⟩
    rintro (hdangles | hdangles)
    · exact h (hend.2 hdangles)
    · exact h' (hbegin.2 hdangles)

/-- the search finds nothing if no neighbours dangle, and otherwise the operator of the first ones that do -/
theorem dangling?_cases {l : List Located} (hl : Ordered l) :
    (dangling? l = none ∧ ∀ x y, [x, y] <:+: l → ¬ Dangles x.1 y.1) ∨
    ∃ p x y, dangling? l = some p ∧ [x, y] <:+: l ∧ OperatorOf x y p ∧
      ∀ x' y', [x', y'] <:+: l → Dangles x'.1 y'.1 → x.2 ≤ x'.2 := by
  induction l with
  | nil => exact .inl ⟨rfl, fun x y hpair => absurd hpair (pair_not_infix_of_short (by simp) x y)⟩
  | cons x l ih =>
    cases l with
    | nil => exact .inl ⟨rfl, fun x y hpair => absurd hpair (pair_not_infix_of_short (by simp) x y)⟩
    | cons y rest =>
      obtain ⟨hfirst, hrest⟩ := List.pairwise_cons.1 hl
      rcases dangling?_cons_cons x y rest with ⟨p, hoperator, hfound⟩ | ⟨hnot, hfound⟩
      · refine .inr ⟨p, x, y, hfound, pair_infix_cons_cons.2 (.inl ⟨rfl, rfl⟩), hoperator, fun x' y' hpair _ => ?_⟩
        rcases List.mem_cons.1 (hpair.mem List.mem_cons_self) with rfl | hmem
        · exact le_rfl
        · exact (hfirst x' hmem).le
      · rw [hfound]
        -- the first pair does not dangle, so it is none of those that do
        have hlater : ∀ x' y', [x', y'] <:+: x :: y :: rest → Dangles x'.1 y'.1 → [x', y'] <:+: y :: rest := by
          intro x' y' hpair hdangles
          rcases pair_infix_cons_cons.1 hpair with ⟨rfl, rfl⟩ | hpair
          · exact absurd hdangles hnot
          · exact hpair
        rcases ih hrest with ⟨hnone, hall⟩ | ⟨p, u, v, hp, hpair, hoperator, hleast⟩
        · exact .inl ⟨hnone, fun x' y' hpair hdangles => hall x' y' (hlater x' y' hpair hdangles) hdangles⟩
        · exact .inr ⟨p, u, v, hp, pair_infix_cons_cons.2 (.inr hpair), hoperator,
            fun x' y' hpair hdangles => hleast x' y' (hlater x' y' hpair hdangles) hdangles⟩

theorem dangling?_eq_none_iff (cs : List Char) :
    dangling? (located cs) = none ↔ ∀ a b, [a, b] <:+: dense cs → ¬ Dangles a b := by
  rcases dangling?_cases (ordered_located cs) with ⟨hnone, hall⟩ | ⟨p, x, y, hp, hpair, hoperator, _⟩
  · refine ⟨fun _ a b hpair => ?_, fun _ => hnone⟩
    obtain ⟨i, j, hpair⟩ := pair_infix_dense_iff.1 hpair
    exact hall (a, i) (b, j) hpair
  · rw [hp]
    refine ⟨fun h => (by cases h), fun h => ?_⟩
    exact absurd hoperator.dangles (h x.1 y.1 (pair_infix_dense_iff.2 ⟨x.2, y.2, hpair⟩))

theorem hasExponent_iff {l : List Located} :
    hasExponent l = true ↔ ∃ x y, [x, y] <:+: l ∧ x.1 = '^' ∧ BeginsExponent y.1 := by
  have hshort : ∀ l : List Located, l.length < 2 → ¬ ∃ x y, [x, y] <:+: l ∧ x.1 = '^' ∧ BeginsExponent y.1 := by
    rintro l hl ⟨x, y, hpair, _⟩
    exact pair_not_infix_of_short hl x y hpair
  induction l with
  | nil => exact ⟨fun h => (by cases h), fun h => absurd h (hshort _ (by simp))⟩
  | cons x l ih =>
    cases l with
    | nil => exact ⟨fun h => (by cases h), fun h => absurd h (hshort _ (by simp))⟩
    | cons y rest =>
      simp only [hasExponent, Bool.or_eq_true, Bool.and_eq_true, beq_iff_eq, startsExponent_iff, ih]
      constructor
      · rintro (⟨hx, hy⟩ | ⟨u, v, hpair, huv⟩)
        · exact ⟨x, y, pair_infix_cons_cons.2 (.inl ⟨rfl, rfl⟩), hx, hy⟩
        · exact ⟨u, v, pair_infix_cons_cons.2 (.inr hpair), huv⟩
      · rintro ⟨u, v, hpair, huv⟩
        rcases pair_infix_cons_cons.1 hpair with ⟨rfl, rfl⟩ | hpair
        · exact .inl huv
        · exact .inr ⟨u, v, hpair, huv⟩

/-- carets are no blanks, so none is left out -/
theorem firstCaret_eq_some_iff (cs : List Char) (i : Nat) :
    ((located cs).find? (·.1 == '^')).map (·.2) = some i ↔ IsLeast {i | cs[i]? = some '^'} i := by
  have hcaret : ∀ j, (∃ c, (c, j) ∈ located cs ∧ (c == '^') = true) ↔ cs[j]? = some '^' := by
    intro j
    constructor
    · rintro ⟨c, hmem, hc⟩
      rw [beq_iff_eq.1 hc] at hmem
      exact (mem_located.1 hmem).1
    · intro hj
      exact ⟨'^', mem_located.2 ⟨hj, by simp [Blank]⟩, rfl⟩
  rw [find?_eq_some_iff (ordered_located cs)]
  simp only [hcaret]

theorem badPower?_eq_none_iff (cs : List Char) :
    badPower? (located cs) = none ↔ ('^' ∈ cs → ∃ b, ['^', b] <:+: dense cs ∧ BeginsExponent b) := by
  have hexponent : hasExponent (located cs) = true ↔ ∃ b, ['^', b] <:+: dense cs ∧ BeginsExponent b := by
    rw [hasExponent_iff]
    constructor
    · rintro ⟨x, y, hpair, hx, hy⟩
      exact ⟨y.1, pair_infix_dense_iff.2 ⟨x.2, y.2, hx ▸ hpair⟩, hy⟩
    · rintro ⟨b, hpair, hb⟩
      obtain ⟨i, j, hpair⟩ := pair_infix_dense_iff.1 hpair
      exact ⟨_, _, hpair, rfl, hb⟩
  rw [badPower?, ← hexponent]
  split_ifs with h
  · simp [h]
  · rw [eq_none_iff_of_least (firstCaret_eq_some_iff cs), ← not_exists, ← List.mem_iff_getElem?]
    simp [h]

/-! ## The order of the checks -/

/-- the kinds of warning, in the order in which their checks are made -/
def order : List WarningKind :=
  [.empty, .disallowedCharacters, .unbalancedParentheses, .unmatchedPipe, .invalidOperatorSequence, .danglingOperator,
    .invalidPowerSyntax]

/-- what the check of a kind finds in a text: the offset to point at, where there is one -/
def found? (cs : List Char) : WarningKind → Option (Option Nat)
  | .empty => if cs.all Text.isWhiteSpace then some none else none
  | .disallowedCharacters => (disallowed? cs.zipIdx).map some
  | .unbalancedParentheses => (unbalanced? 0 0 cs.zipIdx).map some
  | .unmatchedPipe => (unmatchedPipe? cs.zipIdx).map some
  | .invalidOperatorSequence => (operatorRun? cs.zipIdx).map some
  | .danglingOperator => (dangling? (located cs)).map some
  | .invalidPowerSyntax => (badPower? (located cs)).map some

theorem first?_eq_findSome? (cs : List Char) :
    first? cs = order.findSome? fun kind => (found? cs kind).map (Warning.mk kind) := by
  have hwarn : ∀ kind o, warnAt kind o = (o.map some).map (Warning.mk kind) := by
    intro kind o
    cases o <;> rfl
  have helse : ∀ o rest : Option Warning, (o.orElse fun _ => rest) = o.or rest := by
    intro o rest
    cases o <;> rfl
  have hcons : ∀ (f : WarningKind → Option Warning) kind kinds,
      (kind :: kinds).findSome? f = (f kind).or (kinds.findSome? f) := by
    intro f kind kinds
    rw [List.findSome?_cons]
    cases f kind <;> rfl
  simp only [first?, hwarn, helse, order, hcons, List.findSome?_nil, Option.or_none, found?]
  split_ifs <;> rfl

/-- a warning is what the first check that fails finds -/
theorem first?_eq_some_iff {cs : List Char} {w : Warning} :
    first? cs = some w ↔ ∃ before after, order = before ++ w.kind :: after ∧ found? cs w.kind = some w.position ∧
      ∀ kind ∈ before, found? cs kind = none := by
  rw [first?_eq_findSome?, List.findSome?_eq_some_iff]
  constructor
  · rintro ⟨before, kind, after, horder, hfound, hbefore⟩
    obtain ⟨p, hp, rfl⟩ := Option.map_eq_some_iff.1 hfound
    exact ⟨before, after, horder, hp, fun k hk => Option.map_eq_none_iff.1 (hbefore k hk)⟩
  · rintro ⟨before, after, horder, hfound, hbefore⟩
    exact ⟨before, w.kind, after, horder, by rw [hfound]; rfl, fun k hk => Option.map_eq_none_iff.2 (hbefore k hk)⟩

theorem found?_eq_none_iff (cs : List Char) (kind : WarningKind) : found? cs kind = none ↔ Meets cs kind := by
  cases kind with
  | empty => simp [found?, Meets]
  | disallowedCharacters => rw [found?, Option.map_eq_none_iff, disallowed?_eq_none_iff, Meets]
  | unbalancedParentheses => rw [found?, Option.map_eq_none_iff, unbalanced?_eq_none_iff, Meets]
  | unmatchedPipe => rw [found?, Option.map_eq_none_iff, (unmatchedPipe?_cases cs).1, Meets]
  | invalidOperatorSequence =>
    rw [found?, Option.map_eq_none_iff, eq_none_iff_of_least (operatorRun?_eq_some_iff cs), Meets]
  | danglingOperator => rw [found?, Option.map_eq_none_iff, dangling?_eq_none_iff, Meets]
  | invalidPowerSyntax => rw [found?, Option.map_eq_none_iff, badPower?_eq_none_iff, Meets]

theorem points_of_found? {cs : List Char} {kind : WarningKind} {p : Option Nat} (h : found? cs kind = some p) :
    Points cs kind p := by
  cases kind with
  | empty => simpa [found?, eq_comm, Points] using (Option.ite_none_right_eq_some.1 h).2
  | disallowedCharacters =>
    obtain ⟨i, hi, rfl⟩ := Option.map_eq_some_iff.1 h
    exact ⟨i, rfl, (disallowed?_eq_some_iff cs i).1 hi⟩
  | unbalancedParentheses =>
    obtain ⟨i, hi, rfl⟩ := Option.map_eq_some_iff.1 h
    refine ⟨i, rfl, (unbalanced?_cases hi).imp_right ?_⟩
    rintro ⟨hnone, _, hlast⟩
    exact ⟨fun j hj => absurd (hnone (j + 1)) (not_le.2 hj.2), hlast.1⟩
  | unmatchedPipe =>
    obtain ⟨i, hi, rfl⟩ := Option.map_eq_some_iff.1 h
    exact ⟨i, rfl, (unmatchedPipe?_cases cs).2 i hi⟩
  | invalidOperatorSequence =>
    obtain ⟨i, hi, rfl⟩ := Option.map_eq_some_iff.1 h
    exact ⟨i, rfl, (operatorRun?_eq_some_iff cs i).1 hi⟩
  | danglingOperator =>
    obtain ⟨k, hk, rfl⟩ := Option.map_eq_some_iff.1 h
    rcases dangling?_cases (ordered_located cs) with ⟨hnone, _⟩ | ⟨p, x, y, hp, hpair, hoperator, hleast⟩
    · rw [hnone] at hk
      cases hk
    · obtain rfl : p = k := Option.some.inj (hp.symm.trans hk)
      refine ⟨x.2, ⟨p, rfl, y.2, x.1, y.1, neighbours_iff.1 hpair, hoperator⟩, ?_⟩
      rintro i' k' ⟨j', a, b, hnext, hdangles⟩
      exact hleast (a, i') (b, j') (neighbours_iff.2 hnext) hdangles.dangles
  | invalidPowerSyntax =>
    obtain ⟨i, hi, rfl⟩ := Option.map_eq_some_iff.1 h
    refine ⟨i, rfl, (firstCaret_eq_some_iff cs i).1 ?_⟩
    exact (Option.ite_none_left_eq_some.1 hi).2

/-- the first condition, in the order of the checks, that a text does not meet -/
def FirstUnmet (cs : List Char) (kind : WarningKind) : Prop :=
  ¬ Meets cs kind ∧ ∃ before after, order = before ++ kind :: after ∧ ∀ earlier ∈ before, Meets cs earlier

end Validation

open Validation

/-- **The checks are what they are meant to be.** A text draws no warning exactly when it meets the conditions of all
checks. Otherwise the warning is of the first condition that it does not meet, and points where that condition fails. -/
theorem validate_first_unmet (s : String) :
    (validate s = none ↔ ∀ kind, Meets s.toList kind) ∧
    ∀ w, validate s = some w → FirstUnmet s.toList w.kind ∧ Points s.toList w.kind w.position := by
  constructor
  · rw [validate, first?_eq_findSome?, List.findSome?_eq_none_iff]
    simp only [Option.map_eq_none_iff, found?_eq_none_iff]
    refine ⟨fun h kind => h kind ?_, fun h kind _ => h kind⟩
    cases kind <;> simp [order]
  · intro w h
    obtain ⟨before, after, horder, hfound, hbefore⟩ := first?_eq_some_iff.1 h
    refine ⟨⟨?_, before, after, horder, fun k hk => (found?_eq_none_iff _ k).1 (hbefore k hk)⟩, points_of_found? hfound⟩
    rw [← found?_eq_none_iff, hfound]
    exact Option.some_ne_none _

/-- `(z + )^*c` with a tab in it: the plus dangles, past the blanks, and the caret has no exponent; `|z|^-1` meets all
conditions -/
theorem validate_first_unmet_dangling :
    validate "(z + \t)^*c" = some ⟨.danglingOperator, some 3⟩ ∧
    FirstUnmet "(z + \t)^*c".toList .danglingOperator ∧ Points "(z + \t)^*c".toList .danglingOperator (some 3) ∧
    ∀ kind, Meets "|z|^-1".toList kind := by
  have h : validate "(z + \t)^*c" = some ⟨.danglingOperator, some 3⟩ := by decide
  obtain ⟨hfirst, hpoints⟩ := (validate_first_unmet _).2 _ h
  exact ⟨h, hfirst, hpoints, (validate_first_unmet "|z|^-1").1.1 (by decide)⟩

end EscapeTime
