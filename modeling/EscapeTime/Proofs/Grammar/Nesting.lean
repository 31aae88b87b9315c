/-
How deep groups may be nested.

`nested v groups` writes groups of any kinds (parentheses, bars, arguments of calls) around a variable. The sum inside a
group costs a level, and so does the outermost sum: of 128 levels 127 are left for groups.

- `nested_derives`: groups around a variable are a sentence, with as many groups open around the variable as there are.
- `expression_tooDeep`: with no more levels than groups, reading gives up in front of what the last level was meant for.
- `nested_parse`: so a stream of at most 127 groups is accepted, and one of 128 or more is refused as too deep.
-/
import EscapeTime.Proofs.Grammar.Acceptance

namespace EscapeTime

namespace Grammar

/-- parentheses, bars, or the argument of a function -/
inductive Group where
  | parens
  | bars
  | call (f : Func)

namespace Group

/-- the tokens in front of what a group holds -/
def opening : Group → List Kind
  | parens => [.leftParen]
  | bars => [.pipe]
  | call f => [.ident f.name, .leftParen]

/-- the token behind what a group holds -/
def closing : Group → Kind
  | bars => .pipe
  | _ => .rightParen

/-- the tree of a group that holds an expression -/
def wrap : Group → Expr → Expr
  | parens, e => e
  | bars, e => .modulus e
  | call f, e => .call f e

end Group

/-- groups around a variable, the outermost one first -/
def nested (v : Variable) : List Group → List Kind
  | [] => [.ident v.name]
  | g :: groups => g.opening ++ nested v groups ++ [g.closing]

/-- the tree of groups around a variable -/
def nestedTree (v : Variable) (groups : List Group) : Expr :=
  groups.foldr Group.wrap (.var v)

theorem nested_derives (v : Variable) (groups : List Group) :
    ∃ ds, Derives .primary (nested v groups) ds (nestedTree v groups) ∧ ∀ d ∈ ds, d ≤ groups.length := by
  induction groups with
  | nil => exact ⟨[0], .var v, by simp⟩
  | cons g groups ih =>
    obtain ⟨ds, hprimary, hds⟩ := ih
    obtain ⟨_, _, hinner⟩ := derives_sum_of_primary hprimary
    have hbelow := count_le_of_group hds
    cases g with
    | parens => exact ⟨_, .parens hinner, List.forall_mem_cons.2 ⟨Nat.zero_le _, hbelow⟩⟩
    | bars => exact ⟨_, .bars hinner, List.forall_mem_cons.2 ⟨Nat.zero_le _, hbelow⟩⟩
    | call f =>
      exact ⟨_, .call f hinner, List.forall_mem_cons.2 ⟨Nat.zero_le _, List.forall_mem_cons.2 ⟨Nat.zero_le _, hbelow⟩⟩⟩

/-- all opening tokens stand in front of the variable, and all closing ones behind it -/
theorem nested_eq (v : Variable) (groups : List Group) :
    nested v groups = groups.flatMap Group.opening ++ .ident v.name :: (groups.map Group.closing).reverse := by
  induction groups with
  | nil => rfl
  | cons g groups ih => simp [nested, ih]

theorem length_opening_lt (v : Variable) (groups : List Group) (n : Nat) :
    ((groups.take n).flatMap Group.opening).length < (nested v groups).length := by
  have hsplit : groups.flatMap Group.opening =
      (groups.take n).flatMap Group.opening ++ (groups.drop n).flatMap Group.opening := by
    rw [← List.flatMap_append, List.take_append_drop]
  rw [nested_eq, hsplit]
  simp only [List.length_append, List.length_cons]
  omega

/-! ## Too many groups -/

/-- a fault in a primary at the beginning of a sum is a fault of the sum -/
theorem sum_fault {inner : Reader Expr} {c c' : Cursor} {k : Kind} {rest : List Kind} {f : Fault}
    (hc : c.rest = k :: rest) (hk : k.isSign = false) (h : primary inner c = .fault f c')
    : sum inner c = .fault f c' := by
  have hnone : ∀ k ∈ ([] : List Kind), k.isSign = true := by simp
  have hsigns : signs c = .done none c := signs_run hnone hk hc
  simp only [sum, product, unary, power, chained, signed, hsigns, h, Outcome.bind_done, Outcome.bind_fault]

/-- at a group, what it holds is read behind its opening tokens -/
theorem primary_group (inner : Reader Expr) (g : Group) {c : Cursor} {rest : List Kind}
    (hc : c.rest = g.opening ++ rest) :
    primary inner c = (inner (c.past g.opening.length)).bind fun e c => closing g.closing (g.wrap e) c := by
  cases g with
  | parens => simp only [primary, Cursor.peek_cons hc, Cursor.advance_cons hc]; rfl
  | bars => simp only [primary, Cursor.peek_cons hc, Cursor.advance_cons hc]; rfl
  | call f =>
    have hparen : c.advance.rest = .leftParen :: rest := Cursor.advance_rest hc
    simp only [primary, identifier, Cursor.peek_cons hc, ofName?_func, Cursor.sees_cons hparen (by decide), if_true,
      Cursor.advance_cons hparen]
    rw [Cursor.advance_cons hc, Cursor.past_past]
    rfl

/-- with no more levels than groups, the levels are used up behind the opening tokens of so many groups -/
theorem expression_tooDeep (v : Variable) (levels : Nat) : ∀ (groups : List Group) (c : Cursor) (rest : List Kind),
    levels ≤ groups.length → c.rest = nested v groups ++ rest →
      ∃ c', expression levels c =
        .fault ⟨.tooDeep, c.passed + ((groups.take levels).flatMap Group.opening).length⟩ c' := by
  induction levels with
  | zero =>
    intro groups c rest _ hc
    have hne : c.rest ≠ [] := by
      obtain ⟨ds, hd, _⟩ := nested_derives v groups
      simp [hc, derives_ne_nil hd]
    exact ⟨c.enter, by simp [expression, Cursor.index, hne]⟩
  | succ levels ih =>
    intro groups c rest hle hc
    cases groups with
    | nil => simp at hle
    | cons g groups =>
      have hopen : c.enter.rest = g.opening ++ (nested v groups ++ (g.closing :: rest)) := by
        rw [Cursor.enter, hc]
        simp [nested]
      obtain ⟨c', hfault⟩ := ih groups (c.enter.past g.opening.length) _ (by simpa using hle) (Cursor.past_rest hopen)
      obtain ⟨k, more, hk, hsign⟩ : ∃ k more, g.opening = k :: more ∧ k.isSign = false := by
        cases g <;> exact ⟨_, _, rfl, rfl⟩
      have hprimary := primary_group (expression levels) g hopen
      rw [hfault, Outcome.bind_fault] at hprimary
      rw [hk, List.cons_append] at hopen
      refine ⟨c'.leave, ?_⟩
      simp only [expression, sum_fault hopen hsign hprimary, Outcome.leave_fault]
      simp [Cursor.past, Cursor.enter, Nat.add_assoc]

end Grammar

namespace Parser

open Grammar

theorem tokens_ofTokens {tokens : List Token} {ks : List Kind} (hks : tokens.map Token.kind = ks) (hne : ks ≠ []) :
    (ofTokens tokens).tokens = tokens := by
  have hne' : tokens ≠ [] := by
    rintro rfl
    exact hne hks.symm
  simp [ofTokens, hne']

/-- the place of a fresh parser on a stream of kinds -/
theorem cursor_fresh {tokens : List Token} {ks : List Kind} (hks : tokens.map Token.kind = ks) (hne : ks ≠ []) :
    (ofTokens tokens).cursor = ⟨0, ks, ks.getLast hne, 0⟩ := by
  have hlast : (ks.getLast?).getD .endOfInput = ks.getLast hne := by rw [List.getLast?_eq_some_getLast hne]; rfl
  rw [cursor, tokens_ofTokens hks hne, ← List.getLast?_map, hks, hlast]
  simp [ofTokens, hks]

/-- a stream within the limit, with or without an end marker behind it, is not too long -/
theorem excess?_eq_none {tokens : List Token} {ks tail : List Kind} (hks : tokens.map Token.kind = ks ++ tail)
    (htail : tail = [] ∨ tail = [.endOfInput]) (hne : ks ≠ []) (hlength : ks.length ≤ maxTokens) :
    (ofTokens tokens).excess? = none := by
  rw [excess?, tokens_ofTokens hks (by simp [hne]), Option.filter_eq_none_iff]
  intro t ht
  have hkind : (ks ++ tail)[maxTokens]? = some t.kind := by rw [← hks, List.getElem?_map, ht]; rfl
  rw [List.getElem?_append_right hlength] at hkind
  have hmem := List.mem_of_getElem? hkind
  rcases htail with rfl | rfl
  · cases hmem
  · simpa using hmem

theorem parse_of_fault {p : Parser} {f : Fault} {c : Cursor} (hexcess : p.excess? = none)
    (h : expression (maxDepth - p.depth) p.cursor = .fault f c) : p.parse.1 = .error (p.locate f) := by
  rw [parse, hexcess]
  simp only [h]

/-- **How deep groups may be nested.** Groups of any kinds around a variable, with or without an end marker behind them
and within the limit on tokens, are accepted with their tree as long as they are fewer than `maxDepth`. From `maxDepth`
groups on they are refused as nested too deeply, at the first token behind so many opening delimiters. -/
theorem nested_parse (v : Variable) (groups : List Group) (tokens : List Token) (tail : List Kind)
    (htail : tail = [] ∨ tail = [.endOfInput]) (htokens : tokens.map Token.kind = nested v groups ++ tail)
    (hlength : (nested v groups).length ≤ maxTokens) :
    (groups.length < maxDepth → (ofTokens tokens).parse.1 = .ok (nestedTree v groups)) ∧
    (maxDepth ≤ groups.length →
      ∃ r t, (ofTokens tokens).parse.1 = .error r ∧
        tokens[((groups.take maxDepth).flatMap Group.opening).length]? = some t ∧
        r.report = ⟨.syntactic, "expression nested too deeply", t.position⟩) := by
  obtain ⟨ds, hd, hds⟩ := nested_derives v groups
  have hne := derives_ne_nil hd
  have hexcess := excess?_eq_none htokens htail hne hlength
  have hcursor := cursor_fresh htokens (by simp [hne])
  constructor
  · intro hfew
    have hready : (ofTokens tokens).cursor.Ready := by
      rw [hcursor]
      refine ⟨fun k hk => ?_, fun hnil => by simp [hne] at hnil⟩
      rw [List.getLast?_eq_some_getLast (by simp [hne])] at hk
      exact (Option.some.inj hk).symm
    obtain ⟨_, _, hsum⟩ := derives_sum_of_primary hd
    refine parse_ok_iff.2 ⟨hexcess, (accepts_iff hready (by rw [hcursor]) (derives_no_end hd) ?_).2 ⟨ds, hsum, ?_⟩⟩
    · exact htail.imp_right fun h => ⟨[], h⟩
    · exact fun d hm => lt_of_le_of_lt (hds d hm) hfew
  · intro hmany
    obtain ⟨c', hfault⟩ := expression_tooDeep v maxDepth groups (ofTokens tokens).cursor tail hmany (by rw [hcursor])
    rw [hcursor, Nat.zero_add] at hfault
    set i := ((groups.take maxDepth).flatMap Group.opening).length with hi
    have hlt : i < tokens.length := by
      have hall := congrArg List.length htokens
      have hopening := length_opening_lt v groups maxDepth
      rw [List.length_map, List.length_append] at hall
      omega
    refine ⟨_, tokens[i], parse_of_fault hexcess (by rw [hcursor]; exact hfault), List.getElem?_eq_getElem hlt, ?_⟩
    rw [locate, tokens_ofTokens htokens (by simp [hne]), List.getElem?_eq_getElem hlt]
    rfl

/-- tokens of these kinds, each at the offset of its index -/
def numbered (ks : List Kind) : List Token :=
  ks.zipIdx.map fun x => ⟨x.1, "", x.2⟩

theorem kinds_numbered (ks : List Kind) : (numbered ks).map Token.kind = ks := by
  rw [numbered, List.map_map]
  exact List.zipIdx_map_fst 0 ks

/-- 127 groups of all kinds in turn -/
def mixedGroups : List Group :=
  (List.replicate 42 [.parens, .bars, .call .sin]).flatten ++ [.parens]

/-- 127 groups of all kinds are accepted, with an end marker behind them; one pair of bars around them is too much -/
theorem nested_parse_mixed :
    (ofTokens (numbered (nested .z mixedGroups ++ [.endOfInput]))).parse.1 = .ok (nestedTree .z mixedGroups) ∧
    ∃ r, (ofTokens (numbered (nested .z (.bars :: mixedGroups)))).parse.1 = .error r ∧
      r.report.message = "expression nested too deeply" := by
  have haccepted := nested_parse .z mixedGroups _ [.endOfInput] (.inr rfl) (kinds_numbered _) (by decide +kernel)
  have hrefused := nested_parse .z (.bars :: mixedGroups) _ [] (.inl rfl) (by rw [kinds_numbered, List.append_nil])
    (by decide +kernel)
  refine ⟨haccepted.1 (by decide +kernel), ?_⟩
  obtain ⟨r, t, hr, _, hreport⟩ := hrefused.2 (by decide +kernel)
  exact ⟨r, hr, by rw [hreport]⟩

end Parser

/-- 128 pairs of parentheses around z -/
def deepText : List Char :=
  List.replicate 128 '(' ++ 'z' :: List.replicate 128 ')'

/-- as many groups as there are levels are one too many, as the outermost sum takes a level too -/
theorem parse_deepText :
    (tokenize (String.ofList deepText)).map (·.map Token.kind) =
      .ok (Grammar.nested .z (List.replicate Parser.maxDepth .parens) ++ [.endOfInput]) ∧
    parse (String.ofList deepText) = .error ⟨.tooDeep, 128⟩ := by
  rw [parse, tokenize, Lexer.tokenize, Lexer.ofSource, String.toList_ofList]
  decide +kernel

end EscapeTime
