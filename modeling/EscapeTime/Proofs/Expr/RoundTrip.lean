/-
Parsing undoes rendering.

`spelled` is the list of kinds that the text of a tree is made of. The proof goes through it in two halves that know
nothing of each other:

- `spells_render`: the text of a tree spells these kinds, in front of any text that does not run on from it.
- `derives_spelled`: these kinds are a primary, with the tree they came from; every node that is no leaf opens one
  group, so no kind lies deeper than the longest path of such nodes.
- `parse_render`: a tree without negative or infinite numbers is read back from its text, bit by bit, as long as the
  text and the paths keep to the parser's limits.
-/
import EscapeTime.Proofs.Token.Spelling

namespace EscapeTime

open Grammar

/-- the token of a sign -/
def Sign.kind : Sign → Kind
  | pos => .plus
  | neg => .minus

namespace Expr

/-- the most nodes other than leaves on a path from the root to a leaf -/
def nesting : Expr → Nat
  | var _ => 0
  | number _ => 0
  | unary _ operand => operand.nesting + 1
  | binary _ left right => max left.nesting right.nesting + 1
  | call _ argument => argument.nesting + 1
  | modulus operand => operand.nesting + 1

/-- the kinds in the text of a tree -/
def spelled : Expr → List Kind
  | var v => [.ident v.name]
  | number value => [.number value]
  | unary sign operand => .leftParen :: (sign.kind :: operand.spelled) ++ [.rightParen]
  | binary op left right => .leftParen :: (left.spelled ++ operatorKind op :: right.spelled) ++ [.rightParen]
  | call f argument => .ident f.name :: .leftParen :: argument.spelled ++ [.rightParen]
  | modulus operand => .pipe :: operand.spelled ++ [.pipe]

end Expr

/-! ## The text of a tree spells its kinds -/

theorem spells_sign (sign : Sign) {rest : List Char} {ks : List Kind} (hrest : Spells rest ks) :
    Spells (sign.symbol.toList ++ rest) (sign.kind :: ks) := by
  cases sign <;> exact spells_symbol rfl hrest

theorem spells_operator (op : BinaryOp) {rest : List Char} {ks : List Kind} (hrest : Spells rest ks) :
    Spells (op.symbol.toList ++ rest) (operatorKind op :: ks) := by
  cases op <;> exact spells_symbol rfl hrest

theorem isName_variable (v : Variable) : isName v.name = true := by
  cases v <;> decide

theorem isName_func (f : Func) : isName f.name = true := by
  cases f <;> decide

/-- the text of a tree spells the kinds of the tree, in front of a text that does not run on from it -/
theorem spells_render (e : Expr) (hnum : ∀ x ∈ e.numbers, x.isFinite = true ∧ x.isNegative = false) :
    ∀ {rest ks}, Separated rest → Spells rest ks → Spells (e.render.toList ++ rest) (e.spelled ++ ks) := by
  induction e with
  | var v =>
    intro rest ks hsep hrest
    exact spells_name (isName_variable v) hsep hrest
  | number x =>
    intro rest ks hsep hrest
    obtain ⟨hfin, hpos⟩ := hnum x (by simp [Expr.numbers])
    obtain ⟨htext, hvalue⟩ := Binary64.ofNumeral_display hfin hpos
    exact spells_numeral htext hvalue hfin hsep hrest
  | unary sign e ih =>
    intro rest ks _ hrest
    have hclose : Spells (')' :: rest) (.rightParen :: ks) := spells_symbol rfl hrest
    have hsign := spells_sign sign (ih hnum (separated_of_ofSymbol? rfl rest) hclose)
    have hopen := spells_symbol (c := '(') rfl hsign
    simpa [Expr.render, Expr.spelled] using hopen
  | binary op l r ihl ihr =>
    intro rest ks _ hrest
    obtain ⟨hl, hr⟩ := List.forall_mem_append.1 hnum
    have hclose : Spells (')' :: rest) (.rightParen :: ks) := spells_symbol rfl hrest
    have hright := Spells.blank (c := ' ') rfl (ihr hr (separated_of_ofSymbol? rfl rest) hclose)
    have hop := Spells.blank (c := ' ') rfl (spells_operator op hright)
    have hopen := spells_symbol (c := '(') rfl (ihl hl (separated_blank _) hop)
    simpa [Expr.render, Expr.spelled] using hopen
  | call f e ih =>
    intro rest ks _ hrest
    have hclose : Spells (')' :: rest) (.rightParen :: ks) := spells_symbol rfl hrest
    have hopen := spells_symbol (c := '(') rfl (ih hnum (separated_of_ofSymbol? rfl rest) hclose)
    have hname := spells_name (isName_func f) (separated_of_ofSymbol? rfl _) hopen
    simpa [Expr.render, Expr.spelled] using hname
  | modulus e ih =>
    intro rest ks _ hrest
    have hclose : Spells ('|' :: rest) (.pipe :: ks) := spells_symbol rfl hrest
    have hopen := spells_symbol (c := '|') rfl (ih hnum (separated_of_ofSymbol? rfl rest) hclose)
    simpa [Expr.render, Expr.spelled] using hopen

/-! ## The kinds of a tree derive it -/

/-- operands that are primaries make a sum, whatever the operator -/
theorem derives_binary (op : BinaryOp) {ks ks' : List Kind} {ds ds' : List Nat} {l r : Expr}
    (hl : Derives .primary ks ds l) (hr : Derives .primary ks' ds' r) :
    Derives .sum (ks ++ operatorKind op :: ks') (ds ++ 0 :: ds') (.binary op l r) := by
  obtain ⟨_, hproduct, hsum⟩ := derives_sum_of_primary hl
  obtain ⟨hunary', hproduct', _⟩ := derives_sum_of_primary hr
  cases op with
  | add => exact .sumNext .add (.inl rfl) hsum hproduct'
  | sub => exact .sumNext .sub (.inr rfl) hsum hproduct'
  | mul => exact .sumFirst (.productNext .mul (.inl rfl) hproduct hunary')
  | div => exact .sumFirst (.productNext .div (.inr rfl) hproduct hunary')
  | pow => exact .sumFirst (.productFirst (.unaryPlain (.powerNext (.powerFirst hl) (.exponentPlain hr))))

theorem derives_sign (sign : Sign) {ks : List Kind} {ds : List Nat} {e : Expr} (h : Derives .primary ks ds e) :
    Derives .sum (sign.kind :: ks) (0 :: ds) (.unary sign e) := by
  cases sign with
  | pos => exact .sumFirst (.productFirst (.unarySigned [.plus] (by simp) (by simp) (.powerFirst h)))
  | neg => exact .sumFirst (.productFirst (.unarySigned [.minus] (by simp) (by simp) (.powerFirst h)))

/-- the kinds of a tree are a primary with this tree, and no kind lies deeper than its paths -/
theorem derives_spelled (e : Expr) : ∃ ds, Derives .primary e.spelled ds e ∧ ∀ d ∈ ds, d ≤ e.nesting := by
  induction e with
  | var v => exact ⟨[0], .var v, by simp⟩
  | number x => exact ⟨[0], .number x, by simp⟩
  | unary sign e ih =>
    obtain ⟨ds, hd, hds⟩ := ih
    refine ⟨_, .parens (derives_sign sign hd), ?_⟩
    have hinner : ∀ d ∈ 0 :: ds, d ≤ e.nesting := by simpa using hds
    simpa [Expr.nesting] using count_le_of_group hinner
  | binary op l r ihl ihr =>
    obtain ⟨ds, hd, hds⟩ := ihl
    obtain ⟨ds', hd', hds'⟩ := ihr
    refine ⟨_, .parens (derives_binary op hd hd'), ?_⟩
    have hinner : ∀ d ∈ ds ++ 0 :: ds', d ≤ max l.nesting r.nesting := by
      simp only [List.forall_mem_append, List.forall_mem_cons]
      exact ⟨fun d h => le_max_of_le_left (hds d h), Nat.zero_le _, fun d h => le_max_of_le_right (hds' d h)⟩
    exact List.forall_mem_cons.2 ⟨Nat.zero_le _, count_le_of_group hinner⟩
  | call f e ih =>
    obtain ⟨ds, hd, hds⟩ := ih
    exact ⟨_, .call f (derives_sum_of_primary hd).2.2,
      List.forall_mem_cons.2 ⟨Nat.zero_le _, List.forall_mem_cons.2 ⟨Nat.zero_le _, count_le_of_group hds⟩⟩⟩
  | modulus e ih =>
    obtain ⟨ds, hd, hds⟩ := ih
    exact ⟨_, .bars (derives_sum_of_primary hd).2.2, List.forall_mem_cons.2 ⟨Nat.zero_le _, count_le_of_group hds⟩⟩

/-! ## The round trip -/

theorem spells_render_whole {e : Expr} (hnum : ∀ x ∈ e.numbers, x.isFinite = true ∧ x.isNegative = false) :
    Spells e.render.toList e.spelled := by
  have h := spells_render e hnum (by simp [Separated]) .nil
  rwa [List.append_nil, List.append_nil] at h

theorem tokenize_render {e : Expr} (hnum : ∀ x ∈ e.numbers, x.isFinite = true ∧ x.isNegative = false) :
    ∃ tokens eof, tokenize e.render = .ok (tokens ++ [eof]) ∧ eof.kind = .endOfInput ∧
      tokens.map Token.kind = e.spelled :=
  scan_of_spells (spells_render_whole hnum) 0

/-- **Parsing undoes rendering.** The text of a tree whose numbers are finite and without sign is a list of tokens. If
these are at most 512, and no path of the tree has more than 127 nodes in front of its leaf, the text is read back as
this tree. -/
theorem parse_render (e : Expr) (hnum : ∀ x ∈ e.numbers, x.isFinite = true ∧ x.isNegative = false) :
    ∃ tokens eof, tokenize e.render = .ok (tokens ++ [eof]) ∧ eof.kind = .endOfInput ∧
      (tokens.length ≤ 512 → e.nesting ≤ 127 → parse e.render = .ok e) := by
  obtain ⟨tokens, eof, htokens, heof, hkinds⟩ := tokenize_render hnum
  refine ⟨tokens, eof, htokens, heof, fun hlen hdepth => ?_⟩
  obtain ⟨ds, hd, hds⟩ := derives_spelled e
  have hlen' : e.spelled.length ≤ 512 := by rwa [← hkinds, List.length_map]
  exact (parse_ok_iff_spells _ _).2 ⟨e.spelled, ds, spells_render_whole hnum, hlen', (derives_sum_of_primary hd).2.2,
    fun d hm => (hds d hm).trans hdepth⟩

/-- the tree of `(||(-z)|| ^ (+(-2)))`: bars that stand next to each other, signs of signs, a signed exponent -/
def Expr.doubleBars : Expr :=
  .binary .pow (.modulus (.modulus (.unary .neg (.var .z)))) (.unary .pos (.unary .neg (.number .two)))

theorem parse_render_doubleBars :
    (∀ x ∈ Expr.doubleBars.numbers, x.isFinite = true ∧ x.isNegative = false) ∧
    (∃ tokens eof, tokenize Expr.doubleBars.render = .ok (tokens ++ [eof]) ∧ tokens.length = 18) ∧
    Expr.doubleBars.nesting = 4 ∧ parse Expr.doubleBars.render = .ok Expr.doubleBars := by
  have hnum : ∀ x ∈ Expr.doubleBars.numbers, x.isFinite = true ∧ x.isNegative = false := by decide
  obtain ⟨tokens, eof, htokens, _, hkinds⟩ := tokenize_render hnum
  have hlen : tokens.length = 18 := by
    rw [← List.length_map Token.kind, hkinds]
    rfl
  obtain ⟨tokens', eof', htokens', _, hparse⟩ := parse_render Expr.doubleBars hnum
  have hsame : tokens' = tokens := by
    rw [htokens, Except.ok.injEq] at htokens'
    exact (List.append_inj_left' htokens' rfl).symm
  exact ⟨hnum, ⟨tokens, eof, htokens, hlen⟩, rfl, hparse (by rw [hsame, hlen]; decide) (by decide)⟩

end EscapeTime
