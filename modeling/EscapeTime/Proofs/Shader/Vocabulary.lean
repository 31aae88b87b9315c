/-
What emitted code is made of, whatever text it was compiled from.

Nothing of a text reaches the code but numbers, and a number of an equation is finite and has no sign
(`numbers_of_parse`): the lexer rejects numerals that are too large, and numerals are written without sign. So under the
default names the code is lower-case words, numerals and punctuation:

- `all_text`: the characters of a computation with finite numbers.
- `speaks_text`: its words are the names of variables, of the vector type and of `abs`, and the names of helpers it
  calls.
- `compile_vocabulary`: the same for the code of any text, the code of z^2 + c in place of a rejected one included.
-/
import EscapeTime.Proofs.Compiler.Shown
import EscapeTime.Proofs.Shader.Calls
import EscapeTime.Proofs.Shader.Readability
import EscapeTime.Settings.Basic

namespace EscapeTime

open Text

/-! ## Numbers of an equation -/

theorem number_of_lexeme {c : Char} {rest tail : List Char} {x : Binary64}
    (h : lexeme c rest = .token (.number x) tail) :
    x.isFinite = true ∧ x.isNegative = false := by
  unfold lexeme at h
  cases hsym : Kind.ofSymbol? c with
  | some k =>
    rw [hsym] at h
    cases h
    exact absurd (mem_symbols hsym) (by simp [symbols])
  | none =>
    rw [hsym] at h
    simp only at h
    split_ifs at h with _ hfin
    · cases h
      exact ⟨hfin, Decimal.isNegative_toBinary64 _⟩
    · cases h

theorem spells_numbers {cs : List Char} {ks : List Kind} (h : Spells cs ks) :
    ∀ x, Kind.number x ∈ ks → x.isFinite = true ∧ x.isNegative = false := by
  induction h with
  | nil => simp
  | blank _ _ ih => exact ih
  | token _ hlex _ ih =>
    intro x hx
    rcases List.mem_cons.1 hx with rfl | hx
    · exact number_of_lexeme hlex
    · exact ih x hx

/-- the numbers of a tree are among the kinds it is derived from -/
theorem Grammar.derives_numbers {p : Phrase} {ks : List Kind} {ds : List Nat} {e : Expr} (h : Derives p ks ds e) :
    ∀ x ∈ e.numbers, Kind.number x ∈ ks := by
  induction h with
  | sumFirst _ ih | productFirst _ ih | unaryPlain _ ih | powerFirst _ ih | exponentPlain _ ih => exact ih
  | sumNext op _ _ _ ihl ihr | productNext op _ _ _ ihl ihr =>
    intro x hx
    simp only [Expr.numbers, List.mem_append] at hx
    simp only [List.mem_append, List.mem_cons]
    exact hx.imp (ihl x) fun hx => .inr (ihr x hx)
  | powerNext _ _ ihl ihr =>
    intro x hx
    simp only [Expr.numbers, List.mem_append] at hx
    simp only [List.mem_append, List.mem_cons]
    exact hx.imp (ihl x) fun hx => .inr (ihr x hx)
  | unarySigned run _ _ _ ih | exponentSigned run _ _ _ ih =>
    exact fun x hx => List.mem_append_right run (ih x hx)
  | number x => simp [Expr.numbers]
  | var v => simp [Expr.numbers]
  | call f _ ih | parens _ ih | bars _ ih =>
    intro x hx
    simp [ih x hx]

/-- the numbers of an equation are finite and without sign -/
theorem numbers_of_parse {s : String} {e : Expr} (h : parse s = .ok e) :
    ∀ x ∈ e.numbers, x.isFinite = true ∧ x.isNegative = false := by
  obtain ⟨ks, ds, hspells, _, hd, _⟩ := (parse_ok_iff_spells s e).1 h
  exact fun x hx => spells_numbers hspells x (Grammar.derives_numbers hd x hx)

theorem Compiler.numbers_complete (k : Compiler) (e : Expr) : (k.complete e).numbers = e.numbers := by
  unfold complete
  split_ifs <;> simp [Expr.numbers]

theorem Compiler.numbers_shown (k : Compiler) (source : String) :
    ∀ x ∈ (k.shown source).numbers, x.isFinite = true := by
  cases h : parse source with
  | ok e =>
    simp only [shown, h, numbers_complete]
    exact fun x hx => (numbers_of_parse h x hx).1
  | error r =>
    simp only [shown, h]
    decide

namespace Computation

/-! ## Characters -/

/-- the characters of emitted code -/
def isCodeChar (c : Char) : Bool :=
  c.isLower || c.isDigit || [' ', '(', ')', ',', '.', '+', '-', '*'].contains c

theorem all_word (a : Computation) : a.word.toList.all isCodeChar = true := by
  cases a with
  | var v => cases v <;> decide
  | apply f _ =>
    simp only [word]
    cases f <;> decide
  | _ =>
    simp only [word]
    decide

theorem all_literal {x : Binary64} (hfin : x.isFinite = true) : x.literal.toList.all isCodeChar = true := by
  refine List.all_eq_true.2 fun c hc => ?_
  rcases Binary64.literal_chars hfin c hc with rfl | rfl | hdigit
  · rfl
  · rfl
  · simp [isCodeChar, hdigit]

/-- the text of a computation with finite numbers holds characters of code only -/
theorem all_text (a : Computation) (hfin : ∀ x ∈ a.numbers, x.isFinite = true) : a.text.all isCodeChar = true := by
  have hmarks : ([' ', '(', ')', ',', '.', '+', '-', '*'] : List Char).all isCodeChar = true := by decide
  have hzero : " 0.0)".toList.all isCodeChar = true := by decide
  have hmirror : " vec2(1.0, -1.0))".toList.all isCodeChar = true := by decide
  simp only [List.all_cons, Bool.and_eq_true] at hmarks
  induction a with
  | var v => cases v <;> decide
  | number x =>
    rw [text_eq, List.all_append, all_word]
    simp only [body, List.all_cons, List.all_append, all_literal (hfin x (by simp [numbers])), hmarks, hzero,
      Bool.and_self]
  | neg a ih | abs a ih | conj a ih | apply f a ih =>
    rw [text_eq, List.all_append, all_word]
    simp only [body, List.all_cons, List.all_append, ih hfin, hmarks, hmirror, Bool.and_self]
  | add a b iha ihb | sub a b iha ihb | mul a b iha ihb | div a b iha ihb | pow a b iha ihb =>
    obtain ⟨ha, hb⟩ := List.forall_mem_append.1 hfin
    rw [text_eq, List.all_append, all_word]
    simp only [body, List.all_cons, List.all_append, iha ha, ihb hb, hmarks, Bool.and_self]

/-! ## Words -/

/-- the words of code that calls these helpers -/
def vocabulary (hs : List Helper) : List String :=
  ["z", "c", "power", "vec2", "abs"] ++ hs.map Helper.name

/-- every word of the text that cannot be made longer is in the vocabulary -/
def Speaks (hs : List Helper) (text : List Char) : Prop :=
  ∀ w, MaximalWord text w → String.ofList w ∈ vocabulary hs

variable {hs : List Helper}

theorem speaks_separator {s t : List Char} {c : Char} (hc : c.isAlphanum = false) (hleft : Speaks hs s)
    (hright : Speaks hs t) : Speaks hs (s ++ c :: t) :=
  fun w hw => (maximalWord_separator hc hw).elim (hleft w) (hright w)

theorem speaks_letterless {text : List Char} (h : ∀ c ∈ text, c.isAlpha = false) : Speaks hs text :=
  fun _ hw => absurd hw (not_maximalWord h)

theorem speaks_nil : Speaks hs [] :=
  speaks_letterless (by simp)

theorem speaks_cons {c : Char} {text : List Char} (hc : c.isAlphanum = false) (h : Speaks hs text) :
    Speaks hs (c :: text) :=
  speaks_separator hc speaks_nil h

theorem vocabulary_subset (hs : List Helper) : vocabulary hs ⊆ vocabulary Helper.all := by
  refine List.append_subset.2 ⟨List.subset_append_left _ _, ?_⟩
  exact List.subset_append_of_subset_right _ (List.map_subset _ fun h _ => h.mem_all)

theorem isWord_of_mem {w : String} (h : w ∈ vocabulary hs) : isWord w.toList = true :=
  (by decide : ∀ w ∈ vocabulary Helper.all, isWord w.toList = true) w (vocabulary_subset hs h)

theorem speaks_of_mem {w : String} (h : w ∈ vocabulary hs) : Speaks hs w.toList := by
  intro w' hw'
  rw [eq_of_maximalWord (isWord_of_mem h) hw', String.ofList_toList]
  exact h

theorem speaks_literal {x : Binary64} (hfin : x.isFinite = true) : Speaks hs x.literal.toList := by
  refine speaks_letterless fun c hc => ?_
  rcases Binary64.literal_chars hfin c hc with rfl | rfl | hdigit
  · rfl
  · rfl
  · by_contra hletter
    have hd := isDigit_toNat hdigit
    have ha := isAlpha_toNat (by simpa using hletter)
    omega

/-- the first word is that of a variable, of a vector, or of a helper that is called -/
theorem speaks_word (a : Computation) (hcalls : ∀ h, a.calls h = true → h ∈ hs) : Speaks hs a.word.toList := by
  have hhelper : ∀ h, a.calls h = true → Speaks hs h.name.toList :=
    fun h hh => speaks_of_mem (List.mem_append_right _ (List.mem_map_of_mem (hcalls h hh)))
  cases a with
  | var v => cases v <;> exact speaks_of_mem (by simp [word, vocabulary])
  | number x => exact speaks_of_mem (by simp [word, vocabulary])
  | abs a => exact speaks_of_mem (by simp [word, vocabulary])
  | neg a | conj a | add a b | sub a b => exact speaks_nil
  | mul a b => exact hhelper .cmul (by simp [calls])
  | div a b => exact hhelper .cdiv (by simp [calls])
  | pow a b => exact hhelper .cpow (by simp [calls])
  | apply f a => exact hhelper f.helper (by simp [calls])

/-- behind its first word, the text of an operator goes on with a parenthesis -/
theorem speaks_operator {a : Computation} {rest : List Char} (hcalls : ∀ h, a.calls h = true → h ∈ hs)
    (hbody : a.body = '(' :: rest) (hrest : Speaks hs rest) : Speaks hs a.text := by
  rw [text_eq, hbody]
  exact speaks_separator rfl (speaks_word a hcalls) hrest

/-- an operand in front of the last parenthesis -/
theorem speaks_closed {s : List Char} (h : Speaks hs s) : Speaks hs (s ++ [')']) :=
  speaks_separator rfl h speaks_nil

/-- the words of a computation with finite numbers are those of the variables, of vectors and of the helpers it calls -/
theorem speaks_text (a : Computation) (hfin : ∀ x ∈ a.numbers, x.isFinite = true)
    (hcalls : ∀ h, a.calls h = true → h ∈ hs) : Speaks hs a.text := by
  have hzero : Speaks hs " 0.0)".toList := speaks_letterless (List.forall_iff_forall_mem.1 (by decide))
  induction a with
  | var v =>
    cases v with
    | z | c =>
      rw [text_eq]
      simpa [body] using speaks_word _ hcalls
    | n =>
      have hpower : Speaks hs "power".toList := speaks_of_mem (by simp [vocabulary])
      exact speaks_operator hcalls rfl (speaks_separator rfl hpower hzero)
  | number x =>
    have hx : Speaks hs x.literal.toList := speaks_literal (hfin x (by simp [numbers]))
    exact speaks_operator hcalls rfl (speaks_separator rfl hx hzero)
  | neg a ih => exact speaks_operator hcalls rfl (speaks_cons rfl (speaks_closed (ih hfin hcalls)))
  | conj a ih =>
    have hvec : Speaks hs "vec2".toList := speaks_of_mem (by simp [vocabulary])
    have hmirror : Speaks hs " vec2(1.0, -1.0))".toList :=
      speaks_cons rfl (speaks_separator rfl hvec (speaks_letterless (List.forall_iff_forall_mem.1 (by decide))))
    exact speaks_operator hcalls rfl (speaks_separator rfl (ih hfin hcalls) (speaks_cons rfl hmirror))
  | abs a ih => exact speaks_operator hcalls rfl (speaks_closed (ih hfin hcalls))
  | apply f a ih =>
    have ha : Speaks hs a.text := ih hfin fun h hh => hcalls h (by simp [calls, hh])
    exact speaks_operator hcalls rfl (speaks_closed ha)
  | add a b iha ihb | sub a b iha ihb =>
    obtain ⟨hafin, hbfin⟩ := List.forall_mem_append.1 hfin
    have ha : Speaks hs a.text := iha hafin fun h hh => hcalls h (by simp [calls, hh])
    have hb : Speaks hs b.text := ihb hbfin fun h hh => hcalls h (by simp [calls, hh])
    -- blanks around the sign
    exact speaks_operator hcalls rfl (speaks_separator rfl ha (speaks_cons rfl (speaks_cons rfl (speaks_closed hb))))
  | mul a b iha ihb | div a b iha ihb | pow a b iha ihb =>
    obtain ⟨hafin, hbfin⟩ := List.forall_mem_append.1 hfin
    have ha : Speaks hs a.text := iha hafin fun h hh => hcalls h (by simp [calls, hh])
    have hb : Speaks hs b.text := ihb hbfin fun h hh => hcalls h (by simp [calls, hh])
    exact speaks_operator hcalls rfl (speaks_separator rfl ha (speaks_cons rfl (speaks_closed hb)))

/-- neither infinity nor an undefined number stands in a text of known words -/
theorem not_infix_of_speaks {text : List Char} (h : Speaks hs text) : ∀ w ∈ ["inf", "NaN"], ¬ w.toList <:+: text := by
  intro w hw hin
  have hword : isWord w.toList = true := (by decide : ∀ w ∈ ["inf", "NaN"], isWord w.toList = true) w hw
  obtain ⟨long, hmax, hinner⟩ := exists_maximalWord hword hin
  -- the word would lie inside an entry of the vocabulary
  have hnone : ∀ entry ∈ vocabulary Helper.all, ∀ w ∈ ["inf", "NaN"], ¬ w.toList <:+: entry.toList := by decide
  exact hnone _ (vocabulary_subset hs (h long hmax)) w hw (by rwa [String.toList_ofList])

end Computation

/-- **Nothing of a text reaches the code but numbers.** Under the default names, the code shown for any text whatever
holds lower-case letters, digits and eight marks only; its words are names of variables, the vector type, `abs`, and
names of helpers that are reported with it; and no number in it is infinite or undefined, since the numbers of an
equation are finite and have no sign. -/
theorem compile_vocabulary (settings : Settings) (hnames : settings.bindings = {}) (source : String) :
    (∀ c ∈ (settings.compiler.compile source).code.toList,
      c.isLower = true ∨ c.isDigit = true ∨ c ∈ [' ', '(', ')', ',', '.', '+', '-', '*']) ∧
    (∀ w : String, MaximalWord (settings.compiler.compile source).code.toList w.toList →
      w ∈ ["z", "c", "power", "vec2", "abs"] ∨ ∃ h ∈ (settings.compiler.compile source).helpers, w = h.name) ∧
    ¬ "inf".toList <:+: (settings.compiler.compile source).code.toList ∧
    ¬ "NaN".toList <:+: (settings.compiler.compile source).code.toList ∧
    ∀ e, parse source = .ok e → ∀ x ∈ e.numbers, x.isFinite = true ∧ x.isNegative = false := by
  let a := Computation.ofExpr settings.expandSmallPowers (settings.compiler.shown source)
  have hcode : (settings.compiler.compile source).code.toList = a.text := by
    simp only [Compiler.compile_eq, Emitter.emit, Settings.compiler, hnames]
    rfl
  have hhelpers : (settings.compiler.compile source).helpers = a.helpers := by
    rw [Compiler.compile_eq]
    rfl
  have hfin : ∀ x ∈ a.numbers, x.isFinite = true :=
    fun x hx => settings.compiler.numbers_shown source x (Computation.mem_numbers_ofExpr hx)
  have hspeaks : Computation.Speaks a.helpers a.text :=
    a.speaks_text hfin fun h hh => (Computation.mem_helpers_iff h a).2 hh
  rw [hcode, hhelpers]
  refine ⟨fun c hc => ?_, fun w hw => ?_, Computation.not_infix_of_speaks hspeaks "inf" (by simp),
    Computation.not_infix_of_speaks hspeaks "NaN" (by simp), fun e he => numbers_of_parse he⟩
  · have hallowed := List.all_eq_true.1 (a.all_text hfin) c hc
    simpa only [Computation.isCodeChar, Bool.or_eq_true, List.contains_iff_mem, or_assoc] using hallowed
  · have hknown := hspeaks w.toList hw
    rw [String.ofList_toList] at hknown
    refine (List.mem_append.1 hknown).imp_right fun hname => ?_
    obtain ⟨h, hh, rfl⟩ := List.mem_map.1 hname
    exact ⟨h, hh, rfl⟩

/-- the code of z^2 + c holds the word `cmul`, the name of a helper reported with it -/
theorem compile_vocabulary_square :
    ({} : Settings).bindings = {} ∧ (({} : Settings).compiler.compile "z^2 + c").code = "(cmul(z, z) + c)" ∧
    MaximalWord "(cmul(z, z) + c)".toList "cmul".toList ∧
    ∃ h ∈ (({} : Settings).compiler.compile "z^2 + c").helpers, "cmul" = h.name := by
  have hcode : (({} : Settings).compiler.compile "z^2 + c").code = "(cmul(z, z) + c)" := by
    simp only [Compiler.compile_eq, Compiler.shown, parse_defaultText, Compiler.complete_mandelbrot]
    decide
  have hmax : ∀ u ∈ ['('].tails, ∀ v ∈ "(z, z) + c)".toList.inits,
      isWord (u ++ "cmul".toList ++ v) = true → u = [] ∧ v = [] := by
    decide
  have hword : MaximalWord "(cmul(z, z) + c)".toList "cmul".toList := by
    refine ⟨rfl, ['('], "(z, z) + c)".toList, rfl, fun u v hu hv => ?_⟩
    exact hmax u ((List.mem_tails _ _).2 hu) v ((List.mem_inits _ _).2 hv)
  have hnamed := (compile_vocabulary {} rfl "z^2 + c").2.1 "cmul" (by rwa [hcode])
  exact ⟨rfl, hcode, hword, hnamed.resolve_left (by decide)⟩

end EscapeTime
