/-
A shader fragment is closed.

A fragment is lines of text: those of the definitions, a blank one behind each, and those of the iteration, one of which
holds the code (`fragment_eq_block`). A pattern without blanks, line ends and semicolons lies inside one line, or inside
the code, so its occurrences in a fragment are those in the lines and in the code (`occurrences_fragment`). No line but
the first of each definition opens a helper (`lines_plain`):

- `occurrences_opening_fragment`: a helper opens as often in the fragment as in the code, and once more if it is
  defined.
- `fragment_closed`: what is called in the fragment of any text is defined there, and nothing else is; no marker is
  left.
-/
import EscapeTime.Proofs.Compiler.Shown
import EscapeTime.Proofs.Shader.Calls
import EscapeTime.Proofs.Shader.Splicing
import EscapeTime.Settings.Basic

namespace EscapeTime

open Text

/-! ## Patterns in lines -/

/-- the pattern lies on one side of every blank, line end and semicolon -/
structure Unbroken (p : List Char) : Prop where
  nonempty : p ≠ []
  noBreak : ∀ c ∈ [' ', '\n', ';'], c ∉ p

/-- the lines, each with a line end -/
def block (lines : List String) : String :=
  String.join (lines.map (· ++ "\n"))

theorem block_append (lines more : List String) : block (lines ++ more) = block lines ++ block more := by
  simp [block]

namespace Unbroken

variable {p : List Char}

theorem occurrences_break (hp : Unbroken p) {c : Char} (hc : c ∈ [' ', '\n', ';']) (a b : List Char) :
    occurrences p (a ++ c :: b) = occurrences p a + occurrences p b :=
  occurrences_separator hp.nonempty (hp.noBreak c hc)

theorem occurrences_skip (hp : Unbroken p) {c : Char} (hc : c ∈ [' ', '\n', ';']) (text : List Char) :
    occurrences p (c :: text) = occurrences p text :=
  Text.occurrences_skip hp.nonempty (hp.noBreak c hc) text

theorem occurrences_block (hp : Unbroken p) (lines : List String) (rest : List Char) :
    occurrences p ((block lines).toList ++ rest) =
      (lines.map fun line => occurrences p line.toList).sum + occurrences p rest := by
  induction lines with
  | nil => simp [block]
  | cons line lines ih =>
    have htext : (block (line :: lines)).toList ++ rest = line.toList ++ '\n' :: ((block lines).toList ++ rest) := by
      simp [block]
    rw [htext, hp.occurrences_break (by simp), ih, List.map_cons, List.sum_cons, Nat.add_assoc]

end Unbroken

theorem infix_block {line : String} {lines : List String} (h : line ∈ lines) :
    line.toList <:+: (block lines).toList := by
  obtain ⟨before, behind, rfl⟩ := List.append_of_mem h
  exact ⟨(block before).toList, ('\n' :: (block behind).toList), by simp [block]⟩

/-- what a fragment is searched for: a marker, and how the call of a helper begins -/
def patterns : List (List Char) :=
  Template.marker.toList :: Helper.all.map Helper.opening

theorem unbroken_of_mem {p : List Char} (h : p ∈ patterns) : Unbroken p := by
  have hcheck : ∀ p ∈ patterns, p ≠ [] ∧ [' ', '\n', ';'].Forall (· ∉ p) := by decide
  exact ⟨(hcheck p h).1, List.forall_iff_forall_mem.1 (hcheck p h).2⟩

theorem Helper.opening_mem_patterns (h : Helper) : h.opening ∈ patterns :=
  List.mem_cons_of_mem _ (List.mem_map_of_mem h.mem_all)

theorem Template.marker_mem_patterns : marker.toList ∈ patterns :=
  List.mem_cons_self

/-! ## The lines of a fragment -/

/-- the first line of a definition -/
def Helper.firstLine (g : Helper) : String :=
  g.signature ++ " \x7b"

/-- the other lines of a definition -/
def Helper.innerLines (g : Helper) : List String :=
  g.body.map ("    " ++ ·) ++ ["\x7d"]

/-- the definitions of helpers, a blank line behind each -/
def Helper.preludeLines (hs : List Helper) : List String :=
  hs.flatMap fun g => g.firstLine :: g.innerLines ++ [""]

/-- the iteration up to the line that holds the code -/
def Template.headLines : List String :=
  ["int escape_time(vec2 c, float power, int max_iterations) \x7b",
    "    vec2 z = vec2(0.0);",
    "    for (int i = 0; i < max_iterations; i++) \x7b"]

/-- the iteration behind that line -/
def Template.footLines : List String :=
  ["        if (dot(z, z) > 4.0) \x7b",
    "            return i;",
    "        \x7d",
    "    \x7d",
    "    return max_iterations;",
    "\x7d"]

/-- the iteration in front of the code -/
def Template.iterationHead : String :=
  block headLines ++ "        z = "

/-- the iteration behind the code -/
def Template.iterationFoot : String :=
  ";\n" ++ block footLines

theorem Helper.definition_eq_block (g : Helper) : g.definition = block (g.firstLine :: g.innerLines) := by
  have hlines : g.innerLines.map (· ++ "\n") = (g.body.map fun line => "    " ++ line ++ "\n") ++ ["\x7d\n"] := by
    simp [innerLines]
  rw [block, List.map_cons, hlines, String.join_cons, String.join_append]
  simp [definition, firstLine, String.append_assoc]

theorem Template.iteration_eq : iteration = iterationHead ++ marker ++ iterationFoot := by
  unfold iteration
  simp [iterationHead, iterationFoot, block, headLines, footLines, String.append_assoc]

/-- definitions joined by blank lines, with one more behind them -/
theorem Helper.prelude_eq_block (hs : List Helper) :
    (if hs = [] then "" else "\n".intercalate (hs.map definition) ++ "\n") = block (preludeLines hs) := by
  induction hs with
  | nil => rfl
  | cons g hs ih =>
    have hcons : block (preludeLines (g :: hs)) = g.definition ++ "\n" ++ block (preludeLines hs) := by
      have hblank : block [""] = "\n" := rfl
      rw [preludeLines, List.flatMap_cons, block_append, block_append, ← definition_eq_block, hblank]
      rfl
    rw [if_neg (List.cons_ne_nil g hs), hcons, ← ih]
    cases hs with
    | nil => simp
    | cons g' hs => simp [String.append_assoc]

/-! ## What the lines hold -/

theorem toList_of_eq {s : String} {l : List Char} (h : s = String.ofList l) : s.toList = l := by
  rw [h, String.toList_ofList]

/-- **No line but the first of each definition opens a helper or holds a marker**, the code apart. -/
theorem lines_plain :
    ∀ line ∈ Helper.all.flatMap Helper.body ++ "\x7d" :: "        z =" :: (Template.headLines ++ Template.footLines),
    ∀ p ∈ patterns, occurrences p line.toList = 0 := by
  repeat' first | exact List.forall_mem_nil _ | refine List.forall_mem_cons.2 ⟨?_, ?_⟩
  -- the characters of each line, found by unification: evaluating `toList` takes much longer
  all_goals
    rw [toList_of_eq rfl]
    decide +kernel

variable {p : List Char}

theorem sum_eq_zero_of_plain {lines : List String} (h : ∀ line ∈ lines, occurrences p line.toList = 0) :
    (lines.map fun line => occurrences p line.toList).sum = 0 := by
  refine List.sum_eq_zero fun n hn => ?_
  obtain ⟨line, hline, rfl⟩ := List.mem_map.1 hn
  exact h line hline

theorem Template.occurrences_iterationHead (hp : p ∈ patterns) (rest : List Char) :
    occurrences p (iterationHead.toList ++ rest) = occurrences p rest := by
  have hlines : ∀ line ∈ headLines, occurrences p line.toList = 0 :=
    fun line hline => lines_plain line (by simp [hline]) p hp
  have hassign : occurrences p "        z =".toList = 0 := lines_plain _ (by simp) p hp
  have htext : iterationHead.toList ++ rest =
      (block headLines).toList ++ ("        z =".toList ++ ' ' :: rest) := by
    simp [iterationHead]
  rw [htext, (unbroken_of_mem hp).occurrences_block, sum_eq_zero_of_plain hlines,
    (unbroken_of_mem hp).occurrences_break (by simp), hassign, Nat.zero_add, Nat.zero_add]

theorem Template.occurrences_iterationFoot (hp : p ∈ patterns) (code : List Char) :
    occurrences p (code ++ iterationFoot.toList) = occurrences p code := by
  have hlines : ∀ line ∈ "" :: footLines, occurrences p line.toList = 0 := by
    refine List.forall_mem_cons.2 ⟨occurrences_nil (unbroken_of_mem hp).nonempty, ?_⟩
    exact fun line hline => lines_plain line (by simp [hline]) p hp
  have htext : code ++ iterationFoot.toList = code ++ ';' :: ((block ("" :: footLines)).toList ++ []) := by
    simp [iterationFoot, block]
  rw [htext, (unbroken_of_mem hp).occurrences_break (by simp), (unbroken_of_mem hp).occurrences_block,
    sum_eq_zero_of_plain hlines, occurrences_nil (unbroken_of_mem hp).nonempty, Nat.zero_add, Nat.add_zero]

/-- the marker in the iteration is the only one -/
theorem Template.marker_once :
    ¬ marker.toList <:+: iterationHead.toList ∧ ¬ marker.toList <:+: iterationFoot.toList := by
  have hnil := occurrences_nil (unbroken_of_mem marker_mem_patterns).nonempty
  have hhead := occurrences_iterationHead marker_mem_patterns []
  have hfoot := occurrences_iterationFoot marker_mem_patterns []
  rw [List.append_nil, hnil] at hhead
  rw [List.nil_append, hnil] at hfoot
  exact ⟨occurrences_eq_zero_iff.1 hhead, occurrences_eq_zero_iff.1 hfoot⟩

theorem Template.iterationOf_eq (code : String) : iterationOf code = iterationHead ++ code ++ iterationFoot := by
  have hsegments : segments iteration.toList = [iterationHead.toList, iterationFoot.toList] := by
    rw [iteration_eq, String.toList_append, String.toList_append, List.append_assoc, segments_marker marker_once.1,
      segments_free marker_once.2]
  rw [iterationOf, hsegments]
  apply String.toList_injective
  simp [List.intercalate]

/-! ## Definitions in front of the iteration -/

namespace Helper

/-- the lines of a definition behind its first, and the blank line behind it -/
theorem occurrences_innerLines (hp : p ∈ patterns) (g : Helper) :
    ∀ line ∈ g.innerLines ++ [""], occurrences p line.toList = 0 := by
  have hnil := occurrences_nil (unbroken_of_mem hp).nonempty
  have hindent : ∀ line ∈ g.body, occurrences p ("    " ++ line).toList = 0 := by
    intro line hline
    have htext : ("    " ++ line).toList = ' ' :: ' ' :: ' ' :: ' ' :: line.toList := by simp
    have hmem : line ∈ all.flatMap body := List.mem_flatMap.2 ⟨g, g.mem_all, hline⟩
    have hplain := lines_plain line (List.mem_append_left _ hmem) p hp
    simp only [htext, (unbroken_of_mem hp).occurrences_skip (c := ' ') (by simp), hplain]
  intro line hline
  simp only [innerLines, List.mem_append, List.mem_map, List.mem_singleton] at hline
  rcases hline with (⟨line, hline, rfl⟩ | rfl) | rfl
  · exact hindent line hline
  · exact lines_plain "\x7d" (by simp) p hp
  · exact hnil

/-- in the lines of definitions, only the first ones count -/
theorem occurrences_prelude (hp : p ∈ patterns) (hs : List Helper) (rest : List Char) :
    occurrences p ((block (preludeLines hs)).toList ++ rest) =
      (hs.map fun g => occurrences p g.firstLine.toList).sum + occurrences p rest := by
  rw [(unbroken_of_mem hp).occurrences_block]
  congr 1
  induction hs with
  | nil => rfl
  | cons g hs ih =>
    have hinner := sum_eq_zero_of_plain (occurrences_innerLines hp g)
    have hlines : preludeLines (g :: hs) = g.firstLine :: (g.innerLines ++ [""] ++ preludeLines hs) := by
      simp [preludeLines]
    rw [hlines, List.map_cons, List.sum_cons, List.map_append, List.sum_append, hinner, Nat.zero_add, ih,
      List.map_cons, List.sum_cons]

theorem toList_firstLine (g : Helper) :
    g.firstLine.toList = "vec2".toList ++ ' ' :: (g.name.toList ++
      '(' :: (if g.isBinary then "vec2 a, vec2 b) \x7b" else "vec2 a) \x7b").toList) := by
  cases hbinary : g.isBinary <;> simp [firstLine, signature, hbinary]

theorem marker_notIn_firstLine (g : Helper) : occurrences Template.marker.toList g.firstLine.toList = 0 := by
  have hname : 'Q' ∉ g.name.toList := by cases g <;> decide
  have hletter : 'Q' ∉ g.firstLine.toList := by
    rw [toList_firstLine]
    cases g.isBinary <;> simp [hname]
  exact occurrences_eq_zero (by decide) hletter

/-- the first line of a definition opens the helper it defines, and no other -/
theorem occurrences_firstLine (h g : Helper) : occurrences h.opening g.firstLine.toList = if h = g then 1 else 0 := by
  have hparameters : '(' ∉ (if g.isBinary then "vec2 a, vec2 b) \x7b" else "vec2 a) \x7b").toList := by
    cases g.isBinary <;> decide
  rw [toList_firstLine, (unbroken_of_mem h.opening_mem_patterns).occurrences_break (by simp),
    h.occurrences_plain (by decide), h.occurrences_word g.paren_notMem_name, h.occurrences_plain hparameters]
  simp only [name_suffix_iff, Nat.zero_add, Nat.add_zero]

theorem sum_firstLine (h : Helper) (hs : List Helper) :
    (hs.map fun g => occurrences h.opening g.firstLine.toList).sum = hs.count h := by
  induction hs with
  | nil => rfl
  | cons g hs ih =>
    rw [List.map_cons, List.sum_cons, ih, occurrences_firstLine, List.count_cons, Nat.add_comm]
    simp only [beq_iff_eq, eq_comm (a := g)]

theorem isEmpty_join_definition (hs : List Helper) :
    ("\n".intercalate (hs.map definition)).isEmpty = true ↔ hs = [] := by
  match hs with
  | [] => simp
  | [g] => simp [definition, signature]
  | g :: g' :: hs => simp [definition, signature]

end Helper

namespace Emitted

variable {e : Emitted} {a : Computation}

/-- the definitions of the helpers, and the iteration around the code -/
theorem fragment_eq_block (h : e.helpers = a.helpers) :
    e.fragment = block (Helper.preludeLines e.helpers) ++
      (Template.iterationHead ++ e.code ++ Template.iterationFoot) := by
  have hlisted : Helper.all.filter e.helpers.contains = e.helpers := by
    rw [h]
    refine List.filter_congr fun g _ => ?_
    rw [Bool.eq_iff_iff, List.contains_iff_mem, Computation.mem_helpers_iff]
  rw [← Helper.prelude_eq_block, ← Template.iterationOf_eq]
  simp only [fragment, Helper.definitions, hlisted, Helper.isEmpty_join_definition]
  split_ifs with hnone
  · simp
  · rfl

/-- **A pattern occurs in a fragment where it occurs in the first line of a definition, and where it occurs in the
code.** -/
theorem occurrences_fragment (h : e.helpers = a.helpers) (hp : p ∈ patterns) :
    occurrences p e.fragment.toList =
      (e.helpers.map fun g => occurrences p g.firstLine.toList).sum + occurrences p e.code.toList := by
  rw [fragment_eq_block h, String.toList_append, Helper.occurrences_prelude hp, String.toList_append,
    String.toList_append, List.append_assoc, Template.occurrences_iterationHead hp,
    Template.occurrences_iterationFoot hp]

theorem occurrences_opening_fragment (h : e.helpers = a.helpers) (g : Helper) :
    occurrences g.opening e.fragment.toList = e.helpers.count g + occurrences g.opening e.code.toList := by
  rw [occurrences_fragment h g.opening_mem_patterns, Helper.sum_firstLine]

/-- code without braces leaves no marker -/
theorem marker_notIn_fragment (h : e.helpers = a.helpers) (hbrace : '\x7b' ∉ e.code.toList) :
    ¬ Template.marker.toList <:+: e.fragment.toList := by
  have hdefinitions : (e.helpers.map fun g => occurrences Template.marker.toList g.firstLine.toList).sum = 0 := by
    simp [Helper.marker_notIn_firstLine]
  have hcode : occurrences Template.marker.toList e.code.toList = 0 := occurrences_eq_zero (by decide) hbrace
  rw [← occurrences_eq_zero_iff, occurrences_fragment h Template.marker_mem_patterns, hdefinitions, hcode]

theorem declared_of_mem (h : e.helpers = a.helpers) {g : Helper} (hg : g ∈ e.helpers) :
    ("vec2 " ++ g.name ++ "(").toList <:+: e.fragment.toList := by
  have hline : g.firstLine ∈ Helper.preludeLines e.helpers :=
    List.mem_flatMap.2 ⟨g, hg, by simp⟩
  have hstart : ("vec2 " ++ g.name ++ "(").toList <+: g.firstLine.toList := by
    obtain ⟨parameters, htext⟩ : ∃ parameters, g.firstLine.toList =
        "vec2".toList ++ ' ' :: (g.name.toList ++ '(' :: parameters) := ⟨_, g.toList_firstLine⟩
    exact ⟨parameters, by simp [htext]⟩
  refine (hstart.isInfix.trans (infix_block hline)).trans ?_
  rw [fragment_eq_block h, String.toList_append]
  exact (List.prefix_append _ _).isInfix

/-- if the code calls only helpers reported, so does the fragment -/
theorem mem_of_called (h : e.helpers = a.helpers) {g : Helper} (hcode : g.opening <:+: e.code.toList → g ∈ e.helpers)
    (hcalled : g.opening <:+: e.fragment.toList) : g ∈ e.helpers := by
  rw [← occurrences_pos_iff, occurrences_opening_fragment h] at hcalled
  rcases Nat.add_pos_iff_pos_or_pos.1 hcalled with hdefined | hcount
  · exact List.count_pos_iff.1 hdefined
  · exact hcode (occurrences_pos_iff.1 hcount)

end Emitted

/-- code holds a brace only where a name does -/
theorem Computation.brace_notMem_code (names : Bindings) (hnames : ∀ v, '\x7b' ∉ (names.text v).toList)
    (a : Computation) :
    '\x7b' ∉ (a.code names).toList := by
  have hname : ∀ h : Helper, '\x7b' ∉ h.name.toList := by
    intro h
    cases h <;> decide
  induction a with
  | var v => exact hnames v
  | number x =>
    simp only [code, String.toList_append, List.mem_append, not_or]
    exact ⟨⟨by decide, x.notMem_literal rfl (by decide)⟩, by decide⟩
  | neg a ih | abs a ih | conj a ih =>
    simp only [code, String.toList_append, List.mem_append, not_or]
    exact ⟨⟨by decide, ih⟩, by decide⟩
  | add a b iha ihb | sub a b iha ihb =>
    simp only [code, String.toList_append, List.mem_append, not_or]
    exact ⟨⟨⟨⟨by decide, iha⟩, by decide⟩, ihb⟩, by decide⟩
  | mul a b iha ihb | div a b iha ihb | pow a b iha ihb =>
    simp only [code, call2, String.toList_append, List.mem_append, not_or]
    exact ⟨⟨⟨⟨⟨hname _, by decide⟩, iha⟩, by decide⟩, ihb⟩, by decide⟩
  | apply f a ih =>
    simp only [code, call1, String.toList_append, List.mem_append, not_or]
    exact ⟨⟨⟨hname _, by decide⟩, ih⟩, by decide⟩

/-- what is compiled is the code of a computation and the helpers that it calls -/
theorem Compiler.compile_computation (k : Compiler) (source : String) :
    ∃ a : Computation, (k.compile source).code = a.code k.emitter.bindings ∧
      (k.compile source).helpers = a.helpers := by
  rw [k.compile_eq]
  exact ⟨_, rfl, rfl⟩

/-- **A fragment is closed.** It is the definitions of the helpers reported, in their order, and the iteration with the
code in place of its one marker. Where no name holds a brace or the opening of a helper, no marker is left, and the
helpers defined in the fragment are those called in the code; these are all the helpers that are called anywhere in it.
-/
theorem fragment_closed (settings : Settings)
    (hnames : ∀ text ∈ [settings.bindings.iterate, settings.bindings.constant, settings.bindings.power],
      '\x7b' ∉ text.toList ∧ ∀ g : Helper, ¬ (g.name ++ "(").toList <:+: text.toList) (source : String) :
    let emitted := settings.compiler.compile source
    let text := emitted.fragment
    emitted.helpers.Sublist Helper.all ∧
    (∃ before behind, Template.iteration = before ++ Template.marker ++ behind ∧
      ¬ Template.marker.toList <:+: before.toList ∧ ¬ Template.marker.toList <:+: behind.toList ∧
      text = (if emitted.helpers = [] then "" else "\n".intercalate (emitted.helpers.map Helper.definition) ++ "\n") ++
        (before ++ emitted.code ++ behind)) ∧
    ¬ Template.marker.toList <:+: text.toList ∧
    ∀ h : Helper,
      (h ∈ emitted.helpers ↔ (h.name ++ "(").toList <:+: emitted.code.toList) ∧
      (("vec2 " ++ h.name ++ "(").toList <:+: text.toList ↔ (h.name ++ "(").toList <:+: emitted.code.toList) ∧
      ((h.name ++ "(").toList <:+: text.toList → ("vec2 " ++ h.name ++ "(").toList <:+: text.toList) := by
  intro emitted text
  obtain ⟨a, hcode, hhelpers⟩ : ∃ a : Computation, emitted.code = a.code settings.bindings ∧
      emitted.helpers = a.helpers :=
    settings.compiler.compile_computation source
  have hname : ∀ v, settings.bindings.text v ∈
      [settings.bindings.iterate, settings.bindings.constant, settings.bindings.power] := by
    intro v
    cases v <;> simp [Bindings.text]
  have hopening : ∀ g : Helper, (g.name ++ "(").toList = g.opening := fun g => String.toList_append
  have hcalled : ∀ h : Helper, h ∈ emitted.helpers ↔ h.opening <:+: emitted.code.toList := by
    intro h
    have hnone : ∀ v, occurrences h.opening (settings.bindings.text v).toList = 0 := fun v =>
      occurrences_eq_zero_iff.2 (hopening h ▸ (hnames _ (hname v)).2 h)
    rw [← occurrences_pos_iff, hcode, Computation.occurrences_code _ h hnone, hhelpers,
      Computation.mem_helpers_iff_callCount]
  refine ⟨?_, ⟨_, _, Template.iteration_eq, Template.marker_once.1, Template.marker_once.2, ?_⟩, ?_, fun h => ?_⟩
  · rw [hhelpers]
    exact List.filter_sublist
  · rw [Helper.prelude_eq_block]
    exact Emitted.fragment_eq_block hhelpers
  · refine Emitted.marker_notIn_fragment hhelpers ?_
    rw [hcode]
    exact Computation.brace_notMem_code _ (fun v => (hnames _ (hname v)).1) a
  · have hreported := Emitted.mem_of_called hhelpers (hcalled h).2
    have hdeclared := Emitted.declared_of_mem (g := h) hhelpers
    have hends : h.opening <:+: ("vec2 " ++ h.name ++ "(").toList := by
      rw [← hopening, String.append_assoc, String.toList_append (s := "vec2 ")]
      exact (List.suffix_append _ _).isInfix
    rw [hopening, ← hcalled h]
    exact ⟨Iff.rfl, ⟨fun hd => hreported (hends.trans hd), hdeclared⟩, fun hc => hdeclared (hreported hc)⟩

/-- settings with such names as `Emitter.torn` has -/
def Settings.torn : Settings :=
  { bindings := Emitter.torn.bindings }

/-- the code `(cdiv(csin(mul(u)), cmul) + cmul)` needs two helpers: both are defined, and no product is -/
theorem fragment_closed_torn :
    (∀ text ∈ [Settings.torn.bindings.iterate, Settings.torn.bindings.constant, Settings.torn.bindings.power],
      '\x7b' ∉ text.toList ∧ ∀ g : Helper, ¬ (g.name ++ "(").toList <:+: text.toList) ∧
    (Settings.torn.compiler.compile "sin(z) / c").code = "(cdiv(csin(mul(u)), cmul) + cmul)" ∧
    (Settings.torn.compiler.compile "sin(z) / c").helpers = [.cdiv, .csin] ∧
    (∀ h ∈ [Helper.cdiv, .csin],
      ("vec2 " ++ h.name ++ "(").toList <:+: (Settings.torn.compiler.compile "sin(z) / c").fragment.toList) ∧
    ¬ "vec2 cmul(".toList <:+: (Settings.torn.compiler.compile "sin(z) / c").fragment.toList ∧
    ¬ Template.marker.toList <:+: (Settings.torn.compiler.compile "sin(z) / c").fragment.toList := by
  have hnames :
      ∀ text ∈ [Settings.torn.bindings.iterate, Settings.torn.bindings.constant, Settings.torn.bindings.power],
      '\x7b' ∉ text.toList ∧ ∀ g : Helper, ¬ (g.name ++ "(").toList <:+: text.toList := by
    refine fun text htext => ⟨?_, fun g => ?_⟩
    · revert text
      decide
    · revert text
      cases g <;> decide
  have hhelpers : (Settings.torn.compiler.compile "sin(z) / c").helpers = [.cdiv, .csin] := by decide +kernel
  obtain ⟨_, _, hmarker, hdefined⟩ := fragment_closed Settings.torn hnames "sin(z) / c"
  refine ⟨hnames, by decide +kernel, hhelpers, fun h hh => ?_, fun hmul => ?_, hmarker⟩
  · exact (hdefined h).2.1.2 ((hdefined h).1.1 (hhelpers ▸ hh))
  · have hreported := (hdefined .cmul).1.2 ((hdefined .cmul).2.1.1 hmul)
    simp [hhelpers] at hreported

end EscapeTime
