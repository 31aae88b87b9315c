/-
Cutting a template at its markers, and putting code in their places.

Two markers do not overlap (`marker_overlap`), so the first marker behind a text that holds none is where the cut is
made:

- `segments_free`: a text without marker is one segment.
- `segments_marker`: a text without marker, a marker and a rest: the text, then the segments of the rest.
- `segments_intercalate`: so texts without markers, joined by markers, are cut into these texts again.
- `exists_first_marker`: a template with a marker is of the form that `segments_marker` is about.
- `splice_places`: splicing puts the code at every marker and changes nothing else; it fails exactly where there is
  none.
-/
import Mathlib.Tactic
import EscapeTime.Shader.Template

namespace EscapeTime.Template

variable {text : List Char}

/-- no end of the marker is also a beginning of it -/
theorem marker_overlap {v : List Char} (hend : v <:+ marker.toList) (hbegin : v <+: marker.toList) :
    v = [] ∨ v = marker.toList := by
  have hcheck : ∀ v ∈ marker.toList.tails, v <+: marker.toList → v = [] ∨ v = marker.toList := by decide
  exact hcheck v ((List.mem_tails _ _).2 hend) hbegin

/-- in front of a marker, no marker begins in a text that holds none -/
theorem not_begins {rest : List Char} (hne : text ≠ []) (hfree : ¬ marker.toList <:+: text) :
    ¬ marker.toList <+: text ++ (marker.toList ++ rest) := by
  intro hbegins
  rcases List.prefix_or_prefix_of_prefix hbegins (List.prefix_append text _) with hinside | ⟨v, hv⟩
  · exact hfree hinside.isInfix
  · -- the marker would begin in the text and end in the marker behind it
    have hbehind : v <+: marker.toList ++ rest := by
      rw [← List.prefix_append_right_inj text, hv]
      exact hbegins
    have hlength : v.length ≤ marker.toList.length := by
      rw [← hv, List.length_append]
      omega
    have hbegin := List.prefix_of_prefix_length_le hbehind (List.prefix_append marker.toList rest) hlength
    rcases marker_overlap ⟨text, hv⟩ hbegin with rfl | rfl
    · rw [List.append_nil] at hv
      exact hfree (hv ▸ List.infix_rfl)
    · exact hne (by simpa using hv)

theorem segments_free (hfree : ¬ marker.toList <:+: text) : segments text = [text] := by
  induction text with
  | nil => rw [segments]
  | cons c text ih =>
    have hstart : marker.toList.isPrefixOf (c :: text) = false := by
      rw [← Bool.not_eq_true, List.isPrefixOf_iff_prefix]
      exact fun h => hfree h.isInfix
    have hrest : ¬ marker.toList <:+: text := fun h => hfree (h.trans (List.suffix_cons c text).isInfix)
    rw [segments, hstart, ih hrest]
    rfl

theorem segments_marker (hfree : ¬ marker.toList <:+: text) (rest : List Char) :
    segments (text ++ (marker.toList ++ rest)) = text :: segments rest := by
  induction text with
  | nil =>
    obtain ⟨c, tail, hmarker⟩ : ∃ c tail, marker.toList = c :: tail := List.exists_cons_of_ne_nil (by decide)
    have hstart : marker.toList.isPrefixOf (c :: (tail ++ rest)) = true := by
      rw [List.isPrefixOf_iff_prefix, ← List.cons_append, ← hmarker]
      exact List.prefix_append _ _
    have hlength : marker.length - 1 = tail.length := by
      rw [← String.length_toList, hmarker, List.length_cons, Nat.add_sub_cancel]
    rw [List.nil_append, hmarker, List.cons_append, segments, hstart, if_pos rfl, hlength, List.drop_left]
  | cons c text ih =>
    have hstart : marker.toList.isPrefixOf (c :: (text ++ (marker.toList ++ rest))) = false := by
      rw [← Bool.not_eq_true, List.isPrefixOf_iff_prefix]
      exact not_begins (List.cons_ne_nil c text) hfree
    have hrest : ¬ marker.toList <:+: text := fun h => hfree (h.trans (List.suffix_cons c text).isInfix)
    rw [List.cons_append, segments, hstart, ih hrest]
    rfl

/-! ## All markers -/

theorem segments_ne_nil (text : List Char) : segments text ≠ [] := by
  cases text with
  | nil => simp [segments]
  | cons c rest =>
    rw [segments]
    split_ifs
    · exact List.cons_ne_nil _ _
    · split <;> exact List.cons_ne_nil _ _

/-- texts without markers, with a marker between any two of them, are the segments of the whole -/
theorem segments_intercalate {texts : List (List Char)} (hne : texts ≠ [])
    (hfree : ∀ text ∈ texts, ¬ marker.toList <:+: text) : segments (marker.toList.intercalate texts) = texts := by
  induction texts with
  | nil => exact absurd rfl hne
  | cons text more ih =>
    have htext := hfree text List.mem_cons_self
    cases more with
    | nil => rw [List.intercalate_singleton, segments_free htext]
    | cons next more =>
      have hmore := ih (List.cons_ne_nil next more) fun t ht => hfree t (List.mem_cons_of_mem text ht)
      rw [List.intercalate_cons_cons, List.append_assoc, segments_marker htext, hmore]

/-- in front of the first marker there is none -/
theorem exists_first_marker (h : marker.toList <:+: text) :
    ∃ before rest, text = before ++ (marker.toList ++ rest) ∧ ¬ marker.toList <:+: before := by
  induction text with
  | nil => exact absurd (List.infix_nil.1 h) (by decide)
  | cons c text ih =>
    by_cases hstart : marker.toList <+: c :: text
    · obtain ⟨rest, hrest⟩ := hstart
      exact ⟨[], rest, hrest.symm, fun hnil => absurd (List.infix_nil.1 hnil) (by decide)⟩
    · -- the marker begins further on, and so does the first one
      obtain ⟨before, rest, rfl, hbefore⟩ := ih ((List.infix_cons_iff.1 h).resolve_left hstart)
      refine ⟨c :: before, rest, rfl, fun hno => ?_⟩
      rcases List.infix_cons_iff.1 hno with hbegin | hinside
      · exact hstart (hbegin.trans (List.prefix_append (c :: before) _))
      · exact hbefore hinside

/-! ## Code in place of the markers -/

/-- a template that is cut at least once -/
theorem splice_of_segments {template : String} {first next : List Char} {more : List (List Char)}
    (h : segments template.toList = first :: next :: more) (code : String) :
    splice template code = .ok (String.ofList (code.toList.intercalate (first :: next :: more))) := by
  rw [splice, h]

theorem splice_eq_error_iff (template code : String) :
    splice template code = .error .missingPlaceholder ↔ ¬ marker.toList <:+: template.toList := by
  constructor
  · rintro h hmarker
    obtain ⟨before, rest, htemplate, hbefore⟩ := exists_first_marker hmarker
    obtain ⟨next, more, hrest⟩ := List.exists_cons_of_ne_nil (segments_ne_nil rest)
    have hcut : segments template.toList = before :: next :: more := by
      rw [htemplate, segments_marker hbefore, hrest]
    rw [splice_of_segments hcut] at h
    cases h
  · intro hfree
    rw [splice, segments_free hfree]

/-- **Splicing replaces every marker and nothing else.** Let texts without markers stand in a row, at least two of them,
with a marker between any two. Then splicing puts the code in place of each of these markers, whatever the texts begin
and end with and even if the code holds markers itself. Splicing fails exactly on templates without marker. -/
theorem splice_places (code : String) :
    (∀ texts : List String, 2 ≤ texts.length → (∀ text ∈ texts, ¬ marker.toList <:+: text.toList) →
      splice (marker.intercalate texts) code = .ok (code.intercalate texts)) ∧
    ∀ template : String, splice template code = .error .missingPlaceholder ↔ ¬ marker.toList <:+: template.toList := by
  refine ⟨fun texts hlength hfree => ?_, fun template => splice_eq_error_iff template code⟩
  obtain ⟨first, next, more, rfl⟩ : ∃ first next more, texts = first :: next :: more := by
    match texts, hlength with
    | first :: next :: more, _ => exact ⟨first, next, more, rfl⟩
  have hsegments : segments (marker.intercalate (first :: next :: more)).toList =
      first.toList :: next.toList :: more.map String.toList := by
    rw [String.toList_intercalate]
    exact segments_intercalate (List.cons_ne_nil _ _) (List.forall_mem_map.2 hfree)
  have hjoined : (code.intercalate (first :: next :: more)).toList =
      code.toList.intercalate (first.toList :: next.toList :: more.map String.toList) :=
    String.toList_intercalate
  rw [splice_of_segments hsegments, ← hjoined, String.ofList_toList]

/-- texts that end and begin with pieces of a marker, and one of no length between two markers -/
def jagged : List String :=
  ["z = \x7b", "", "\x7bEQUATION\x7d\x7d"]

/-- the two markers are found between the pieces, and those that come with the code are left alone -/
theorem splice_jagged :
    (∀ text ∈ jagged, ¬ marker.toList <:+: text.toList) ∧
    splice "z = \x7b\x7b\x7bEQUATION\x7d\x7d\x7b\x7bEQUATION\x7d\x7d\x7bEQUATION\x7d\x7d"
        "\x7b\x7bEQUATION\x7d\x7d + c" =
      .ok ("z = \x7b" ++ "\x7b\x7bEQUATION\x7d\x7d + c" ++ "\x7b\x7bEQUATION\x7d\x7d + c" ++ "\x7bEQUATION\x7d\x7d") ∧
    splice "z = \x7bEQUATION\x7d;" "c" = .error .missingPlaceholder := by
  have hfree : ∀ text ∈ jagged, ¬ marker.toList <:+: text.toList := by decide
  refine ⟨hfree, (splice_places _).1 jagged (by decide) hfree, ((splice_places "c").2 _).2 (by decide)⟩

end EscapeTime.Template
