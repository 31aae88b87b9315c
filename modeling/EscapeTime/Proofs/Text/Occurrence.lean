/-
Patterns and words in texts.

Texts are put together from pieces with separators between them. A separator cuts the search for a pattern, or for
words, in two:

- `occurrences_separator`: a character that the pattern does not hold parts the occurrences in front of it from those
  behind.
- `occurrences_last`: the last character of a pattern, if it stands nowhere else in the pattern, does so too, but for
  the occurrence that ends in it.
- `maximalWord_separator`: a word that cannot be made longer lies on one side of a character that is no letter and no
  digit.
- `exists_maximalWord`: every word lies inside one that cannot be made longer.
-/
import Mathlib.Tactic

namespace EscapeTime.Text

/-! ## Patterns -/

/-- how often the pattern occurs in the text -/
def occurrences (p text : List Char) : Nat :=
  text.tails.countP p.isPrefixOf

variable {p w a b text : List Char} {c : Char}

theorem occurrences_pos_iff : 0 < occurrences p text ↔ p <:+: text := by
  simp only [occurrences, List.countP_pos_iff, List.mem_tails, List.isPrefixOf_iff_prefix, List.infix_iff_prefix_suffix]
  exact exists_congr fun _ => and_comm

theorem occurrences_eq_zero_iff : occurrences p text = 0 ↔ ¬ p <:+: text := by
  rw [← occurrences_pos_iff]
  omega

theorem occurrences_cons (p text : List Char) (c : Char) :
    occurrences p (c :: text) = (if p <+: c :: text then 1 else 0) + occurrences p text := by
  simp only [occurrences, List.tails_cons, List.countP_cons, List.isPrefixOf_iff_prefix]
  exact Nat.add_comm _ _

/-- a pattern with a character that the text does not hold -/
theorem occurrences_eq_zero (hp : c ∈ p) (htext : c ∉ text) : occurrences p text = 0 :=
  occurrences_eq_zero_iff.2 fun h => htext (h.mem hp)

theorem occurrences_nil (hne : p ≠ []) : occurrences p [] = 0 :=
  occurrences_eq_zero_iff.2 fun h => hne (List.infix_nil.1 h)

/-- a pattern does not reach across a character that it does not hold -/
theorem prefix_separator (hc : c ∉ p) : p <+: a ++ c :: b ↔ p <+: a := by
  constructor
  · intro h
    rcases List.prefix_or_prefix_of_prefix h (List.prefix_append a (c :: b)) with ha | ⟨t, rfl⟩
    · exact ha
    · rw [List.prefix_append_right_inj] at h
      rcases List.prefix_cons_iff.1 h with rfl | ⟨t, rfl, _⟩
      · rw [List.append_nil]
      · exact absurd (by simp) hc
  · exact fun h => h.trans (List.prefix_append a (c :: b))

theorem occurrences_separator (hne : p ≠ []) (hc : c ∉ p) :
    occurrences p (a ++ c :: b) = occurrences p a + occurrences p b := by
  obtain ⟨x, p', rfl⟩ := List.exists_cons_of_ne_nil hne
  induction a with
  | nil =>
    have hstart : ¬ x :: p' <+: c :: b := fun h => hc (by simp [(List.cons_prefix_cons.1 h).1])
    simp [occurrences_cons, hstart, occurrences_eq_zero (c := x)]
  | cons y a ih =>
    rw [List.cons_append, occurrences_cons, occurrences_cons, ih, ← List.cons_append]
    simp only [prefix_separator hc]
    omega

/-- such a character in front of a text is passed over -/
theorem occurrences_skip (hne : p ≠ []) (hc : c ∉ p) (text : List Char) :
    occurrences p (c :: text) = occurrences p text := by
  have hsplit := occurrences_separator (a := []) (b := text) hne hc
  rwa [List.nil_append, occurrences_nil hne, Nat.zero_add] at hsplit

/-- a pattern that ends in a character it holds nowhere else -/
theorem prefix_last (hc : c ∉ w) : w ++ [c] <+: a ++ c :: b ↔ w ++ [c] <+: a ∨ w = a := by
  constructor
  · intro h
    obtain ⟨r, rfl⟩ := (prefix_separator hc).1 ((List.prefix_append w [c]).trans h)
    rw [List.append_assoc, List.prefix_append_right_inj] at h
    cases r with
    | nil => exact .inr (List.append_nil w).symm
    | cons d r =>
      obtain ⟨rfl, _⟩ := List.cons_prefix_cons.1 h
      exact .inl ⟨r, by simp⟩
  · rintro (h | rfl)
    · exact h.trans (List.prefix_append a (c :: b))
    · exact ⟨b, by simp⟩

theorem occurrences_last (hc : c ∉ w) :
    occurrences (w ++ [c]) (a ++ c :: b) =
      (if w <:+ a then 1 else 0) + occurrences (w ++ [c]) a + occurrences (w ++ [c]) b := by
  induction a with
  | nil =>
    have hnil : occurrences (w ++ [c]) [] = 0 := occurrences_nil (by simp)
    have hstart : w ++ [c] <+: c :: b ↔ w <:+ [] := by
      simpa using prefix_last (a := []) (b := b) hc
    rw [List.nil_append, occurrences_cons, hnil]
    simp only [hstart]
    omega
  | cons d a ih =>
    rw [List.cons_append, occurrences_cons, occurrences_cons, ih, ← List.cons_append]
    simp only [prefix_last hc, List.suffix_cons_iff]
    -- the pattern, and the pattern without its last character, do not both begin the same text
    have hshort : w ++ [c] <+: d :: a → w ≠ d :: a := by
      rintro h rfl
      simpa using h.length_le
    have hlong : w = d :: a → ¬ w <:+ a := by
      rintro rfl h
      simpa using h.length_le
    by_cases hstart : w ++ [c] <+: d :: a
    · simp only [hstart, hshort hstart, true_or, false_or, if_true]
      omega
    · by_cases hwhole : w = d :: a
      · have hinner := hlong hwhole
        subst hwhole
        simp only [hstart, hinner, or_false, or_true, if_true, if_false]
        omega
      · simp only [hstart, hwhole, false_or, if_false]
        omega

/-! ## Words -/

/-- a letter with letters and digits behind it -/
def isWord (w : List Char) : Bool :=
  w.head?.any Char.isAlpha && w.all Char.isAlphanum

/-- the word stands in the text, and is not part of a longer word there -/
def MaximalWord (text w : List Char) : Prop :=
  isWord w = true ∧ ∃ before behind, text = before ++ w ++ behind ∧
    ∀ u v, u <:+ before → v <+: behind → isWord (u ++ w ++ v) = true → u = [] ∧ v = []

/-- a part of a text without the separator lies in front of it or behind it -/
theorem part_separator {before behind : List Char} (hc : c ∉ w) (h : before ++ w ++ behind = a ++ c :: b) :
    (∃ t, a = before ++ w ++ t ∧ behind = t ++ c :: b) ∨ ∃ s, before = a ++ c :: s ∧ b = s ++ w ++ behind := by
  rcases List.append_eq_append_iff.1 h with ⟨t, ha, hbehind⟩ | ⟨t, hbefore, hrest⟩
  · exact .inl ⟨t, ha, hbehind⟩
  · cases t with
    | nil => exact .inl ⟨[], by simpa using hbefore.symm, by simpa using hrest.symm⟩
    | cons d t =>
      obtain ⟨rfl, rfl⟩ := List.cons.inj hrest
      rcases List.append_eq_append_iff.1 hbefore with ⟨s, _, rfl⟩ | ⟨s, rfl, hw⟩
      · exact absurd (by simp) hc
      · cases s with
        | nil => exact absurd (by simp [← show c :: t = w from hw]) hc
        | cons d s =>
          obtain ⟨rfl, rfl⟩ := List.cons.inj hw
          exact .inr ⟨s, rfl, rfl⟩

theorem maximalWord_separator (hc : c.isAlphanum = false) (h : MaximalWord (a ++ c :: b) w) :
    MaximalWord a w ∨ MaximalWord b w := by
  obtain ⟨hw, before, behind, htext, hmax⟩ := h
  have hcw : c ∉ w := by
    intro hmem
    simp only [isWord, Bool.and_eq_true, List.all_eq_true] at hw
    simp [hw.2 c hmem] at hc
  -- what could be added to the word inside one piece could be added to it in the whole text
  rcases part_separator hcw htext.symm with ⟨t, rfl, rfl⟩ | ⟨s, rfl, rfl⟩
  · exact .inl ⟨hw, before, t, rfl, fun u v hu hv => hmax u v hu (hv.trans (List.prefix_append t _))⟩
  · exact .inr ⟨hw, s, behind, rfl, fun u v hu hv => hmax u v (hu.trans ⟨a ++ [c], by simp⟩) hv⟩

/-- a text that is a word holds no other word that cannot be made longer -/
theorem eq_of_maximalWord (htext : isWord text = true) (h : MaximalWord text w) : w = text := by
  obtain ⟨_, before, behind, rfl, hmax⟩ := h
  obtain ⟨rfl, rfl⟩ := hmax before behind List.suffix_rfl List.prefix_rfl htext
  simp

theorem not_maximalWord (htext : ∀ c ∈ text, c.isAlpha = false) : ¬ MaximalWord text w := by
  rintro ⟨hw, before, behind, rfl, _⟩
  simp only [isWord, Bool.and_eq_true, Option.any_eq_true] at hw
  obtain ⟨⟨c, hc, hletter⟩, _⟩ := hw
  have hmem : c ∈ before ++ w ++ behind := by simp [List.mem_of_mem_head? hc]
  simp [htext c hmem] at hletter

theorem exists_maximalWord (hw : isWord w = true) (h : w <:+: text) : ∃ w', MaximalWord text w' ∧ w <:+: w' := by
  induction hn : text.length - w.length using Nat.strong_induction_on generalizing w with
  | _ n ih =>
    obtain ⟨before, behind, rfl⟩ := h
    by_cases hmax : ∀ u v, u <:+ before → v <+: behind → isWord (u ++ w ++ v) = true → u = [] ∧ v = []
    · exact ⟨w, ⟨hw, before, behind, rfl, hmax⟩, List.infix_rfl⟩
    · -- a longer word has fewer characters around it
      push Not at hmax
      obtain ⟨u, v, ⟨s, rfl⟩, ⟨t, rfl⟩, hlong, hne⟩ := hmax
      have hlonger : 0 < u.length + v.length := by
        rcases List.eq_nil_or_concat u with rfl | ⟨_, _, rfl⟩
        · have := List.length_pos_iff.2 (hne rfl)
          omega
        · simp
      obtain ⟨w', hw', hin⟩ := ih _ (by simp at hn ⊢; omega) hlong ⟨s, t, by simp⟩ rfl
      exact ⟨w', hw', List.IsInfix.trans ⟨u, v, rfl⟩ hin⟩

end EscapeTime.Text
