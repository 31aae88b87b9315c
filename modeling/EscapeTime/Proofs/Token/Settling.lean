/-
Runs of one lexer, one after another.

A run goes on where the last one stopped. `Exit` lists the three ways in which a run ends, each with where it leaves the
lexer: at the end of the source, behind a number that is out of range, or in front of a character that begins no token.
In the first and the last place the lexer stays for ever; in the second it stands further on than before, so there is an
end to that.

- `scan_exits`: every run ends in one of the three ways.
- `Settles.repeats`: what settling means for a character that begins no token.
- `settles`: so the runs of one lexer are rejected for numbers further and further on, and settle then.
- `tokenize_settles`: this for a whole source; and each run is that of a new lexer on what is left, moved on.
-/
import EscapeTime.Proofs.Calls
import EscapeTime.Proofs.Token.Failure
import EscapeTime.Proofs.Token.Locality

namespace EscapeTime

theorem Literal.length_pos {text : List Char} (h : Literal text) : 0 < text.length := by
  cases h with
  | fraction _ _ => exact Nat.succ_pos _
  | numeral hnum =>
    obtain ⟨c, rest, rfl, _⟩ := Binary64.numeral_head hnum
    exact Nat.succ_pos _

/-- a number that stands in a source ends inside it -/
theorem LongestLiteral.stop_le {source text : List Char} {position : Nat}
    (h : LongestLiteral (source.drop position) text) : position + text.length ≤ source.length := by
  have hlength := h.begins.length_le
  have hpos := h.literal.length_pos
  rw [List.length_drop] at hlength
  omega

namespace Lexer

variable {source : List Char} {start : Nat} {l : Lexer} {result : Except Rejection (List Token)}

/-- the lexer stands at an offset of the source, with what lies ahead there -/
structure In (source : List Char) (l : Lexer) : Prop where
  le : l.position ≤ source.length
  rest : l.rest = source.drop l.position

/-! ## One run -/

/-- how a run from an offset of the source ends: what it gives, and the lexer it leaves -/
inductive Exit (source : List Char) (start : Nat) : Except Rejection (List Token) → Lexer → Prop where
  | finished (ts : List Token) : Exit source start (.ok ts) ⟨source.length, []⟩
  | tooLarge {position : Nat} {text : List Char} (hstart : start ≤ position)
      (hlongest : LongestLiteral (source.drop position) text) :
      Exit source start (.error ⟨.numberOutOfRange (String.ofList text), position⟩)
        ⟨position + text.length, source.drop (position + text.length)⟩
  | stray {position : Nat} {c : Char} {after : List Char} (hdrop : source.drop position = c :: after)
      (hblank : isBlank c = false) (hlex : lexeme c after = .stray) :
      Exit source start (.error ⟨.unexpectedCharacter c, position⟩) ⟨position, c :: after⟩

/-- a run that starts earlier, with a token in front or without one -/
theorem Exit.earlier {start' : Nat} (h : Exit source start result l) (hle : start' ≤ start) :
    Exit source start' result l := by
  cases h with
  | finished ts => exact .finished ts
  | tooLarge hstart hlongest => exact .tooLarge (hle.trans hstart) hlongest
  | stray hdrop hblank hlex => exact .stray hdrop hblank hlex

theorem Exit.cons (t : Token) (h : Exit source start result l) : Exit source start (result.map (t :: ·)) l := by
  cases h with
  | finished ts => exact .finished (t :: ts)
  | tooLarge hstart hlongest => exact .tooLarge hstart hlongest
  | stray hdrop hblank hlex => exact .stray hdrop hblank hlex

/-- **Every run ends in one of the three ways.** -/
theorem scan_exits (source : List Char) (a : Nat) (rest : List Char) :
    source.drop a = rest → a ≤ source.length → Exit source a (scan a rest).1 (scan a rest).2 := by
  fun_induction scan a rest with
  | case1 a =>
    intro hdrop hle
    obtain rfl : a = source.length := le_antisymm hle (List.drop_eq_nil_iff.1 hdrop)
    exact .finished _
  | case2 a c rest hblank ih =>
    intro hdrop _
    have hlt : a < source.length := (List.getElem?_eq_some_iff.1 (getElem?_of_drop hdrop)).1
    exact (ih (drop_behind hdrop 0) hlt).earlier (Nat.le_succ a)
  | case3 a c rest hblank kind tail hlex next ih =>
    intro hdrop _
    have hmore := drop_behind hdrop tail.length
    have hlength := stop_le_of_lexeme hdrop hlex
    exact ((ih hmore hlength).earlier (by omega)).cons _
  | case4 a c rest hblank tail hlex =>
    intro hdrop _
    have hlongest := (longestLiteral_of_tooLarge hlex).1
    rw [← hdrop] at hlongest
    have hstop : a + 1 + tail.length = a + (c :: tail).length := by
      rw [List.length_cons]
      omega
    rw [← drop_behind hdrop tail.length, hstop]
    exact .tooLarge le_rfl hlongest
  | case5 a c rest hblank hlex =>
    intro hdrop _
    exact .stray hdrop (by simpa using hblank) hlex

theorem In.exits (h : l.In source) : Exit source l.position l.tokenize.1 l.tokenize.2 :=
  scan_exits source l.position l.rest h.rest.symm h.le

/-- a run leaves the lexer in the source -/
theorem Exit.isIn (h : Exit source start result l) : l.In source := by
  cases h with
  | finished ts => exact ⟨le_rfl, List.drop_length.symm⟩
  | tooLarge hstart hlongest => exact ⟨hlongest.stop_le, rfl⟩
  | @stray position c after hdrop hblank hlex =>
    exact ⟨(List.getElem?_eq_some_iff.1 (getElem?_of_drop hdrop)).1.le, hdrop.symm⟩

/-- at the end there is nothing but the end marker, and the lexer stays there -/
theorem tokenize_end (position : Nat) :
    (⟨position, []⟩ : Lexer).tokenize = (.ok [⟨.endOfInput, "", position⟩], ⟨position, []⟩) := by
  rw [tokenize, scan]

/-- in front of a character that begins no token the lexer stays -/
theorem tokenize_stray {position : Nat} {c : Char} {after : List Char} (hblank : isBlank c = false)
    (hlex : lexeme c after = .stray) :
    (⟨position, c :: after⟩ : Lexer).tokenize =
      (.error ⟨.unexpectedCharacter c, position⟩, ⟨position, c :: after⟩) := by
  rw [tokenize, scan, if_neg (by simp [hblank]), hlex]

/-- where a run that gives this has stopped -/
def stopOf (source : List Char) : Except Rejection (List Token) → Nat
  | .ok _ => source.length
  | .error ⟨.numberOutOfRange text, position⟩ => position + text.length
  | .error r => r.position

theorem Exit.position_eq (h : Exit source start result l) : l.position = stopOf source result := by
  cases h with
  | finished ts => rfl
  | tooLarge hstart hlongest => rw [stopOf, String.length_ofList]
  | stray hdrop hblank hlex => rfl

/-- the number that a run is rejected for is the longest one that stands where it is reported -/
theorem Exit.longest (h : Exit source start result l) {text : String} {position : Nat}
    (hresult : result =
      .error ⟨.numberOutOfRange text, position⟩) : LongestLiteral (source.drop position) text.toList := by
  cases h with
  | finished ts => cases hresult
  | tooLarge hstart hlongest =>
    cases hresult
    rwa [String.toList_ofList]
  | stray hdrop hblank hlex => cases hresult

/-- a lexer further on gives what a new lexer on the rest gives, moved on -/
theorem In.tokenize_eq (h : l.In source) :
    l.tokenize.1 = shifted l.position (EscapeTime.tokenize (String.ofList (source.drop l.position))) := by
  have hscan := scan_shift l.position 0 l.rest
  rw [Nat.zero_add] at hscan
  rw [tokenize, hscan, EscapeTime.tokenize, tokenize, ofSource, String.toList_ofList, h.rest]

/-! ## Run after run -/

/-- what runs one after another give: rejections for numbers that are out of range, further and further on; and then
once the tokens left and only the end marker ever after, or for ever the rejection of one character -/
structure Settles (source : List Char) (outcome : Nat → Except Rejection (List Token)) (errors : List Rejection) :
    Prop where
  refused : ∀ i r, errors[i]? = some r → outcome i = .error r
  tooLarge : ∀ r ∈ errors, ∃ text, r.cause = .numberOutOfRange text
  rising : errors.Pairwise fun r r' => r.position < r'.position
  settled :
    (∃ ts, outcome errors.length = .ok ts ∧
      ∀ i, errors.length < i → outcome i = .ok [⟨.endOfInput, "", source.length⟩]) ∨
    ∃ c position, ∀ i, errors.length ≤ i → outcome i = .error ⟨.unexpectedCharacter c, position⟩

/-- a character that one run is rejected for, all further ones are rejected for -/
theorem Settles.repeats {outcome : Nat → Except Rejection (List Token)} {errors : List Rejection}
    (h : Settles source outcome errors) {c : Char} {position i j : Nat} (hi : outcome i =
      .error ⟨.unexpectedCharacter c, position⟩)
    (hle : i ≤ j) : outcome j = .error ⟨.unexpectedCharacter c, position⟩ := by
  have hpast : errors.length ≤ i := by
    by_contra hlt
    have hsome : errors[i]? = some (errors[i]) := List.getElem?_eq_getElem (by omega)
    have hr : errors[i] = ⟨.unexpectedCharacter c, position⟩ := Except.error.inj ((h.refused i _ hsome).symm.trans hi)
    obtain ⟨text, htext⟩ := h.tooLarge _ (List.mem_of_getElem? hsome)
    rw [hr] at htext
    cases htext
  rcases h.settled with ⟨ts, hts, hend⟩ | ⟨c', position', hstray⟩
  · rcases hpast.eq_or_lt with rfl | hlt
    · cases hts.symm.trans hi
    · cases (hend i hlt).symm.trans hi
  · rw [hstray j (hpast.trans hle), ← hstray i hpast, hi]

/-- a run that finishes, and end markers behind it -/
theorem settles_finished {ts : List Token} (h : l.tokenize = (.ok ts, ⟨source.length, []⟩)) :
    Settles source (Calls.answer tokenize l) [] where
  refused := by simp
  tooLarge := by simp
  rising := .nil
  settled := by
    refine .inl ⟨ts, congrArg Prod.fst h, fun i hi => ?_⟩
    obtain ⟨i, rfl⟩ := Nat.exists_eq_succ_of_ne_zero (Nat.ne_of_gt hi)
    rw [Calls.answer_succ h]
    exact Calls.answer_fixed (tokenize_end source.length) i

/-- a run that meets a character which begins no token meets it for ever -/
theorem settles_stray {position : Nat} {c : Char} {l' : Lexer}
    (h : l.tokenize = (.error ⟨.unexpectedCharacter c, position⟩, l'))
    (hfixed : l'.tokenize = l.tokenize) : Settles source (Calls.answer tokenize l) [] where
  refused := by simp
  tooLarge := by simp
  rising := .nil
  settled := by
    refine .inr ⟨c, position, fun i _ => ?_⟩
    cases i with
    | zero => exact congrArg Prod.fst h
    | succ i =>
      rw [Calls.answer_succ h]
      exact Calls.answer_fixed (hfixed.trans h) i

/-- a run that is rejected for a number, in front of runs that settle further on -/
theorem Settles.cons {l' : Lexer} {r : Rejection} {errors : List Rejection}
    (h : Settles source (Calls.answer tokenize l') errors) (hrun : l.tokenize = (.error r, l'))
    (hcause : ∃ text, r.cause = .numberOutOfRange text)
    (hbehind : ∀ r' ∈ errors, r.position < r'.position) : Settles source (Calls.answer tokenize l) (r :: errors) where
  refused := by
    intro i r' hr'
    cases i with
    | zero =>
      cases hr'
      exact congrArg Prod.fst hrun
    | succ i =>
      rw [Calls.answer_succ hrun]
      exact h.refused i r' hr'
  tooLarge := List.forall_mem_cons.2 ⟨hcause, h.tooLarge⟩
  rising := List.pairwise_cons.2 ⟨hbehind, h.rising⟩
  settled := by
    have hnext : ∀ {i}, (r :: errors).length ≤ i → ∃ j, i = j + 1 ∧ errors.length ≤ j := by
      intro i hi
      exact ⟨i - 1, by rw [List.length_cons] at hi; omega, by rw [List.length_cons] at hi; omega⟩
    refine h.settled.imp ?_ ?_
    · rintro ⟨ts, hts, hend⟩
      refine ⟨ts, ?_, fun i hi => ?_⟩
      · rw [List.length_cons, Calls.answer_succ hrun]
        exact hts
      · obtain ⟨j, rfl, _⟩ := hnext hi.le
        rw [Calls.answer_succ hrun]
        exact hend j (by simpa using hi)
    · rintro ⟨c, position, hstray⟩
      refine ⟨c, position, fun i hi => ?_⟩
      obtain ⟨j, rfl, hj⟩ := hnext hi
      rw [Calls.answer_succ hrun]
      exact hstray j hj

/-- **Runs of one lexer settle.** The induction is on what is left of the source: a number that is out of range takes
some of it. -/
theorem settles (source : List Char) (l : Lexer) (h : l.In source) :
    ∃ errors, Settles source (Calls.answer tokenize l) errors ∧ ∀ r ∈ errors, l.position ≤ r.position := by
  generalize hleft : source.length - l.position = left
  induction left using Nat.strongRecOn generalizing l with
  | ind left ih =>
    have hexit := h.exits
    generalize hresult : l.tokenize.1 = result at hexit
    generalize hlexer : l.tokenize.2 = l' at hexit
    have hrun : l.tokenize = (result, l') := Prod.ext hresult hlexer
    have hin := hexit.isIn
    cases hexit with
    | finished ts => exact ⟨[], settles_finished hrun, by simp⟩
    | stray hdrop hblank hlex => exact ⟨[], settles_stray hrun ((tokenize_stray hblank hlex).trans hrun.symm), by simp⟩
    | @tooLarge position text hstart hlongest =>
      have hpos := hlongest.literal.length_pos
      have hstop := hlongest.stop_le
      have hless : source.length - (position + text.length) < left := by omega
      obtain ⟨errors, hsettles, hbehind⟩ := ih _ hless _ hin rfl
      refine ⟨_ :: errors, hsettles.cons hrun ⟨_, rfl⟩ fun r' hr' => ?_,
        List.forall_mem_cons.2 ⟨hstart, fun r' hr' => ?_⟩⟩
      · exact Nat.lt_of_lt_of_le (Nat.lt_add_of_pos_right hpos) (hbehind r' hr')
      · exact hstart.trans ((Nat.le_add_right _ _).trans (hbehind r' hr'))

theorem isIn_ofSource (s : String) : (ofSource s).In s.toList :=
  ⟨Nat.zero_le _, rfl⟩

/-- the lexer on a source after so many runs -/
def after (s : String) (i : Nat) : Lexer :=
  Calls.after tokenize (ofSource s) i

/-- what the run behind so many others gives -/
def outcome (s : String) (i : Nat) : Except Rejection (List Token) :=
  Calls.answer tokenize (ofSource s) i

theorem after_succ (s : String) (i : Nat) : after s (i + 1) = (after s i).tokenize.2 :=
  Calls.after_succ _ _ _

/-- a lexer stays in its source -/
theorem isIn_after (s : String) (i : Nat) : (after s i).In s.toList :=
  Calls.after_keeps (fun _ hl => hl.exits.isIn) (isIn_ofSource s) i

end Lexer

/-- **Runs of one lexer on a source settle.** They are rejected for finitely many numbers that are out of range, each
further on than the one before; then one run gives tokens and all further ones give the end marker at the end of the
source, or all runs are rejected for the same character in the same place. Each run gives what a new lexer gives on the
source from where the run before stopped, moved on by that offset: from the end of the source after tokens, from behind
the number after one that is out of range, from the character itself after one that begins no token. -/
theorem tokenize_settles (s : String) :
    (∃ errors, Lexer.Settles s.toList (Lexer.outcome s) errors) ∧
    (Lexer.after s 0).position = 0 ∧
    ∀ i, (Lexer.after s i).position ≤ s.length ∧
      Lexer.outcome s i =
        Lexer.shifted (Lexer.after s i).position (tokenize (String.ofList (s.toList.drop (Lexer.after s i).position))) ∧
      (Lexer.after s (i + 1)).position = Lexer.stopOf s.toList (Lexer.outcome s i) ∧
      ∀ text position, Lexer.outcome s i = .error ⟨.numberOutOfRange text, position⟩ →
        LongestLiteral (s.toList.drop position) text.toList := by
  obtain ⟨errors, hsettles, _⟩ := Lexer.settles s.toList _ (Lexer.isIn_ofSource s)
  refine ⟨⟨errors, hsettles⟩, rfl, fun i => ?_⟩
  have hin := Lexer.isIn_after s i
  refine ⟨?_, hin.tokenize_eq, ?_, fun text position hresult => hin.exits.longest hresult⟩
  · rw [← String.length_toList]
    exact hin.le
  · rw [Lexer.after_succ]
    exact hin.exits.position_eq

/-- a number that is out of range, and a character behind it that begins no token -/
def hugeThenStray : String :=
  String.ofList (hugeNumeral ++ [' ', '#', 'z'])

/-- the number is passed, and the character behind it is met again and again -/
theorem tokenize_settles_huge :
    Lexer.outcome hugeThenStray 0 = .error ⟨.numberOutOfRange (String.ofList hugeNumeral), 0⟩ ∧
    LongestLiteral hugeThenStray.toList hugeNumeral ∧
    (Lexer.after hugeThenStray 1).position = 311 ∧
    ∀ i, 1 ≤ i → Lexer.outcome hugeThenStray i = .error ⟨.unexpectedCharacter '#', 312⟩ := by
  have hsource : Lexer.ofSource hugeThenStray = ⟨0, hugeNumeral ++ [' ', '#', 'z']⟩ := by
    rw [Lexer.ofSource, hugeThenStray, String.toList_ofList]
  have hfirst : Lexer.outcome hugeThenStray 0 = .error ⟨.numberOutOfRange (String.ofList hugeNumeral), 0⟩ := by
    rw [Lexer.outcome, hsource]
    decide +kernel
  have hsecond : Lexer.outcome hugeThenStray 1 = .error ⟨.unexpectedCharacter '#', 312⟩ := by
    rw [Lexer.outcome, hsource]
    decide +kernel
  have hlength : hugeNumeral.length = 311 := by decide +kernel
  obtain ⟨⟨errors, hsettles⟩, _, hruns⟩ := tokenize_settles hugeThenStray
  obtain ⟨_, _, hstop, hlongest⟩ := hruns 0
  rw [hfirst] at hstop
  refine ⟨hfirst, ?_, ?_, fun i hi => hsettles.repeats hsecond hi⟩
  · have hnumber := hlongest _ _ hfirst
    rwa [List.drop_zero, String.toList_ofList] at hnumber
  · rw [hstop, Lexer.stopOf, String.length_ofList, hlength]

end EscapeTime
