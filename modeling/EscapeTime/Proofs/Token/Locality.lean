/-
What a run of the lexer depends on.

The offset at which a run starts shows only in the offsets it reports (`scan_shift`). A text that no token runs on into
is read as if nothing stood in front of it, and the text in front as if nothing followed (`scan_append`). No token runs
on into a blank, so texts with blanks between them are read one by one:

- `tokenize_across_blanks`: the tokens of the one, then those of the other, moved on; or the first of their rejections.
-/
import EscapeTime.Proofs.Token.Tiling

namespace EscapeTime

/-- the token, `n` characters further on -/
def Token.shift (n : Nat) (t : Token) : Token :=
  { t with position := t.position + n }

/-- the rejection, `n` characters further on -/
def Rejection.shift (n : Nat) (r : Rejection) : Rejection :=
  { r with position := r.position + n }

namespace Lexer

/-- what a run gives, `n` characters further on -/
def shifted (n : Nat) : Except Rejection (List Token) → Except Rejection (List Token)
  | .ok ts => .ok (ts.map (Token.shift n))
  | .error r => .error (r.shift n)

/-- what two runs give, one behind the other: the first end marker is left out, and the first rejection counts -/
def joined (first second : Except Rejection (List Token)) : Except Rejection (List Token) :=
  match first with
  | .ok ts => second.map (ts.dropLast ++ ·)
  | .error r => .error r

theorem shifted_map_cons (n : Nat) (t : Token) (result : Except Rejection (List Token)) :
    shifted n (result.map (t :: ·)) = (shifted n result).map (t.shift n :: ·) := by
  cases result <;> rfl

/-- one token more in front of a run that gives an end marker at least -/
theorem joined_map_cons {t : Token} {first second : Except Rejection (List Token)} (h : first ≠ .ok []) :
    joined (first.map (t :: ·)) second = (joined first second).map (t :: ·) := by
  cases first with
  | error r => rfl
  | ok ts =>
    have hne : ts ≠ [] := fun hts => h (by rw [hts])
    cases second with
    | error r => rfl
    | ok us => simp only [joined, Except.map, List.dropLast_cons_of_ne_nil hne, List.cons_append]

/-! ## Runs -/

/-- a run that starts further on reports offsets that are further on, and is the same otherwise -/
theorem scan_shift (n position : Nat) (source : List Char) :
    (scan (position + n) source).1 = shifted n (scan position source).1 := by
  fun_induction scan position source with
  | case1 position =>
    rw [scan]
    rfl
  | case2 position c rest hblank ih =>
    rw [scan, if_pos hblank, Nat.add_right_comm, ih]
  | case3 position c rest hblank kind tail hlex next ih =>
    rw [scan, if_neg hblank, hlex]
    have hnext : position + n + 1 + tail.length = position + 1 + tail.length + n := by omega
    simp only [hnext, ih, shifted_map_cons]
    rfl
  | case4 position c rest hblank tail hlex =>
    rw [scan, if_neg hblank, hlex]
    rfl
  | case5 position c rest hblank hlex =>
    rw [scan, if_neg hblank, hlex]
    rfl

theorem scan_ne_nil (position : Nat) (source : List Char) : (scan position source).1 ≠ .ok [] := by
  intro h
  obtain ⟨tokens, eof, hnil, _⟩ := spells_of_scan position source [] h
  simp at hnil

/-- a text that no token runs on into is read on its own, and so is the text in front of it -/
theorem scan_append {rest : List Char} (hrest : Separated rest) (position : Nat) (text : List Char) :
    (scan position (text ++ rest)).1 = joined (scan position text).1 (scan (position + text.length) rest).1 := by
  fun_induction scan position text with
  | case1 position =>
    rw [List.nil_append, List.length_nil, Nat.add_zero]
    cases h : (scan position rest).1 <;> simp [joined, Except.map]
  | case2 position c text hblank ih =>
    rw [List.cons_append, scan, if_pos hblank, ih, List.length_cons, Nat.add_assoc, Nat.add_comm 1]
  | case3 position c text hblank kind tail hlex next ih =>
    have htail : tail.length ≤ text.length := by
      have htext := lexeme_prefix hlex
      have hsplit := congrArg List.length htext
      rw [List.length_append] at hsplit
      omega
    have hstop : position + 1 + tail.length + (text.drop tail.length).length = position + (c :: text).length := by
      rw [List.length_drop, List.length_cons]
      omega
    rw [hstop] at ih
    rw [List.cons_append, scan, if_neg hblank, lexeme_append c text hrest, hlex]
    simp only [List.drop_append_of_le_length htail, ih]
    exact (joined_map_cons (scan_ne_nil _ _)).symm
  | case4 position c text hblank tail hlex =>
    rw [List.cons_append, scan, if_neg hblank, lexeme_append c text hrest, hlex]
    rfl
  | case5 position c text hblank hlex =>
    rw [List.cons_append, scan, if_neg hblank, lexeme_append c text hrest, hlex]
    rfl

theorem scan_blanks {w : List Char} (hw : ∀ c ∈ w, Blank c) (position : Nat) (source : List Char) :
    scan position (w ++ source) = scan (position + w.length) source := by
  induction w generalizing position with
  | nil => rfl
  | cons c w ih =>
    obtain ⟨hc, hw⟩ := List.forall_mem_cons.1 hw
    rw [List.cons_append, scan, if_pos ((isBlank_iff c).2 hc), ih hw, List.length_cons, Nat.add_assoc, Nat.add_comm 1]

end Lexer

/-! ## Blanks between texts -/

theorem Blank.separated {c : Char} (h : Blank c) (rest : List Char) : Separated (c :: rest) := by
  intro d hd
  obtain rfl : c = d := by simpa using hd
  rcases h with rfl | rfl | rfl | rfl <;> decide

theorem separated_of_blanks {w : List Char} (hne : w ≠ []) (hw : ∀ c ∈ w, Blank c) (rest : List Char) :
    Separated (w ++ rest) := by
  obtain ⟨c, w, rfl⟩ := List.exists_cons_of_ne_nil hne
  exact (hw c List.mem_cons_self).separated (w ++ rest)

theorem tokenize_joined {w : String} (hne : w ≠ "") (hw : ∀ c ∈ w.toList, Blank c) (a b : String) :
    tokenize (a ++ w ++ b) = Lexer.joined (tokenize a) (Lexer.shifted (a.length + w.length) (tokenize b)) := by
  have hsep : Separated (w.toList ++ b.toList) := separated_of_blanks (by simpa using hne) hw b.toList
  have htext : (a ++ w ++ b).toList = a.toList ++ (w.toList ++ b.toList) := by simp
  calc tokenize (a ++ w ++ b)
      = (Lexer.scan 0 (a.toList ++ (w.toList ++ b.toList))).1 := by rw [← htext]; rfl
    _ = Lexer.joined (tokenize a) (Lexer.scan (0 + a.toList.length) (w.toList ++ b.toList)).1 :=
      Lexer.scan_append hsep 0 a.toList
    _ = Lexer.joined (tokenize a) (Lexer.scan (0 + (a.length + w.length)) b.toList).1 := by
      rw [Lexer.scan_blanks hw, Nat.add_assoc]
      simp only [String.length_toList]
    _ = Lexer.joined (tokenize a) (Lexer.shifted (a.length + w.length) (tokenize b)) := by
      rw [Lexer.scan_shift]
      rfl

/-- **Texts with blanks between them are read one by one.** If the first is rejected, so is the whole, for the same
reason in the same place. Otherwise the tokens of the first come without their end marker, and behind them what the
second gives, tokens or rejection, moved on by the lengths of the first text and of the blanks. -/
theorem tokenize_across_blanks (a w b : String) (hne : w ≠ "") (hw : ∀ c ∈ w.toList, Blank c) :
    (∀ r, tokenize a = .error r → tokenize (a ++ w ++ b) = .error r) ∧
    ∀ ts, tokenize a = .ok ts → ∃ tokens eof, ts = tokens ++ [eof] ∧ eof.kind = .endOfInput ∧
      (∀ us, tokenize b = .ok us →
        tokenize (a ++ w ++ b) =
          .ok (tokens ++ us.map fun t => { t with position := t.position + (a.length + w.length) })) ∧
      ∀ r, tokenize b = .error r →
        tokenize (a ++ w ++ b) = .error { r with position := r.position + (a.length + w.length) } := by
  rw [tokenize_joined hne hw a b]
  refine ⟨fun r hr => by rw [hr]; rfl, fun ts hts => ?_⟩
  obtain ⟨tokens, eof, rfl, heof, _⟩ := spells_of_scan 0 a.toList ts hts
  refine ⟨tokens, eof, rfl, heof, fun us hus => ?_, fun r hr => ?_⟩
  · rw [hts, hus]
    simp only [Lexer.shifted, Lexer.joined, Except.map, List.dropLast_concat]
    rfl
  · rw [hts, hr]
    rfl

/-- the texts `z1` and `2.` would run together without the blanks; the point behind `2.` is rejected four characters on
-/
theorem tokenize_across_blanks_word :
    (" \n" ≠ "" ∧ ∀ c ∈ " \n".toList, Blank c) ∧
    tokenize "z1" = .ok [⟨.ident "z1", "z1", 0⟩, ⟨.endOfInput, "", 2⟩] ∧
    tokenize "2." = .ok [⟨.number .two, "2.", 0⟩, ⟨.endOfInput, "", 2⟩] ∧
    tokenize ("z1" ++ " \n" ++ "2.") = .ok [⟨.ident "z1", "z1", 0⟩, ⟨.number .two, "2.", 4⟩, ⟨.endOfInput, "", 6⟩] ∧
    tokenize "2.." = .error ⟨.unexpectedCharacter '.', 2⟩ ∧
    tokenize ("z1" ++ " \n" ++ "2..") = .error ⟨.unexpectedCharacter '.', 6⟩ := by
  have hw : ∀ c ∈ " \n".toList, Blank c := by simp [Blank]
  have ha : tokenize "z1" = .ok [⟨.ident "z1", "z1", 0⟩, ⟨.endOfInput, "", 2⟩] := by decide +kernel
  have hb : tokenize "2." = .ok [⟨.number .two, "2.", 0⟩, ⟨.endOfInput, "", 2⟩] := by decide +kernel
  have hr : tokenize "2.." = .error ⟨.unexpectedCharacter '.', 2⟩ := by decide +kernel
  obtain ⟨tokens, eof, heq, _, hok, _⟩ := (tokenize_across_blanks "z1" " \n" "2." (by decide) hw).2 _ ha
  obtain ⟨_, _, _, _, _, herror⟩ := (tokenize_across_blanks "z1" " \n" "2.." (by decide) hw).2 _ ha
  obtain rfl : tokens = [⟨.ident "z1", "z1", 0⟩] := (congrArg List.dropLast heq).trans List.dropLast_concat |>.symm
  exact ⟨⟨by decide, hw⟩, ha, hb, hok _ hb, hr, herror _ hr⟩

end EscapeTime
