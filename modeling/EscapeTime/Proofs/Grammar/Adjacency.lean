/-
What stands next to what in a phrase, and which delimiters match.

Facts about a phrase as a sequence of kinds, by induction on derivations:
- `derives_followed`: an operand begins behind every operator and every opening parenthesis. `Followed` says this of any
  sequence, so that it can be carried over from kinds to the characters they are written with.
- `derives_openAfter`: a phrase closes the parentheses that it opens, and no others.
- `derives_bars`: its bars are even in number.
-/
import EscapeTime.Proofs.Grammar.Derivation

namespace EscapeTime

/-! ## Something follows -/

/-- every item that opens is followed by one that begins -/
def Followed {α : Type} (opens begins : α → Bool) : List α → Prop
  | [] => True
  | a :: l => (opens a = true → ∃ b ∈ l.head?, begins b = true) ∧ Followed opens begins l

section Followed

variable {α : Type} {opens begins : α → Bool} {l₁ l₂ : List α}

theorem followed_append (h₁ : Followed opens begins l₁) (h₂ : Followed opens begins l₂) :
    Followed opens begins (l₁ ++ l₂) := by
  induction l₁ with
  | nil => exact h₂
  | cons a l ih =>
    refine ⟨fun ha => ?_, ih h₁.2⟩
    obtain ⟨b, hb, hbegins⟩ := h₁.1 ha
    exact ⟨b, by simp [List.head?_append, Option.mem_def.1 hb], hbegins⟩

theorem followed_of_append (h : Followed opens begins (l₁ ++ l₂)) : Followed opens begins l₂ := by
  induction l₁ with
  | nil => exact h
  | cons a l ih => exact ih h.2

/-- items that do not open need nothing behind them -/
theorem followed_of_closed (h : ∀ a ∈ l₁, opens a = false) : Followed opens begins l₁ := by
  induction l₁ with
  | nil => trivial
  | cons a l ih =>
    obtain ⟨ha, hl⟩ := List.forall_mem_cons.1 h
    exact ⟨fun hopens => by simp [ha] at hopens, ih hl⟩

theorem followed_close {a : α} (ha : opens a = false) (h : Followed opens begins l₁) :
    Followed opens begins (l₁ ++ [a]) :=
  followed_append h (followed_of_closed (by simpa using ha))

end Followed

namespace Grammar

/-- an operand has to follow -/
def opensOperand : Kind → Bool
  | .plus | .minus | .star | .slash | .caret | .leftParen => true
  | _ => false

theorem derives_begins {p : Phrase} {ks : List Kind} {ds : List Nat} {e : Expr} (h : Derives p ks ds e)
    (rest : List Kind) : ∃ k ∈ (ks ++ rest).head?, Phrase.sum.mayBegin k = true := by
  obtain ⟨k, ks', rfl, hk⟩ := derives_head h
  exact ⟨k, rfl, Phrase.mayBegin_sum hk⟩

/-- signs in front of a phrase: each is followed by the next one or by the phrase -/
theorem followed_signs {ks run : List Kind} (hrun : ∀ k ∈ run, k = .plus ∨ k = .minus)
    (hhead : ∃ k ∈ ks.head?, Phrase.sum.mayBegin k = true)
    (hks : Followed opensOperand Phrase.sum.mayBegin ks) : Followed opensOperand Phrase.sum.mayBegin (run ++ ks) := by
  induction run with
  | nil => exact hks
  | cons k run ih =>
    obtain ⟨_, hrun'⟩ := List.forall_mem_cons.1 hrun
    refine ⟨fun _ => ?_, ih hrun'⟩
    cases run with
    | nil => exact hhead
    | cons k' run =>
      have hsign := isSign_of_mem hrun k' (by simp)
      exact ⟨k', rfl, by simp [Phrase.mayBegin, hsign]⟩

/-- an operand begins behind every operator and every opening parenthesis of a phrase -/
theorem derives_followed {p : Phrase} {ks : List Kind} {ds : List Nat} {e : Expr} (h : Derives p ks ds e) :
    Followed opensOperand Phrase.sum.mayBegin ks := by
  induction h with
  | sumFirst _ ih | productFirst _ ih | unaryPlain _ ih | powerFirst _ ih | exponentPlain _ ih => exact ih
  | sumNext op _ _ hr ihl ihr | productNext op _ _ hr ihl ihr =>
    exact followed_append ihl ⟨fun _ => by simpa using derives_begins hr [], ihr⟩
  | powerNext _ hr ihl ihr =>
    exact followed_append ihl ⟨fun _ => by simpa using derives_begins hr [], ihr⟩
  | unarySigned run _ hrun h ih | exponentSigned run _ hrun h ih =>
    exact followed_signs hrun (by simpa using derives_begins h []) ih
  | number x => exact followed_of_closed (by simp [opensOperand])
  | var v => exact followed_of_closed (by simp [opensOperand])
  | call f h ih =>
    have hclose := followed_close (a := Kind.rightParen) rfl ih
    exact ⟨fun hname => by simp [opensOperand] at hname, fun _ => derives_begins h _, hclose⟩
  | parens h ih =>
    have hclose := followed_close (a := Kind.rightParen) rfl ih
    exact ⟨fun _ => derives_begins h _, hclose⟩
  | bars h ih =>
    have hclose := followed_close (a := Kind.pipe) rfl ih
    exact ⟨fun hbar => by simp [opensOperand] at hbar, hclose⟩

/-! ## Delimiters match -/

/-- how many parentheses are open behind the kinds when `d` are open in front; none if one closes too many -/
def openAfter (d : Nat) : List Kind → Option Nat
  | [] => some d
  | k :: ks =>
    if k = .leftParen then openAfter (d + 1) ks
    else if k = .rightParen then if d = 0 then none else openAfter (d - 1) ks
    else openAfter d ks

theorem openAfter_other {k : Kind} (hl : k ≠ .leftParen) (hr : k ≠ .rightParen) (d : Nat) (ks : List Kind) :
    openAfter d (k :: ks) = openAfter d ks := by
  rw [openAfter, if_neg hl, if_neg hr]

theorem openAfter_operator (op : BinaryOp) (d : Nat) (ks : List Kind) :
    openAfter d (operatorKind op :: ks) = openAfter d ks := by
  cases op <;> rfl

theorem openAfter_signs {run : List Kind} (hrun : ∀ k ∈ run, k = .plus ∨ k = .minus) (d : Nat) (ks : List Kind) :
    openAfter d (run ++ ks) = openAfter d ks := by
  induction run with
  | nil => rfl
  | cons k run ih =>
    obtain ⟨hk, hrun'⟩ := List.forall_mem_cons.1 hrun
    rw [List.cons_append, openAfter_other (by rcases hk with rfl | rfl <;> decide)
      (by rcases hk with rfl | rfl <;> decide), ih hrun']

/-- a phrase closes the parentheses that it opens, and no others -/
theorem derives_openAfter {p : Phrase} {ks : List Kind} {ds : List Nat} {e : Expr} (h : Derives p ks ds e) :
    ∀ d rest, openAfter d (ks ++ rest) = openAfter d rest := by
  induction h with
  | sumFirst _ ih | productFirst _ ih | unaryPlain _ ih | powerFirst _ ih | exponentPlain _ ih => exact ih
  | sumNext op _ _ _ ihl ihr | productNext op _ _ _ ihl ihr =>
    intro d rest
    rw [List.append_assoc, List.cons_append, ihl, openAfter_operator, ihr]
  | powerNext _ _ ihl ihr =>
    intro d rest
    rw [List.append_assoc, List.cons_append, ihl, openAfter_other (by decide) (by decide), ihr]
  | unarySigned run _ hrun _ ih | exponentSigned run _ hrun _ ih =>
    intro d rest
    rw [List.append_assoc, openAfter_signs hrun, ih]
  | number x => exact fun _ _ => rfl
  | var v => exact fun _ _ => rfl
  | call f _ ih =>
    intro d rest
    simp [openAfter, ih]
  | parens _ ih =>
    intro d rest
    simp [openAfter, ih]
  | bars _ ih =>
    intro d rest
    simp [openAfter, ih]

theorem derives_bars {p : Phrase} {ks : List Kind} {ds : List Nat} {e : Expr} (h : Derives p ks ds e) :
    ks.count .pipe % 2 = 0 := by
  have hop : ∀ op, operatorKind op ≠ .pipe := by rintro (_ | _ | _ | _ | _) <;> decide
  induction h with
  | sumFirst _ ih | productFirst _ ih | unaryPlain _ ih | powerFirst _ ih | exponentPlain _ ih => exact ih
  | sumNext op _ _ _ ihl ihr | productNext op _ _ _ ihl ihr =>
    rw [List.count_append, List.count_cons_of_ne (hop op)]
    omega
  | powerNext _ _ ihl ihr =>
    rw [List.count_append, List.count_cons_of_ne (by decide)]
    omega
  | unarySigned run _ hrun _ ih | exponentSigned run _ hrun _ ih =>
    have hnone : run.count .pipe = 0 := List.count_eq_zero.2 fun hmem => by rcases hrun _ hmem with h | h <;> cases h
    rw [List.count_append, hnone]
    omega
  | number x => simp
  | var v => simp
  | call f _ ih => simpa using ih
  | parens _ ih => simpa using ih
  | bars _ ih =>
    simp only [List.count_append, List.cons_append, List.count_cons_self, List.count_nil]
    omega

end Grammar

end EscapeTime
