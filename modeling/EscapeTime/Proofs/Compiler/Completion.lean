/-
The final "+ c", typed or added.

A text with " + c" behind it is the same equation with c added as its last step: the blank ends the last token, and a
sum may be gone on with whatever it is (`parse_plusConstant`). A compiler that completes equations builds the same tree,
so it makes no difference who adds the constant:

- `exists_complete_eq`: a completed equation adds c as its last step.
- `typed_eq_completed`: typing "+ c" and leaving it to the compiler give the same code, and all code that is shown ends
  in adding c.
-/
import EscapeTime.Proofs.Compiler.Shown
import EscapeTime.Proofs.Token.Concatenation
import EscapeTime.Settings.Basic

namespace EscapeTime

open Grammar

/-! ## Typed -/

theorem spells_plusConstant : Spells " + c".toList [.plus, .ident "c"] := by
  have hc : Spells "c".toList [.ident "c"] := spells_name (by decide : isName "c" = true) (by simp [Separated]) .nil
  exact .blank rfl (spells_symbol rfl (.blank rfl hc))

/-- two more tokens make the equation with c added, if there is room for them -/
theorem parse_plusConstant {s : String} {e : Expr} {tokens : List Token} (h : parse s = .ok e)
    (htokens : tokenize s = .ok tokens) (hlen : (tokens.takeWhile (·.kind != .endOfInput)).length ≤ 510) :
    parse (s ++ " + c") = .ok (.binary .add e (.var .c)) := by
  obtain ⟨ks, ds, hspells, _, hd, hds⟩ := (parse_ok_iff_spells s e).1 h
  have hc : Derives .product [.ident "c"] [0] (.var .c) := .productFirst (.unaryPlain (.powerFirst (.var .c)))
  refine (parse_ok_iff_spells _ _).2
    ⟨ks ++ [.plus, .ident "c"], ds ++ [0, 0], ?_, ?_, .sumNext .add (.inl rfl) hd hc, ?_⟩
  · rw [String.toList_append]
    exact spells_append hspells (separated_blank _) spells_plusConstant
  · rw [← kinds_of_tokenize hspells htokens]
    simpa using hlen
  · simpa [or_imp, forall_and] using hds

/-! ## Added -/

theorem Expr.endsWithConstant_iff (e : Expr) : e.endsWithConstant = true ↔ ∃ x, e = .binary .add x (.var .c) := by
  constructor
  · intro h
    unfold endsWithConstant at h
    split at h
    · exact ⟨_, rfl⟩
    · cases h
  · rintro ⟨x, rfl⟩
    rfl

namespace Compiler

/-- a completed equation adds c as its last step -/
theorem exists_complete_eq {k : Compiler} (hk : k.appendConstant = true) (e : Expr) :
    ∃ x, k.complete e = .binary .add x (.var .c) := by
  unfold complete
  cases hends : e.endsWithConstant with
  | true =>
    obtain ⟨x, rfl⟩ := e.endsWithConstant_iff.1 hends
    exact ⟨x, by simp⟩
  | false => exact ⟨e, by simp [hk]⟩

theorem complete_of_ends (k : Compiler) (e : Expr) :
    k.complete (.binary .add e (.var .c)) = .binary .add e (.var .c) := by
  simp [complete, Expr.endsWithConstant]

end Compiler

theorem Emitter.emit_plusConstant (m : Emitter) (e : Expr) :
    m.emit (.binary .add e (.var .c)) = "(" ++ m.emit e ++ " + " ++ m.bindings.constant ++ ")" :=
  rfl

/-- **Typing "+ c" and leaving it to the compiler are the same.** A text that is an equation, with two tokens to spare,
is with " + c" behind it the equation with c added. So for a compiler that completes equations, both texts are accepted
with the same code and helpers, unless the equation already ends in adding c; and whatever text is compiled, the code
shown is that of some tree with the constant added to it. -/
theorem typed_eq_completed (settings : Settings) :
    (∀ s e tokens, parse s = .ok e → tokenize s = .ok tokens →
      (tokens.takeWhile (·.kind != .endOfInput)).length ≤ 510 →
      parse (s ++ " + c") = .ok (.binary .add e (.var .c)) ∧
      (settings.appendConstant = true → e.endsWithConstant = false →
        ∃ r, settings.compiler.compileStrict (s ++ " + c") = .ok r ∧ settings.compiler.compileStrict s = .ok r)) ∧
    (settings.appendConstant = true → ∀ source, ∃ x, (settings.compiler.compile source).code =
      "(" ++ settings.compiler.emitter.emit x ++ " + " ++ settings.bindings.constant ++ ")") := by
  constructor
  · intro s e tokens h htokens hlen
    have htyped := parse_plusConstant h htokens hlen
    refine ⟨htyped, fun happend hends => ⟨_, Compiler.compileStrict_of_ok htyped _, ?_⟩⟩
    have hcomplete : settings.compiler.complete e = .binary .add e (.var .c) := by
      simp [Compiler.complete, Settings.compiler, happend, hends]
    rw [Compiler.compileStrict_of_ok h, hcomplete, Compiler.complete_of_ends]
  · intro happend source
    obtain ⟨e, hshown⟩ := settings.compiler.shown_eq_complete source
    obtain ⟨x, hx⟩ := Compiler.exists_complete_eq (k := settings.compiler) happend e
    refine ⟨x, ?_⟩
    rw [Compiler.compile_eq, hshown, hx]
    exact Emitter.emit_plusConstant _ x

/-- `2.*z ` ends in a blank and holds a numeral that ends in a point -/
theorem typed_eq_completed_product :
    (parse "2.*z " = .ok (.binary .mul (.number .two) (.var .z)) ∧
      tokenize "2.*z " =
        .ok [⟨.number .two, "2.", 0⟩, ⟨.star, "*", 2⟩, ⟨.ident "z", "z", 3⟩, ⟨.endOfInput, "", 5⟩]) ∧
    parse "2.*z  + c" = .ok (.binary .add (.binary .mul (.number .two) (.var .z)) (.var .c)) ∧
    (∃ r, ({} : Settings).compiler.compileStrict "2.*z  + c" = .ok r ∧
      ({} : Settings).compiler.compileStrict "2.*z " = .ok r) ∧
    ∃ x, (({} : Settings).compiler.compile "2.*z +").code =
      "(" ++ ({} : Settings).compiler.emitter.emit x ++ " + " ++ "c" ++ ")" := by
  have hparse : parse "2.*z " = .ok (.binary .mul (.number .two) (.var .z)) := by decide +kernel
  have htokens : tokenize "2.*z " =
      .ok [⟨.number .two, "2.", 0⟩, ⟨.star, "*", 2⟩, ⟨.ident "z", "z", 3⟩, ⟨.endOfInput, "", 5⟩] := by
    decide +kernel
  obtain ⟨htyped, hsame⟩ := (typed_eq_completed {}).1 _ _ _ hparse htokens (by decide)
  exact ⟨⟨hparse, htokens⟩, htyped, hsame rfl rfl, (typed_eq_completed {}).2 rfl "2.*z +"⟩

end EscapeTime
