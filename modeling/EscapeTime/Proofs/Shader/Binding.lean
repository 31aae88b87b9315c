/-
How the code of an equation depends on the names of the variables.

Where one name is left open, code is a text with holes, and the name is put into all of them at once. `Holed fill n`
says this of a function `fill` from texts to texts, by how the text is put together.

- `Holed.injective`: a text with holes tells apart what is put into them. The lengths of two texts put in must agree, as
  each counts once for every hole; then the first hole shows them at the same place.
- `holed_code`: the code of a computation has a hole for each mention of a variable.
- `mentions_ofExpr_pos_iff`: an equation mentions the variables that it refers to, however its powers are written.
- `emit_eq_iff_references`: so a name shows in the code exactly when the equation refers to its variable.
-/
import EscapeTime.Proofs.Compiler.Completion
import EscapeTime.Proofs.Shader.Size

namespace EscapeTime

/-! ## Texts with holes -/

namespace Text

/-- `fill s` is a text with `s` in each of its `n` holes -/
inductive Holed : (fill : List Char → List Char) → (n : Nat) → Prop where
  | plain (w : List Char) : Holed (fun _ => w) 0
  | hole : Holed (fun s => s) 1
  | append {f g m n} : Holed f m → Holed g n → Holed (fun s => f s ++ g s) (m + n)

variable {f g : List Char → List Char} {m n : Nat} {s t : List Char}

theorem Holed.congr (h : Holed f n) (heq : ∀ s, g s = f s) : Holed g n :=
  funext heq ▸ h

/-- a holed text between two plain ones -/
theorem Holed.enclosed (a b : List Char) (h : Holed f n) : Holed (fun s => a ++ f s ++ b) n := by
  simpa using ((Holed.plain a).append h).append (Holed.plain b)

/-- two holed texts between plain ones -/
theorem Holed.pair (a b c : List Char) (hf : Holed f m) (hg : Holed g n) :
    Holed (fun s => a ++ f s ++ b ++ g s ++ c) (m + n) := by
  simpa using ((hf.enclosed a b).append hg).append (Holed.plain c)

/-- what is put in counts once for each hole -/
theorem Holed.length_add (h : Holed f n) (s t : List Char) :
    (f s).length + n * t.length = (f t).length + n * s.length := by
  induction h with
  | plain w => simp
  | hole => simp [Nat.add_comm]
  | append _ _ ihf ihg =>
    simp only [List.length_append, Nat.add_mul]
    omega

theorem Holed.eq_of_no_hole (h : Holed f n) (hn : n = 0) (s t : List Char) : f s = f t := by
  induction h with
  | plain w => rfl
  | hole => cases hn
  | append _ _ ihf ihg =>
    have hf := ihf (by omega)
    have hg := ihg (by omega)
    simp only [hf, hg]

/-- texts of the same length leave every part of the whole at its place -/
theorem Holed.eq_of_length (h : Holed f n) (hn : 0 < n) (hlength : s.length = t.length) (heq : f s = f t) : s = t := by
  induction h with
  | plain w => omega
  | hole => exact heq
  | @append f g m n hf hg ihf ihg =>
    have hfront : (f s).length = (f t).length := by
      have := hf.length_add s t
      rw [hlength] at this
      omega
    obtain ⟨heqf, heqg⟩ := List.append_inj heq hfront
    rcases Nat.eq_zero_or_pos m with hm | hm
    · exact ihg (by omega) heqg
    · exact ihf hm heqf

theorem Holed.injective (h : Holed f n) (hn : 0 < n) (heq : f s = f t) : s = t := by
  refine h.eq_of_length hn ?_ heq
  have hlengths := h.length_add s t
  rw [heq] at hlengths
  exact (Nat.eq_of_mul_eq_mul_left hn (Nat.add_left_cancel hlengths)).symm

end Text

/-! ## Code with one name left open -/

/-- the names with another one for a variable -/
def Bindings.rename (b : Bindings) (v : Variable) (text : String) : Bindings :=
  match v with
  | .z => { b with iterate := text }
  | .c => { b with constant := text }
  | .n => { b with power := text }

theorem Bindings.text_rename (b : Bindings) (v : Variable) (text : String) (w : Variable) :
    (b.rename v text).text w = if w = v then text else b.text w := by
  cases v <;> cases w <;> rfl

theorem Bindings.ext_text {b b' : Bindings} (h : ∀ v, b.text v = b'.text v) : b = b' := by
  obtain ⟨iterate, constant, power⟩ := b
  obtain ⟨iterate', constant', power'⟩ := b'
  have hz : iterate = iterate' := h .z
  have hc : constant = constant' := h .c
  have hn : power = power' := h .n
  rw [hz, hc, hn]

namespace Computation

open Text (Holed)

/-- how often the variable occurs -/
def mentions (v : Variable) : Computation → Nat
  | var w => if w = v then 1 else 0
  | number _ => 0
  | neg a | abs a | conj a | apply _ a => a.mentions v
  | add a b | sub a b | mul a b | div a b | pow a b => a.mentions v + b.mentions v

/-- the code with the name of one variable left open -/
def opened (names : Bindings) (v : Variable) (a : Computation) (s : List Char) : List Char :=
  (a.code (names.rename v (String.ofList s))).toList

/-- a call with two arguments -/
theorem holed_call2 (h : Helper) {names : Bindings} {v : Variable} {a b : Computation} {m n : Nat}
    (ha : Holed (a.opened names v) m) (hb : Holed (b.opened names v) n) :
    Holed (fun s =>
        (call2 h (a.code (names.rename v (String.ofList s))) (b.code (names.rename v (String.ofList s)))).toList)
      (m + n) :=
  (Holed.pair (h.name ++ "(").toList ", ".toList ")".toList ha hb).congr fun s => by
    simp only [opened, call2, String.toList_append]

/-- the code has a hole for each mention of the variable -/
theorem holed_code (names : Bindings) (v : Variable) (a : Computation) : Holed (a.opened names v) (a.mentions v) := by
  induction a with
  | var w =>
    by_cases hw : w = v
    · rw [mentions, if_pos hw]
      exact Holed.hole.congr fun s => by simp [opened, code, Bindings.text_rename, hw]
    · rw [mentions, if_neg hw]
      exact (Holed.plain (names.text w).toList).congr fun s => by simp [opened, code, Bindings.text_rename, hw]
  | number x => exact (Holed.plain (code names (number x)).toList).congr fun s => rfl
  | neg a ih =>
    exact (ih.enclosed "(-".toList ")".toList).congr fun s => by simp only [opened, code, String.toList_append]
  | abs a ih =>
    exact (ih.enclosed "abs(".toList ")".toList).congr fun s => by simp only [opened, code, String.toList_append]
  | conj a ih =>
    exact (ih.enclosed "(".toList " * vec2(1.0, -1.0))".toList).congr fun s => by
      simp only [opened, code, String.toList_append]
  | add a b iha ihb =>
    exact (Holed.pair "(".toList " + ".toList ")".toList iha ihb).congr fun s => by
      simp only [opened, code, String.toList_append]
  | sub a b iha ihb =>
    exact (Holed.pair "(".toList " - ".toList ")".toList iha ihb).congr fun s => by
      simp only [opened, code, String.toList_append]
  | mul a b iha ihb | div a b iha ihb | pow a b iha ihb => exact holed_call2 _ iha ihb
  | apply g a ih =>
    exact (ih.enclosed (g.helper.name ++ "(").toList ")".toList).congr fun s => by
      simp only [opened, code, call1, String.toList_append]

theorem mentions_applied (v : Variable) (f : Func) (a : Computation) : (applied f a).mentions v = a.mentions v := by
  cases f <;> rfl

/-- an equation mentions the variables that it refers to: a base is written at least once, and what is left out is a
number -/
theorem mentions_ofExpr_pos_iff (expand : Bool) (v : Variable) (e : Expr) :
    0 < (ofExpr expand e).mentions v ↔ e.references v = true := by
  induction e with
  | var w => by_cases hw : w = v <;> simp [ofExpr, mentions, Expr.references, hw]
  | number x => simp [ofExpr, mentions, Expr.references]
  | unary sign e ih => cases sign <;> exact ih
  | binary op l r ihl ihr =>
    rw [Expr.references, Bool.or_eq_true, ← ihl, ← ihr]
    cases op with
    | add | sub | mul | div =>
      simp only [ofExpr, mentions]
      omega
    | pow =>
      rw [ofExpr, powered]
      cases hpower : Expr.smallPower? expand l r with
      | none =>
        simp only [mentions]
        omega
      | some p =>
        obtain ⟨_, _, rfl⟩ := Expr.smallPower?_eq_some_iff.1 hpower
        have hnumber : (ofExpr expand (.number p.exponent)).mentions v = 0 := rfl
        rw [hnumber]
        cases p <;> simp only [mentions] <;> omega
  | call f e ih =>
    rw [ofExpr, mentions_applied]
    exact ih
  | modulus e ih => exact ih

/-- two names for a variable give the same code exactly when the variable is not mentioned -/
theorem code_eq_iff {b b' : Bindings} {v : Variable} (hothers : ∀ w, w ≠ v → b.text w = b'.text w)
    (hdiffer : b.text v ≠ b'.text v) (a : Computation) : a.code b = a.code b' ↔ a.mentions v = 0 := by
  have hopened : ∀ names : Bindings, (∀ w, w ≠ v → b.text w = names.text w) →
      (a.code names).toList = a.opened b v (names.text v).toList := by
    intro names hnames
    have hrename : names = b.rename v (names.text v) := by
      refine Bindings.ext_text fun w => ?_
      rw [Bindings.text_rename]
      split_ifs with hw
      · rw [hw]
      · exact (hnames w hw).symm
    rw [opened, String.ofList_toList, ← hrename]
  have hholed := holed_code b v a
  rw [← String.toList_inj, hopened b fun _ _ => rfl, hopened b' hothers]
  constructor
  · intro heq
    by_contra hmentioned
    exact hdiffer (String.toList_inj.1 (hholed.injective (Nat.pos_of_ne_zero hmentioned) heq))
  · exact fun hnone => hholed.eq_of_no_hole hnone _ _

end Computation

/-- **A name shows in the code exactly when the equation refers to its variable.** Let two choices of names differ for
one variable only. Then an equation has the same code with both exactly when it does not refer to that variable. So a
compiler that completes equations writes different code for different names of the constant, whatever the text, rejected
ones included. -/
theorem emit_eq_iff_references (b b' : Bindings) (v : Variable) (hothers : ∀ w, w ≠ v → b.text w = b'.text w)
    (hdiffer : b.text v ≠ b'.text v) :
    (∀ (expand : Bool) (e : Expr),
      (⟨b, expand⟩ : Emitter).emit e = (⟨b', expand⟩ : Emitter).emit e ↔ e.references v = false) ∧
    (v = .c → ∀ (expand : Bool) (source : String),
      ((⟨⟨b, expand⟩, true⟩ : Compiler).compile source).code ≠
        ((⟨⟨b', expand⟩, true⟩ : Compiler).compile source).code) := by
  have hemit : ∀ (expand : Bool) (e : Expr),
      (⟨b, expand⟩ : Emitter).emit e = (⟨b', expand⟩ : Emitter).emit e ↔ e.references v = false := by
    intro expand e
    rw [Emitter.emit, Emitter.emit, Emitter.computation, Emitter.computation,
      Computation.code_eq_iff hothers hdiffer, ← Bool.not_eq_true, ← Computation.mentions_ofExpr_pos_iff expand,
      Nat.pos_iff_ne_zero, not_not]
  refine ⟨hemit, ?_⟩
  rintro rfl expand source hsame
  let k : Compiler := ⟨⟨b, expand⟩, true⟩
  obtain ⟨e, he⟩ := k.shown_eq_complete source
  obtain ⟨x, hx⟩ := k.exists_complete_eq rfl e
  -- what is shown does not depend on the names, and it adds c
  have hshown : Compiler.shown ⟨⟨b', expand⟩, true⟩ source = k.shown source := rfl
  rw [Compiler.compile_eq, Compiler.compile_eq, hshown] at hsame
  have hunused := (hemit expand (k.shown source)).1 hsame
  rw [he, hx] at hunused
  simp [Expr.references] at hunused

/-- the constant by the name of the iterate, and by a name that holds it twice -/
def Bindings.shared : Bindings :=
  { constant := "z" }

def Bindings.doubled : Bindings :=
  { constant := "z + z" }

/-- `z^2` has the same code with both, `|c|^3` has not, and nor have the codes that stand in for `)(` -/
theorem emit_eq_iff_references_cube :
    ((∀ w, w ≠ .c → Bindings.shared.text w = Bindings.doubled.text w) ∧
      Bindings.shared.text .c ≠ Bindings.doubled.text .c) ∧
    (⟨.shared, true⟩ : Emitter).emit (.binary .pow (.var .z) (.number .two)) =
      (⟨.doubled, true⟩ : Emitter).emit (.binary .pow (.var .z) (.number .two)) ∧
    (⟨.shared, true⟩ : Emitter).emit (.binary .pow (.modulus (.var .c)) (.number .three)) ≠
      (⟨.doubled, true⟩ : Emitter).emit (.binary .pow (.modulus (.var .c)) (.number .three)) ∧
    ((⟨⟨.shared, false⟩, true⟩ : Compiler).compile ")(").code ≠
      ((⟨⟨.doubled, false⟩, true⟩ : Compiler).compile ")(").code := by
  have hothers : ∀ w, w ≠ Variable.c → Bindings.shared.text w = Bindings.doubled.text w := by
    intro w hw
    cases w with
    | z | n => rfl
    | c => exact absurd rfl hw
  have hdiffer : Bindings.shared.text .c ≠ Bindings.doubled.text .c := by decide
  obtain ⟨hemit, hcompile⟩ := emit_eq_iff_references .shared .doubled .c hothers hdiffer
  refine ⟨⟨hothers, hdiffer⟩, (hemit true _).2 rfl, fun hsame => ?_, hcompile rfl false ")("⟩
  have hunused := (hemit true _).1 hsame
  cases hunused

end EscapeTime
