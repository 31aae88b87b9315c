/-
A session is a function of its history.

Requests submit a text or only check one, in any number and order. `Follows` is what the texts submitted so far say
about a session; a submission keeps it (`submit_follows`), a check does not touch the session, so it holds after every
run (`run_follows`).

- `run_history`: the text submitted last alone fixes the text and the code now shown, and whether that code stands in
  for another one; the log holds the last of the texts that were rejected, each with its reason.
-/
import EscapeTime.Proofs.Compiler.Shown
import EscapeTime.Proofs.FailureLog.Window
import EscapeTime.Session

namespace EscapeTime

/-- what a session is asked to do -/
inductive Request where
  | submit (source : String)
  | check (source : String)
  deriving DecidableEq

namespace Request

/-- the text that is submitted -/
def submitted? : Request → Option String
  | submit source => some source
  | check _ => none

/-- the texts that are submitted, in order -/
def submitted (requests : List Request) : List String :=
  requests.filterMap submitted?

theorem submitted_cons (r : Request) (requests : List Request) :
    submitted (r :: requests) = r.submitted?.toList ++ submitted requests := by
  unfold submitted
  cases hr : r.submitted? <;> simp [hr]

end Request

/-! ## Failures -/

namespace Compiler

/-- the entry that a text leaves in the log -/
def failure? (k : Compiler) (source : String) : Option (Failure Rejection) :=
  match k.compileStrict source with
  | .ok _ => none
  | .error error => some ⟨source, error⟩

/-- the texts that are rejected, in order, each with its reason -/
def failed (k : Compiler) (texts : List String) : List (Failure Rejection) :=
  texts.filterMap k.failure?

theorem failure?_eq (k : Compiler) (source : String) :
    k.failure? source = (k.compile source).fallback.map fun error => ⟨source, error⟩ := by
  cases h : parse source with
  | ok e => simp only [failure?, compile_eq, rejection?, compileStrict_of_ok h, h, Option.map_none]
  | error r => simp only [failure?, compile_eq, rejection?, compileStrict_of_error h, h, Option.map_some]

theorem failed_concat (k : Compiler) (texts : List String) (source : String) :
    k.failed (texts ++ [source]) = k.failed texts ++ (k.failure? source).toList := by
  simp only [failed, List.filterMap_append]
  cases h : k.failure? source <;> simp [h]

end Compiler

/-! ## One request -/

namespace Session

/-- the session after a request, and what it answers: a check may give a warning -/
def handle (s : Session) : Request → Session × Option Warning
  | .submit source => (s.submit source, none)
  | .check source => (s, s.check source)

/-- the session after requests, in order -/
def run (s : Session) (requests : List Request) : Session :=
  requests.foldl (fun s r => (s.handle r).1) s

/-- what the texts submitted so far say about a session -/
structure Follows (settings : Settings) (texts : List String) (s : Session) : Prop where
  compiler : s.compiler = settings.compiler
  capacity : s.failures.capacity = settings.failureCapacity
  source : s.source = texts.getLastD "z^2 + c"
  current : s.current = settings.compiler.compile s.source
  window : s.failures.Window (settings.compiler.failed texts)

variable {settings : Settings} {texts : List String} {s : Session}

theorem start_follows (settings : Settings) : Follows settings [] (start settings) where
  compiler := rfl
  capacity := rfl
  source := rfl
  current := by
    simp only [start, Compiler.compile, Compiler.compileStrict_defaultText]
  window := FailureLog.window_withCapacity _

theorem submit_follows (h : Follows settings texts s) (source : String) :
    Follows settings (texts ++ [source]) (s.submit source) := by
  have hlog : (s.submit source).failures.capacity = s.failures.capacity ∧
      (s.submit source).failures.Window (settings.compiler.failed (texts ++ [source])) := by
    rw [Compiler.failed_concat, Compiler.failure?_eq]
    simp only [submit, h.compiler]
    cases (settings.compiler.compile source).fallback with
    | none => exact ⟨rfl, by simpa using h.window⟩
    | some error => exact ⟨FailureLog.capacity_push _ _ _, FailureLog.window_push h.window source error⟩
  exact
    { compiler := h.compiler
      capacity := hlog.1.trans h.capacity
      source := by simp [submit]
      current := by simp only [submit, h.compiler]
      window := hlog.2 }

theorem handle_follows (h : Follows settings texts s) (r : Request) :
    Follows settings (texts ++ r.submitted?.toList) (s.handle r).1 := by
  cases r with
  | submit source => exact submit_follows h source
  | check source => simpa [Request.submitted?, handle] using h

/-! ## Runs -/

theorem run_follows (h : Follows settings texts s) (requests : List Request) :
    Follows settings (texts ++ Request.submitted requests) (s.run requests) := by
  induction requests generalizing texts s with
  | nil => simpa [Request.submitted, run] using h
  | cons r requests ih =>
    rw [Request.submitted_cons, ← List.append_assoc]
    exact ih (handle_follows h r)

theorem run_append (s : Session) (before after : List Request) : s.run (before ++ after) = (s.run before).run after :=
  List.foldl_append

/-- the code shown is that of the text, or that of z^2 + c if the text is rejected -/
theorem Follows.shows (h : Follows settings texts s) :
    (∀ r, settings.compiler.compileStrict s.source = .ok r → s.current.code = r.code ∧ s.current.helpers = r.helpers) ∧
    ∀ error, settings.compiler.compileStrict s.source = .error error →
      ∃ r, settings.compiler.compileStrict "z^2 + c" = .ok r ∧ s.current.code = r.code ∧
        s.current.helpers = r.helpers := by
  constructor
  · intro r hr
    rw [h.current, Compiler.compile, hr]
    exact ⟨rfl, rfl⟩
  · intro error herror
    rw [h.current, Compiler.compile, herror]
    exact ⟨_, Compiler.compileStrict_defaultText _, rfl, rfl⟩

theorem Follows.showsFallback_iff (h : Follows settings texts s) :
    s.showsFallback = true ↔ ∃ error, parse s.source = .error error := by
  rw [showsFallback, h.current, Compiler.compile_eq, Emitted.isFallback, rejection?]
  cases parse s.source <;> simp

/-- **A session is a function of its history.** After any requests on a new session, the text is the last one submitted,
or z^2 + c if there is none; the code shown is what compiling this text alone gives, with the code and the helpers of
the text itself if it is accepted and those of z^2 + c if not; the session says that it shows a stand-in exactly when
the text is no equation; the log holds the last of the texts that were rejected, as many as fit, each with the reason;
and a check makes no difference, wherever it stands. -/
theorem run_history (settings : Settings) (requests : List Request) :
    let s := (start settings).run requests
    let k := settings.compiler
    let failed := k.failed (Request.submitted requests)
    s.source = (Request.submitted requests).getLastD "z^2 + c" ∧
    s.current = k.compile s.source ∧
    (∀ r, k.compileStrict s.source = .ok r → s.current.code = r.code ∧ s.current.helpers = r.helpers) ∧
    (∀ error, k.compileStrict s.source = .error error →
      ∃ r, k.compileStrict "z^2 + c" = .ok r ∧ s.current.code = r.code ∧ s.current.helpers = r.helpers) ∧
    (s.showsFallback = true ↔ ∃ error, parse s.source = .error error) ∧
    s.failures.entries <:+ failed ∧
    s.failures.entries.length = min failed.length settings.failureCapacity ∧
    ∀ text later,
      (start settings).run (requests ++ .check text :: later) = (start settings).run (requests ++ later) := by
  intro s k failed
  have h : Follows settings (Request.submitted requests) s := run_follows (start_follows settings) requests
  refine ⟨h.source, h.current, h.shows.1, h.shows.2, h.showsFallback_iff, h.window.suffix, ?_, fun text later => ?_⟩
  · rw [h.window.length, h.capacity]
  · rw [run_append, run_append]
    rfl

end Session

end EscapeTime
