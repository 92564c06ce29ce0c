import Mathlib.Logic.Basic
import Mathlib.Tactic.TypeStar

/-!
# `Lib.Run`: runs of an event-driven component

A component is a total step function `σ → ε → σ`. A run is the fold of the step function over
a list of events. `Along step P s es` says that each step of the run from `s` over `es` meets
`P`, a condition on the state before the step and on the event.

Most components of a firmware are such functions of an event: a callback, a byte from a line, a turn
of a loop. A property of all their runs is an invariant of one step (`run_inv`); one that compares
two components, or two runs of one component, is a relation that both steps keep (`run_sim`).

A condition on the steps of a run is `Along`. It speaks about the state before each step, so it can
exclude the step that goes wrong without a word on how the run goes on.

- `run_inv`: an invariant that every step under the condition keeps holds after a run whose
  steps all meet the condition.
- `along_congr`: conditions that the invariant makes equivalent hold along the same runs.
- `run_sim`: a relation between two components that every step keeps holds after a run of both.
- `along_mono`: a weaker condition holds along the same run.
- `along_fixed`: events that change nothing meet the condition together if each does.
-/

set_option autoImplicit false

namespace EventRun

variable {σ ε : Type*}

/-- The state after the events `es`, oldest first, from `s`. -/
def run (step : σ → ε → σ) (s : σ) (es : List ε) : σ := es.foldl step s

/-- Each step of the run from `s` over `es` meets `P`. -/
def Along (step : σ → ε → σ) (P : σ → ε → Prop) : σ → List ε → Prop
  | _, [] => True
  | s, e :: es => P s e ∧ Along step P (step s e) es

section Unfold
variable (step : σ → ε → σ) (P : σ → ε → Prop) (s : σ)

/-- Without events nothing happens. -/
@[simp] theorem run_nil : run step s [] = s := rfl

/-- The first event, and then the others. -/
@[simp] theorem run_cons (e : ε) (es : List ε) :
    run step s (e :: es) = run step (step s e) es := rfl

/-- Events in two parts lead to the same state. -/
@[simp] theorem run_append (es fs : List ε) :
    run step s (es ++ fs) = run step (run step s es) fs :=
  List.foldl_append

/-- Along no events every property holds. -/
@[simp] theorem along_nil : Along step P s [] := trivial

/-- Along some events it holds at the first, and along the others from there on. -/
@[simp] theorem along_cons (e : ε) (es : List ε) :
    Along step P s (e :: es) ↔ P s e ∧ Along step P (step s e) es := Iff.rfl

/-- A run over `es ++ fs` meets the condition iff both parts do. -/
@[simp] theorem along_append (es fs : List ε) :
    Along step P s (es ++ fs) ↔ Along step P s es ∧ Along step P (run step s es) fs := by
  induction es generalizing s with
  | nil => simp
  | cons e es ih => simp [ih, and_assoc]

/-- Every run meets the condition that holds always. -/
theorem along_true (es : List ε) : Along step (fun _ _ => True) s es := by
  induction es generalizing s with
  | nil => trivial
  | cons e es ih => exact ⟨trivial, ih _⟩

instance decidableAlong [∀ s e, Decidable (P s e)] :
    ∀ (s : σ) (es : List ε), Decidable (Along step P s es)
  | _, [] => isTrue trivial
  | s, e :: es =>
    have := decidableAlong (step s e) es
    inferInstanceAs (Decidable (P s e ∧ Along step P (step s e) es))

end Unfold

section Invariant
variable {step : σ → ε → σ} {P Q : σ → ε → Prop} {Inv : σ → Prop}

/-- An invariant that each step under the condition keeps holds after the run. -/
theorem run_inv (hstep : ∀ s e, Inv s → P s e → Inv (step s e)) {s : σ} (hs : Inv s) :
    ∀ {es : List ε}, Along step P s es → Inv (run step s es) := by
  intro es
  induction es generalizing s with
  | nil => intro _; exact hs
  | cons e es ih =>
    rintro ⟨he, hes⟩
    exact ih (hstep s e hs he) hes

/-- Two conditions that the invariant makes equivalent hold along the same runs. -/
theorem along_congr (hstep : ∀ s e, Inv s → P s e → Inv (step s e))
    (hiff : ∀ s e, Inv s → (P s e ↔ Q s e)) {s : σ} (hs : Inv s) (es : List ε) :
    Along step P s es ↔ Along step Q s es := by
  induction es generalizing s with
  | nil => exact Iff.rfl
  | cons e es ih =>
    rw [along_cons, along_cons, ← hiff s e hs]
    exact and_congr_right fun he => ih (hstep s e hs he)

/-- A weaker condition holds along the same run. -/
theorem along_mono (hPQ : ∀ s e, P s e → Q s e) {s : σ} {es : List ε}
    (h : Along step P s es) : Along step Q s es := by
  induction es generalizing s with
  | nil => trivial
  | cons e es ih => exact ⟨hPQ s e h.1, ih h.2⟩

/-- Events that change nothing meet the condition one by one. -/
theorem along_fixed {s : σ} {es : List ε} (h : ∀ e ∈ es, P s e ∧ step s e = s) :
    Along step P s es ∧ run step s es = s := by
  induction es with
  | nil => exact ⟨trivial, rfl⟩
  | cons e es ih =>
    obtain ⟨he, hs⟩ := h e List.mem_cons_self
    obtain ⟨hes, hrun⟩ := ih fun e he => h e (List.mem_cons_of_mem _ he)
    rw [along_cons, run_cons, hs]
    exact ⟨⟨he, hes⟩, hrun⟩

end Invariant

section Simulation
variable {τ : Type*} {stepA : σ → ε → σ} {stepB : τ → ε → τ} {R : σ → τ → Prop}
  {P : σ → ε → Prop}

/-- Two components that take the same events side by side stay related if each step under the
condition on the first one keeps them related. -/
theorem run_sim (hstep : ∀ s t e, R s t → P s e → R (stepA s e) (stepB t e)) {s : σ} {t : τ}
    (hst : R s t) : ∀ {es : List ε}, Along stepA P s es → R (run stepA s es) (run stepB t es) := by
  intro es
  induction es generalizing s t with
  | nil => intro _; exact hst
  | cons e es ih =>
    rintro ⟨he, hes⟩
    exact ih (hstep s t e hst he) hes

end Simulation

end EventRun
