import Mathlib.Logic.Function.Basic
import NucleoH743.Lib.Prog
import NucleoH743.Lib.Run

/-!
# `Lib.Threads`: preemptive threads on a shared object

Threads carry out requests, one at a time each. A request belongs to a party and is a program
over the operations that this party has on the shared object. Between any two operations of a
thread the other threads can do any number of theirs.

The threads are preemptive in the sense that any two of them interleave between two operations; an
operation itself is not divided. What is proved of all interleavings is proved of one operation and
of the end of a request (`step_obj`), as these are the only changes to the object.

- `step_obj`: an event changes the object by one operation, or by the end of a request.
- `step_parties`: a thread works for the parties of its own requests only.
- `run_alone`: a request that no other thread interrupts is the sequential run of its program.
-/

set_option autoImplicit false

namespace Threads

open EventRun

variable {T ι σ : Type} {γ : T → Type} {Op : ι → Type} {Res : (i : ι) → Op i → Type}

/-- A program in progress, with the party that it belongs to. -/
abbrev Job (ι : Type) (Op : ι → Type) (Res : (i : ι) → Op i → Type) : Type :=
  (i : ι) × Prog (Op i) (Res i) Unit

/-- What the threads run on. -/
structure Sys (T : Type) (γ : T → Type) (ι : Type) (Op : ι → Type) (Res : (i : ι) → Op i → Type)
    (σ : Type) where
  /-- the request as a program of its party -/
  job : (t : T) → γ t → Job ι Op Res
  /-- an operation of a party on the object -/
  handle : (i : ι) → (o : Op i) → σ → Res i o × σ
  /-- the object when a request of a party has returned -/
  finish : ι → σ → σ

/-- The threads and the object. -/
structure State (T ι : Type) (Op : ι → Type) (Res : (i : ι) → Op i → Type) (σ : Type) where
  running : T → Option (Job ι Op Res)
  obj : σ

/-- What can happen next. -/
inductive Event (T : Type) (γ : T → Type) where
  /-- the thread begins a request -/
  | start (t : T) (c : γ t)
  /-- the thread goes on, by one operation or to the end of its request -/
  | exec (t : T)

variable [DecidableEq T]

/-- The thread goes on. -/
def execThread (S : Sys T γ ι Op Res σ) (s : State T ι Op Res σ) (t : T) :
    Job ι Op Res → State T ι Op Res σ
  | ⟨i, .ret _⟩ => { running := Function.update s.running t none, obj := S.finish i s.obj }
  | ⟨i, .op o k⟩ =>
    let r := S.handle i o s.obj
    { running := Function.update s.running t (some ⟨i, k r.1⟩), obj := r.2 }

/-- One step. An event that cannot happen changes nothing. -/
def step (S : Sys T γ ι Op Res σ) (s : State T ι Op Res σ) : Event T γ → State T ι Op Res σ
  | .start t c =>
    if (s.running t).isNone then
      { s with running := Function.update s.running t (some (S.job t c)) }
    else s
  | .exec t =>
    match s.running t with
    | some j => execThread S s t j
    | none => s

/-- The operation that the event carries out, with its party. -/
def operation (s : State T ι Op Res σ) : Event T γ → Option ((i : ι) × Op i)
  | .start _ _ => none
  | .exec t =>
    match s.running t with
    | some ⟨i, .op o _⟩ => some ⟨i, o⟩
    | _ => none

section Step
variable (S : Sys T γ ι Op Res σ) {s : State T ι Op Res σ}

omit [DecidableEq T] in
/-- A carried out operation is the one that its thread has come to. -/
theorem operation_eq_some {e : Event T γ} {i : ι} {o : Op i} (h : operation s e = some ⟨i, o⟩) :
    ∃ t k, e = .exec t ∧ s.running t = some ⟨i, .op o k⟩ := by
  cases e with
  | start t c => cases h
  | exec t =>
    dsimp only [operation] at h
    split at h
    · rename_i i' o' k hrun
      cases h
      exact ⟨t, k, rfl, hrun⟩
    · cases h

/-- An event that carries out an operation changes the object by it. -/
theorem step_operation {e : Event T γ} {i : ι} {o : Op i} (h : operation s e = some ⟨i, o⟩) :
    (step S s e).obj = (S.handle i o s.obj).2 := by
  obtain ⟨t, k, rfl, hrun⟩ := operation_eq_some h
  simp only [step, hrun, execThread]

/-- Any other event leaves the object alone, or ends a request. The end of a request is the only
other moment at which the object is touched. -/
theorem step_obj {e : Event T γ} (h : operation s e = none) :
    (step S s e).obj = s.obj ∨ ∃ i, (step S s e).obj = S.finish i s.obj := by
  cases e with
  | start t c =>
    left
    dsimp only [step]
    split_ifs <;> rfl
  | exec t =>
    dsimp only [step]
    cases hrun : s.running t with
    | none => exact .inl rfl
    | some j =>
      obtain ⟨i, _ | ⟨o, k⟩⟩ := j
      · exact .inr ⟨i, rfl⟩
      · simp [operation, hrun] at h

/-- A thread that has not returned goes on only by itself. A start needs a thread without a job, and
a step of another thread does not touch this one. -/
theorem step_running {t : T} {j : Job ι Op Res} (h : s.running t = some j) (e : Event T γ) :
    (step S s e).running t = some j ∨ e = .exec t := by
  cases e with
  | start t' c =>
    left
    dsimp only [step]
    split_ifs with hidle
    · have hne : t ≠ t' := by
        rintro rfl
        simp [h] at hidle
      exact (Function.update_of_ne hne _ _).trans h
    · exact h
  | exec t' =>
    by_cases ht : t' = t
    · exact .inr (congrArg Event.exec ht)
    · left
      dsimp only [step]
      cases hrun : s.running t' with
      | none => exact h
      | some j' =>
        obtain ⟨i, _ | ⟨o, k⟩⟩ := j' <;>
          simp only [execThread, Function.update_of_ne (Ne.symm ht), h]

/-- Each thread works for parties that `R` allows it. -/
def Parties (R : T → ι → Prop) (running : T → Option (Job ι Op Res)) : Prop :=
  ∀ t j, running t = some j → R t j.1

/-- One party may take another job, if the job is its own. -/
theorem Parties.update {R : T → ι → Prop} {running : T → Option (Job ι Op Res)}
    (h : Parties R running) {t : T} {j? : Option (Job ι Op Res)} (hj : ∀ j ∈ j?, R t j.1) :
    Parties R (Function.update running t j?) := by
  intro t' j hj'
  by_cases ht : t' = t
  · subst ht
    rw [Function.update_self] at hj'
    exact hj j hj'
  · rw [Function.update_of_ne ht] at hj'
    exact h t' j hj'

/-- A thread changes its party with a new request only. A thread that goes on keeps its party, and
one that returns has none. -/
theorem step_parties {R : T → ι → Prop} (hjob : ∀ t c, R t (S.job t c).1)
    (h : Parties R s.running) (e : Event T γ) : Parties R (step S s e).running := by
  cases e with
  | start t c =>
    dsimp only [step]
    split_ifs
    · refine h.update ?_
      rintro j ⟨⟩
      exact hjob t c
    · exact h
  | exec t =>
    dsimp only [step]
    cases hrun : s.running t with
    | none => exact h
    | some j =>
      have hparty : R t j.1 := h t j hrun
      obtain ⟨i, _ | ⟨o, k⟩⟩ := j
      · exact h.update (by simp)
      · refine h.update ?_
        rintro j ⟨⟩
        exact hparty

/-- A request that no other thread interrupts runs its program on the object. By induction on the
program. -/
theorem run_alone (t : T) (i : ι) (p : Prog (Op i) (Res i) Unit)
    (h : s.running t = some ⟨i, p⟩) :
    ∃ n, run (step S) s (List.replicate n (.exec t)) =
      { running := Function.update s.running t none
        obj := S.finish i (p.run (S.handle i) s.obj).2 } := by
  induction p generalizing s with
  | ret a => exact ⟨1, by simp [step, h, execThread]⟩
  | op o k ih =>
    obtain ⟨n, hn⟩ := ih (S.handle i o s.obj).1
      (s := { running := Function.update s.running t (some ⟨i, k (S.handle i o s.obj).1⟩)
              obj := (S.handle i o s.obj).2 }) (by simp)
    refine ⟨n + 1, ?_⟩
    rw [List.replicate_succ, run_cons]
    simp only [step, h, execThread]
    simpa using hn

end Step

end Threads
