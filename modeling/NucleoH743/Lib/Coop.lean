import Mathlib.Logic.Function.Basic
import NucleoH743.Lib.Prog
import NucleoH743.Lib.Run

/-!
# `Lib.Coop`: cooperative tasks

Tasks make calls, one at a time each. A call is a program over operations on a shared world.
The tasks are cooperative: a call that runs goes on until it returns or reaches an operation
that yields. Then any other task can start a call, or continue one that has yielded. Between
two operations the environment can act on the world.

`Logic` is a proof system for such components. A call carries knowledge, updated with every
answer. What a running call knows can speak about the world (`holds`), since nobody else
runs. What a call that has yielded keeps has to be stable under the steps of the others
(`keeps`). `Logic.good_run` lifts this to all runs whose calls start under `startOk`.

The proof of a component has three parts. `start_holds` says what a call knows when it begins. The
program of the call is proved from this knowledge by `Prog.Wp`, where each operation adds what its
answer tells. And for each operation it is shown that it keeps the invariant, what the running call
knows, and what the calls that have yielded keep.

A call that yields forgets what others may change: its knowledge goes from `holds` to `keeps`, and
comes back weaker when it is resumed. So a program that has checked something before it yields must
check it again.
-/

set_option autoImplicit false

namespace Coop

open EventRun

variable {T Op γ β σ ξ ε : Type} {Res : Op → Type}

/-- A call: the task that makes it, and its number. -/
structure Caller (T : Type) where
  task : T
  call : Nat
  deriving DecidableEq, Repr

/-- What the tasks run on. -/
structure Sched (T Op : Type) (Res : Op → Type) (γ β σ ξ ε : Type) where
  /-- the program of a call -/
  body : γ → Prog Op Res β
  /-- the world when a call starts -/
  start : Caller T → γ → σ → σ
  /-- an operation of a call, under an outcome that the environment chooses -/
  handle : Caller T → ξ → (o : Op) → σ → Res o × σ
  /-- the operations at which another task can go on -/
  yields : Op → Bool
  /-- the world when a call returns -/
  finish : Caller T → β → σ → σ
  /-- a step of the environment -/
  env : ε → σ → σ

/-- The tasks and the world. -/
structure State (T Op : Type) (Res : Op → Type) (β σ : Type) where
  running : Option (Caller T × Prog Op Res β)
  /-- the calls that have yielded, by task -/
  parked : T → Option (Nat × Prog Op Res β)
  nextCall : Nat
  world : σ

/-- Before the first call. -/
def State.init (world : σ) : State T Op Res β σ where
  running := none
  parked := fun _ => none
  nextCall := 0
  world := world

/-- What can happen next. -/
inductive Event (T γ ξ ε : Type) where
  /-- the task starts a call -/
  | start (t : T) (c : γ)
  /-- the task continues the call in which it has yielded -/
  | resume (t : T)
  /-- the running call goes on, by one operation or to its end -/
  | exec (x : ξ)
  | env (e : ε)

variable [DecidableEq T]

/-- A task starts a call. -/
def startCall (S : Sched T Op Res γ β σ ξ ε) (s : State T Op Res β σ) (t : T) (c : γ) :
    State T Op Res β σ :=
  { s with
    running := some (⟨t, s.nextCall⟩, S.body c)
    nextCall := s.nextCall + 1
    world := S.start ⟨t, s.nextCall⟩ c s.world }

/-- The running call goes on. -/
def execCall (S : Sched T Op Res γ β σ ξ ε) (s : State T Op Res β σ) (i : Caller T) (x : ξ) :
    Prog Op Res β → State T Op Res β σ
  | .ret b => { s with running := none, world := S.finish i b s.world }
  | .op o k =>
    let rw := S.handle i x o s.world
    if S.yields o then
      { s with
        running := none
        parked := Function.update s.parked i.task (some (i.call, k rw.1))
        world := rw.2 }
    else { s with running := some (i, k rw.1), world := rw.2 }

/-- One step. An event that cannot happen changes nothing. -/
def step (S : Sched T Op Res γ β σ ξ ε) (s : State T Op Res β σ) :
    Event T γ ξ ε → State T Op Res β σ
  | .start t c => if s.running.isNone ∧ (s.parked t).isNone then startCall S s t c else s
  | .resume t =>
    match s.running, s.parked t with
    | none, some (n, p) =>
      { s with running := some (⟨t, n⟩, p), parked := Function.update s.parked t none }
    | _, _ => s
  | .exec x =>
    match s.running with
    | some (i, p) => execCall S s i x p
    | none => s
  | .env e => { s with world := S.env e s.world }

/-- If the event starts a call, it does so in a world that meets `P`. -/
def Starts (P : T → γ → σ → Prop) (s : State T Op Res β σ) : Event T γ ξ ε → Prop
  | .start t c => s.running.isNone ∧ (s.parked t).isNone → P t c s.world
  | .resume _ | .exec _ | .env _ => True

instance {P : T → γ → σ → Prop} [∀ t c w, Decidable (P t c w)] (s : State T Op Res β σ) :
    (e : Event T γ ξ ε) → Decidable (Starts P s e)
  | .start t c =>
    inferInstanceAs (Decidable (s.running.isNone ∧ (s.parked t).isNone → P t c s.world))
  | .resume _ | .exec _ | .env _ => isTrue trivial

/-- A proof system over knowledge `κ` for the calls of `S` that start under `startOk`. -/
structure Logic (S : Sched T Op Res γ β σ ξ ε) (κ : Type) where
  startOk : T → γ → σ → Prop
  /-- the operations that a call may do -/
  ok : κ → Op → Prop
  next : κ → (o : Op) → Res o → κ
  post : β → κ → Prop
  inv : σ → Prop
  /-- what a running call knows -/
  holds : Caller T → κ → σ → Prop
  /-- what a call that has yielded keeps; with `none`, what is true of a task without a call -/
  keeps : T → Option κ → σ → Prop
  /-- a call that starts knows enough for its program -/
  start_holds : ∀ i c w, inv w → startOk i.task c w → keeps i.task none w →
    (∀ t, t ≠ i.task → ∃ k, keeps t k w) →
    inv (S.start i c w) ∧
      ∃ k, holds i k (S.start i c w) ∧ (S.body c).Wp ok next post k
  start_keeps : ∀ i t k c w, t ≠ i.task → keeps t k w → keeps t k (S.start i c w)
  op_holds : ∀ i k x o w, inv w → holds i k w → ok k o →
    inv (S.handle i x o w).2 ∧
      holds i (next k o (S.handle i x o w).1) (S.handle i x o w).2
  op_keeps : ∀ i k x o w t l, t ≠ i.task → keeps t l w → holds i k w → ok k o →
    keeps t l (S.handle i x o w).2
  /-- what remains of the knowledge at a yield -/
  yield_keeps : ∀ i k o r w, S.yields o = true → ok k o → holds i (next k o r) w →
    keeps i.task (some (next k o r)) w
  resume_holds : ∀ i k w, inv w → keeps i.task (some k) w → holds i k w
  finish_inv : ∀ i k b w, inv w → holds i k w → post b k →
    inv (S.finish i b w) ∧ keeps i.task none (S.finish i b w)
  finish_keeps : ∀ i t k b w, t ≠ i.task → keeps t k w → keeps t k (S.finish i b w)
  env_inv : ∀ e w, inv w → inv (S.env e w)
  env_holds : ∀ i k e w, holds i k w → holds i k (S.env e w)
  env_keeps : ∀ t k e w, keeps t k w → keeps t k (S.env e w)

namespace Logic

variable {S : Sched T Op Res γ β σ ξ ε} {κ : Type} (L : Logic S κ)

/-- The program of a call is proved from the knowledge `k`. -/
def Proved (p : Prog Op Res β) (k : κ) : Prop := p.Wp L.ok L.next L.post k

/-- The task has no call. -/
def Resting (s : State T Op Res β σ) (t : T) : Prop :=
  s.parked t = none ∧ ∀ i p, s.running = some (i, p) → t ≠ i.task

/-- The invariant of the whole system. -/
structure Good (s : State T Op Res β σ) : Prop where
  inv : L.inv s.world
  running : ∀ i p, s.running = some (i, p) →
    s.parked i.task = none ∧ ∃ k, L.holds i k s.world ∧ L.Proved p k
  parked : ∀ t n p, s.parked t = some (n, p) →
    ∃ k, L.keeps t (some k) s.world ∧ L.Proved p k
  resting : ∀ t, Resting s t → L.keeps t none s.world

variable {L} {s : State T Op Res β σ}

omit [DecidableEq T] in

/-- With no call in progress the invariant is that of the world, and every task rests. -/
theorem good_init {w : σ} (h : L.inv w) (hk : ∀ t, L.keeps t none w) :
    L.Good (State.init w) where
  inv := h
  running _ _ hr := by cases hr
  parked _ _ _ hp := by cases hp
  resting t _ := hk t

omit [DecidableEq T] in

/-- A call that a resting task starts is proved from the knowledge of its start. The knowledge of
the others is kept by the start. A task that rests has no call that waits, so nothing that is parked
changes. -/
theorem good_start (h : L.Good s) (hr : s.running = none) {t : T} {c : γ}
    (hp : s.parked t = none) (hc : L.startOk t c s.world) : L.Good (startCall S s t c) := by
  have hrest : ∀ u, s.parked u = none → L.keeps u none s.world := by
    intro u hu
    refine h.resting u ⟨hu, ?_⟩
    intro i p hi
    rw [hr] at hi
    cases hi
  -- every other thread has what it keeps, parked or resting
  have hothers : ∀ u, u ≠ t → ∃ k, L.keeps u k s.world := by
    intro u _
    cases hu : s.parked u with
    | none => exact ⟨none, hrest u hu⟩
    | some np =>
      obtain ⟨k, hk, -⟩ := h.parked u np.1 np.2 hu
      exact ⟨some k, hk⟩
  obtain ⟨hinv, k, hk, hwp⟩ :=
    L.start_holds ⟨t, s.nextCall⟩ c s.world h.inv hc (hrest t hp) hothers
  refine ⟨hinv, ?_, ?_, ?_⟩
  · intro i p hi
    cases hi
    exact ⟨hp, k, hk, hwp⟩
  · intro u n p hu
    obtain ⟨l, hl, hwp'⟩ := h.parked u n p hu
    have hne : u ≠ t := by
      rintro rfl
      exact absurd (hp.symm.trans hu) (by simp)
    exact ⟨l, L.start_keeps ⟨t, s.nextCall⟩ u (some l) c s.world hne hl, hwp'⟩
  · rintro u ⟨hu, hne⟩
    have hut : u ≠ t := hne ⟨t, s.nextCall⟩ (S.body c) rfl
    exact L.start_keeps ⟨t, s.nextCall⟩ u none c s.world hut (hrest u hu)

/-- A parked call goes on with the knowledge that its task kept while it waited. -/
theorem good_resume (h : L.Good s) (hr : s.running = none) {t : T} {n : Nat}
    {p : Prog Op Res β} (hp : s.parked t = some (n, p)) :
    L.Good { s with running := some (⟨t, n⟩, p), parked := Function.update s.parked t none } := by
  obtain ⟨k, hk, hwp⟩ := h.parked t n p hp
  have hother : ∀ u, u ≠ t → Function.update s.parked t none u = s.parked u :=
    fun u hu => Function.update_of_ne hu none s.parked
  refine ⟨h.inv, ?_, ?_, ?_⟩
  · intro i q hi
    cases hi
    exact ⟨Function.update_self t none s.parked, k, L.resume_holds _ k _ h.inv hk, hwp⟩
  · intro u m q hu
    have hupd : Function.update s.parked t none u = some (m, q) := hu
    have hne : u ≠ t := by
      rintro rfl
      rw [Function.update_self] at hupd
      cases hupd
    rw [hother u hne] at hupd
    exact h.parked u m q hupd
  · rintro u ⟨hu, hne⟩
    have hut : u ≠ t := hne ⟨t, n⟩ p rfl
    have hupd : Function.update s.parked t none u = none := hu
    rw [hother u hut] at hupd
    refine h.resting u ⟨hupd, ?_⟩
    intro i q hi
    rw [hr] at hi
    cases hi

/-- One operation of the running call: what it adds to the knowledge proves the rest, and the others
keep theirs. A call that yields is parked, and one that returns leaves its task resting. The three
cases of the result are a call that goes on, one that is parked, and one that has returned. -/
theorem good_exec (h : L.Good s) {i : Caller T} {p : Prog Op Res β}
    (hr : s.running = some (i, p)) (x : ξ) : L.Good (execCall S s i x p) := by
  obtain ⟨hnone, k, hk, hwp⟩ := h.running i p hr
  -- a parked call belongs to another task
  have hother : ∀ u n q, s.parked u = some (n, q) → u ≠ i.task := by
    rintro u n q hu rfl
    rw [hnone] at hu
    cases hu
  -- and so does a task without a call
  have hrest : ∀ u, s.parked u = none → u ≠ i.task → L.keeps u none s.world := by
    intro u hu hne
    refine h.resting u ⟨hu, ?_⟩
    intro j q hj
    rw [hr] at hj
    cases hj
    exact hne
  cases p with
  | ret b =>
    obtain ⟨hinv, hdone⟩ := L.finish_inv i k b s.world h.inv hk hwp
    refine ⟨hinv, ?_, ?_, ?_⟩
    · intro j q hj
      cases hj
    · intro u n q hu
      obtain ⟨l, hl, hq⟩ := h.parked u n q hu
      exact ⟨l, L.finish_keeps i u (some l) b s.world (hother u n q hu) hl, hq⟩
    · rintro u ⟨hu, -⟩
      by_cases hui : u = i.task
      · subst hui
        exact hdone
      · exact L.finish_keeps i u none b s.world hui (hrest u hu hui)
  | op o f =>
    obtain ⟨hok, hcont⟩ := hwp
    obtain ⟨hinv, hholds⟩ := L.op_holds i k x o s.world h.inv hk hok
    have hkeeps : ∀ u l, u ≠ i.task → L.keeps u l s.world →
        L.keeps u l (S.handle i x o s.world).2 :=
      fun u l hu hl => L.op_keeps i k x o s.world u l hu hl hk hok
    have hparked : ∀ u n q, s.parked u = some (n, q) →
        ∃ l, L.keeps u (some l) (S.handle i x o s.world).2 ∧ L.Proved q l := by
      intro u n q hu
      obtain ⟨l, hl, hq⟩ := h.parked u n q hu
      exact ⟨l, hkeeps u (some l) (hother u n q hu) hl, hq⟩
    by_cases hy : S.yields o = true
    · simp only [execCall, hy, if_true]
      refine ⟨hinv, ?_, ?_, ?_⟩
      · intro j q hj
        cases hj
      · intro u n q hu
        have hupd : Function.update s.parked i.task
            (some (i.call, f (S.handle i x o s.world).1)) u = some (n, q) := hu
        by_cases hui : u = i.task
        · subst hui
          rw [Function.update_self] at hupd
          cases hupd
          exact ⟨_, L.yield_keeps i k o _ _ hy hok hholds, hcont _⟩
        · rw [Function.update_of_ne hui] at hupd
          exact hparked u n q hupd
      · rintro u ⟨hu, -⟩
        have hupd : Function.update s.parked i.task
            (some (i.call, f (S.handle i x o s.world).1)) u = none := hu
        by_cases hui : u = i.task
        · subst hui
          rw [Function.update_self] at hupd
          cases hupd
        · rw [Function.update_of_ne hui] at hupd
          exact hkeeps u none hui (hrest u hupd hui)
    · have hy' : S.yields o = false := by simpa using hy
      simp only [execCall, hy', Bool.false_eq_true, if_false]
      refine ⟨hinv, ?_, hparked, ?_⟩
      · intro j q hj
        cases hj
        exact ⟨hnone, _, hholds, hcont _⟩
      · rintro u ⟨hu, hne⟩
        have hui : u ≠ i.task := hne i _ rfl
        exact hkeeps u none hui (hrest u hu hui)

omit [DecidableEq T] in

/-- What happens outside of the tasks keeps the knowledge of all of them. -/
theorem good_env (h : L.Good s) (e : ε) : L.Good { s with world := S.env e s.world } where
  inv := L.env_inv e s.world h.inv
  running i p hi := by
    obtain ⟨hnone, k, hk, hwp⟩ := h.running i p hi
    exact ⟨hnone, k, L.env_holds i k e s.world hk, hwp⟩
  parked t n p hp := by
    obtain ⟨k, hk, hwp⟩ := h.parked t n p hp
    exact ⟨k, L.env_keeps t (some k) e s.world hk, hwp⟩
  resting t ht := L.env_keeps t none e s.world (h.resting t ht)

/-- Every step keeps the invariant. One case for each event, with its own lemma. -/
theorem good_step (h : L.Good s) {e : Event T γ ξ ε} (he : Starts L.startOk s e) :
    L.Good (step S s e) := by
  cases e with
  | start t c =>
    show L.Good (if _ then _ else _)
    split_ifs with hfree
    · have hr : s.running = none := Option.isNone_iff_eq_none.1 hfree.1
      have hp : s.parked t = none := Option.isNone_iff_eq_none.1 hfree.2
      exact good_start h hr hp (he hfree)
    · exact h
  | resume t =>
    unfold step
    dsimp only
    split
    · rename_i n p hr hp
      exact good_resume h hr hp
    · exact h
  | exec x =>
    unfold step
    dsimp only
    split
    · rename_i i p hr
      exact good_exec h hr x
    · exact h
  | env e => exact good_env h e

/-- The invariant holds after every run whose calls start under `startOk`. By induction on the
events. -/
theorem good_run (h : L.Good s) {es : List (Event T γ ξ ε)}
    (hes : Along (step S) (Starts L.startOk) s es) : L.Good (run (step S) s es) := by
  have hstep : ∀ s e, L.Good s → Starts L.startOk s e → L.Good (step S s e) :=
    fun _ _ hg he => good_step hg he
  exact run_inv hstep h hes

end Logic

end Coop
