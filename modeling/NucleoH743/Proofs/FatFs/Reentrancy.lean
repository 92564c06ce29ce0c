import NucleoH743.FatFs.Diskio

/-!
# `Proofs.FatFs.Reentrancy`: overlapping FatFs calls

FatFs is built without re-entrancy. A task is inside a FatFs call while it runs it, and while
it waits in a `vTaskDelay` below it. Reads never wait: only `w25qxx_write` and
`w25qxx_initialize` reach a `vTaskDelay`. So two calls overlap exactly where one starts while
another task is in one of these two.

The proof is one of `Lib.Coop`. What a task knows of itself is where it is (`Place`), and the marks
that the programs set are the same in the world, so the invariant is about the marks. A task that
yields is in one of the two functions that wait, by the proofs of the programs; so a call that
starts while no other task is in one of them finds all others outside of FatFs.

Which functions wait is found by looking at their programs: a read has no `vTaskDelay` in it, and
the functions for the status and the geometry call no driver function.

- `fatFs_not_reentered`: if no FatFs call starts while another task is in `w25qxx_write` or
  `w25qxx_initialize`, at most one task is inside FatFs at any time.
- `fatFs_reentered_in_write`: a FatFs call that starts while another one waits for an erase.
-/

set_option autoImplicit false

namespace NucleoH743.Diskio

open NucleoH743.Flash Coop EventRun

/-! ### Driver functions without delays -/

/-- A driver function that never reaches a `vTaskDelay`. -/
def NoDelay {α : Type} (p : Drv α) : Prop :=
  p.Wp (fun (_ : Unit) o => ∀ ms, o ≠ .delay ms) (fun _ _ _ => ()) (fun _ _ => True) ()

/-- `BSP_QSPI_Read` has no delay in it: it does not poll. -/
theorem noDelay_bspQspiRead (readAddr : UInt32) (size : Nat) :
    NoDelay (bspQspiRead readAddr size) := by
  refine ⟨nofun, ?_⟩
  intro p
  refine ⟨nofun, ?_⟩
  intro r
  cases r with
  | false => trivial
  | true =>
    refine ⟨nofun, ?_⟩
    intro buf?
    cases buf? <;> trivial

/-- So a read of sectors runs without a yield. By induction on the count. -/
theorem noDelay_readSectors (count : Nat) (buff : List UInt8) (sector : UInt32) :
    NoDelay (readSectors count buff sector) := by
  induction count generalizing buff sector with
  | zero => trivial
  | succ count ih =>
    refine Prog.wp_bind (Prog.wp_mono ?_ (noDelay_bspQspiRead _ _))
    intro r _ _
    refine Prog.wp_bind (Prog.wp_mono ?_ (ih _ (sector + 1)))
    intro rest _ _
    trivial

/-- `w25qxx_read` never yields. -/
theorem noDelay_w25qxxRead (buff : List UInt8) (sector : UInt32) (count : Nat) :
    NoDelay (w25qxxRead buff sector count) := by
  refine Prog.wp_bind (Prog.wp_mono ?_ (noDelay_readSectors count buff sector))
  intro _ _ _
  trivial

/-! ### What a call knows about itself -/

/-- Where a call is. -/
structure Place where
  inFatFs : Bool
  inDisk : Option DiskFn

/-- The disk functions that can yield. -/
def Waits (fn : Option DiskFn) : Prop := fn = some .write ∨ fn = some .init

instance (fn : Option DiskFn) : Decidable (Waits fn) := by
  unfold Waits
  infer_instance

/-- The marks move the place. -/
def Place.next (k : Place) : (o : TaskOp) → o.Res → Place
  | .enter fn, _ => { k with inDisk := some fn }
  | .leave, _ => { k with inDisk := none }
  | .hal _, _ | .loadIsInitialized, _ | .storeIsInitialized _, _ => k

/-- Inside FatFs a task waits only in the two disk functions. -/
def Place.ok (k : Place) : TaskOp → Prop
  | .hal (.delay _) => k.inFatFs = true → Waits k.inDisk
  | _ => True

/-- A task program from the place `k`. -/
abbrev Placed {α : Type} (p : TaskProg α) (Q : α → Place → Prop) (k : Place) : Prop :=
  p.Wp Place.ok Place.next Q k

/-- A driver function that may wait at `k`, or never does, leaves the place alone. By the structure
of the program: only a delay lets other tasks run, and then the task waits at its place. -/
theorem placed_liftDrv {α : Type} {k : Place} {p : Drv α}
    (h : (k.inFatFs = true → Waits k.inDisk) ∨ NoDelay p) :
    Placed (liftDrv p) (fun _ k' => k' = k) k := by
  rcases h with hwaits | hno
  · have hop : ∀ (o : HalOp) (_ : Unit) (l : Place), l = k → True →
        Placed (Prog.call (TaskOp.hal o)) (fun _ l => l = k) l := by
      rintro o _ l rfl -
      refine ⟨?_, fun _ => rfl⟩
      cases o with
      | delay ms => exact hwaits
      | _ => trivial
    refine Prog.wp_mono ?_ (Prog.wp_interp hop rfl (Prog.wp_trivial (fun _ _ _ => ()) p ()))
    rintro a l ⟨_, hl, -⟩
    exact hl
  · have hop : ∀ (o : HalOp) (_ : Unit) (l : Place), l = k → (∀ ms, o ≠ .delay ms) →
        Placed (Prog.call (TaskOp.hal o)) (fun _ l => l = k) l := by
      rintro o _ l rfl hne
      refine ⟨?_, fun _ => rfl⟩
      cases o with
      | delay ms => exact absurd rfl (hne ms)
      | _ => trivial
    refine Prog.wp_mono ?_ (Prog.wp_interp hop rfl hno)
    rintro a l ⟨_, hl, -⟩
    exact hl

section Programs
variable (fuel : Nat) (idCode : Nat → UInt8)

/-- A disk function leaves the place alone. Those that can yield do so in their own place. -/
theorem placed_diskFn (d : DiskOp) (k : Place) (hk : k.inDisk = some d.fn) :
    Placed (diskFn fuel idCode d) (fun _ k' => k' = k) k := by
  cases d with
  | init =>
    refine ⟨trivial, ?_⟩
    intro isInitialized
    cases isInitialized with
    | true => exact rfl
    | false => exact ⟨trivial, fun _ => placed_liftDrv (.inl fun _ => .inr hk)⟩
  | status => exact rfl
  | read buff sector count => exact placed_liftDrv (.inr (noDelay_w25qxxRead buff sector count))
  | write buff sector count => exact placed_liftDrv (.inl fun _ => .inl hk)
  | ioctl cmd buff => exact rfl

/-- Inside a FatFs call, between the disk functions. -/
def inFatFsOnly : Place := { inFatFs := true, inDisk := none }

/-- A FatFs call yields only in the two disk functions, whatever it calls. -/
theorem placed_fatFs (p : Prog DiskOp DiskOp.Res Unit) :
    Placed ((TaskCall.fatFs p).body fuel idCode) (fun _ k => k.inDisk = none) inFatFsOnly := by
  have hop : ∀ (d : DiskOp) (_ : Unit) (l : Place), l = inFatFsOnly → True →
      Placed (markedDiskFn fuel idCode d) (fun _ l => l = inFatFsOnly) l := by
    rintro d _ l rfl -
    refine ⟨trivial, fun _ => ?_⟩
    refine Prog.wp_bind (p := diskFn fuel idCode d)
      (Prog.wp_mono ?_ (placed_diskFn fuel idCode d _ rfl))
    rintro r k rfl
    exact ⟨trivial, fun _ => rfl⟩
  refine Prog.wp_mono ?_ (Prog.wp_interp hop rfl (Prog.wp_trivial (fun _ _ _ => ()) p ()))
  rintro a l ⟨_, hl, -⟩
  rw [hl]
  rfl

/-- A driver call of the flash task is outside FatFs. -/
theorem placed_flash (c : FlashCall) :
    Placed ((TaskCall.flash c).body fuel idCode) (fun _ k => k.inDisk = none)
      { inFatFs := false, inDisk := none } := by
  refine Prog.wp_bind (Prog.wp_mono ?_ (placed_liftDrv (.inl nofun)))
  rintro r k rfl
  exact rfl

end Programs

/-! ### All runs -/

variable {T : Type}

/-- At most one task is inside a FatFs call. -/
def AtMostOne (w : DiskWorld T) : Prop :=
  ∀ t u, w.inFatFs t = true → w.inFatFs u = true → t = u

/-- If the call is one of FatFs, no other task is in a disk function that can yield. -/
def NoneWaits (t : T) (c : TaskCall) (w : DiskWorld T) : Prop :=
  c.isFatFs = true → ∀ u, u ≠ t → ¬ Waits (w.inDisk u)

/-- The marks of the task are those of the place. -/
def At (t : T) (k : Place) (w : DiskWorld T) : Prop :=
  w.inFatFs t = k.inFatFs ∧ w.inDisk t = k.inDisk

/-- What a task that does not run keeps: outside FatFs, or waiting in one of the two disk
functions. -/
def Waiting (t : T) (k : Option Place) (w : DiskWorld T) : Prop :=
  match k with
  | none => At t { inFatFs := false, inDisk := none } w
  | some k => At t k w ∧ (k.inFatFs = true → Waits k.inDisk)

/-- Only the marks of the task matter. -/
theorem waiting_congr {t : T} {k : Option Place} {w v : DiskWorld T}
    (hf : v.inFatFs t = w.inFatFs t) (hd : v.inDisk t = w.inDisk t) (h : Waiting t k w) :
    Waiting t k v := by
  cases k with
  | none => exact ⟨hf.trans h.1, hd.trans h.2⟩
  | some k => exact ⟨⟨hf.trans h.1.1, hd.trans h.1.2⟩, h.2⟩

section Steps
variable [DecidableEq T] {w : DiskWorld T} {i : Caller T} {x : Outcome}

/-- An operation of a call neither enters nor leaves FatFs. -/
@[simp] theorem taskHandle_inFatFs (o : TaskOp) : (taskHandle i x w o).2.inFatFs = w.inFatFs := by
  cases o <;> rfl

/-- An operation moves its own task only. -/
theorem taskHandle_inDisk_of_ne (o : TaskOp) {t : T} (ht : t ≠ i.task) :
    (taskHandle i x w o).2.inDisk t = w.inDisk t := by
  cases o with
  | enter fn => exact Function.update_of_ne ht _ _
  | leave => exact Function.update_of_ne ht _ _
  | hal _ | loadIsInitialized | storeIsInitialized _ => rfl

/-- An operation moves the mark of its own task to where the call has come. -/
theorem at_taskHandle {k : Place} (h : At i.task k w) (o : TaskOp) :
    At i.task (k.next o (taskHandle i x w o).1) (taskHandle i x w o).2 := by
  cases o with
  | enter fn =>
    refine ⟨h.1, ?_⟩
    show Function.update w.inDisk i.task (some fn) i.task = some fn
    exact Function.update_self ..
  | leave =>
    refine ⟨h.1, ?_⟩
    show Function.update w.inDisk i.task none i.task = none
    exact Function.update_self ..
  | hal _ | loadIsInitialized | storeIsInitialized _ => exact h

/-- A call starts: if it is one of FatFs, nobody else is inside. By `Waiting`, a task that does not
run is outside of FatFs or waits in one of the two disk functions. The condition excludes the
second. -/
theorem atMostOne_start {c : TaskCall} (hinv : AtMostOne w) (hstart : NoneWaits i.task c w)
    (hothers : ∀ t, t ≠ i.task → ∃ k, Waiting t k w) :
    AtMostOne { w with inFatFs := Function.update w.inFatFs i.task c.isFatFs } := by
  -- before the call, a task inside FatFs waits, and the condition excludes that
  have houtside : c.isFatFs = true → ∀ t, t ≠ i.task → w.inFatFs t = false := by
    intro hc t ht
    obtain ⟨k, hk⟩ := hothers t ht
    cases k with
    | none => exact hk.1
    | some k =>
      obtain ⟨⟨hf, hd⟩, hwaits⟩ := hk
      cases hin : k.inFatFs with
      | false => exact hf.trans hin
      | true => exact absurd (hd ▸ hwaits hin) (hstart hc t ht)
  intro t u ht hu
  have hmark : ∀ v, Function.update w.inFatFs i.task c.isFatFs v = true →
      v = i.task ∧ c.isFatFs = true ∨ v ≠ i.task ∧ w.inFatFs v = true := by
    intro v hv
    by_cases hvi : v = i.task
    · subst hvi
      rw [Function.update_self] at hv
      exact .inl ⟨rfl, hv⟩
    · rw [Function.update_of_ne hvi] at hv
      exact .inr ⟨hvi, hv⟩
  rcases hmark t ht with ⟨rfl, hc⟩ | ⟨hti, ht'⟩
  · rcases hmark u hu with ⟨rfl, -⟩ | ⟨hui, hu'⟩
    · rfl
    · rw [houtside hc u hui] at hu'
      cases hu'
  · rcases hmark u hu with ⟨rfl, hc⟩ | ⟨hui, hu'⟩
    · rw [houtside hc t hti] at ht'
      cases ht'
    · exact hinv t u ht' hu'

/-- A call that returns leaves FatFs. -/
theorem atMostOne_finish (hinv : AtMostOne w) :
    AtMostOne { w with inFatFs := Function.update w.inFatFs i.task false } := by
  have hmark : ∀ v, Function.update w.inFatFs i.task false v = true → w.inFatFs v = true := by
    intro v hv
    by_cases hvi : v = i.task
    · rw [hvi, Function.update_self] at hv
      cases hv
    · rwa [Function.update_of_ne hvi] at hv
  intro t u ht hu
  exact hinv t u (hmark t ht) (hmark u hu)

end Steps

/-- The FatFs calls and driver calls under `NoneWaits`. -/
def diskLogic (T : Type) [DecidableEq T] (fuel : Nat) (idCode : Nat → UInt8) :
    Logic (diskSched T fuel idCode) Place where
  startOk := NoneWaits
  ok := Place.ok
  next := Place.next
  post _ k := k.inDisk = none
  inv := AtMostOne
  holds i k w := At i.task k w
  keeps := Waiting
  start_holds i c w hinv hstart hself hothers := by
    refine ⟨atMostOne_start hinv hstart hothers, { inFatFs := c.isFatFs, inDisk := none },
      ⟨?_, hself.2⟩, ?_⟩
    · show Function.update w.inFatFs i.task c.isFatFs i.task = c.isFatFs
      exact Function.update_self ..
    · cases c with
      | fatFs p => exact placed_fatFs fuel idCode p
      | flash c => exact placed_flash fuel idCode c
  start_keeps i t k c w ht h := waiting_congr (Function.update_of_ne ht _ _) rfl h
  op_holds i k x o w hinv hk _ := by
    refine ⟨?_, at_taskHandle hk o⟩
    show AtMostOne (taskHandle i x w o).2
    unfold AtMostOne
    rw [taskHandle_inFatFs]
    exact hinv
  op_keeps i k x o w t l ht h _ _ :=
    waiting_congr (congrFun (taskHandle_inFatFs o) t) (taskHandle_inDisk_of_ne o ht) h
  yield_keeps i k o r w hy hok hk := by
    cases o with
    | hal o =>
      cases o with
      | delay ms => exact ⟨hk, hok⟩
      | _ => cases hy
    | _ => cases hy
  resume_holds _ _ _ _ h := h.1
  finish_inv i k b w hinv hk hpost := by
    refine ⟨atMostOne_finish hinv, ?_, hk.2.trans hpost⟩
    show Function.update w.inFatFs i.task false i.task = false
    exact Function.update_self ..
  finish_keeps i t k b w ht h := waiting_congr (Function.update_of_ne ht _ _) rfl h
  env_inv _ _ hinv := hinv
  env_holds _ _ _ _ h := h
  env_keeps _ _ _ _ h := waiting_congr rfl rfl h

/-- The tasks before their first call. -/
def tasksAtRest (T : Type) (flash : World) (isInitialized : Bool) :
    State T TaskOp TaskOp.Res Unit (DiskWorld T) :=
  State.init { flash, isInitialized, inFatFs := fun _ => false, inDisk := fun _ => none }

/-- For any tasks, any FatFs calls and any answers of the hardware: in every run in which no
FatFs call starts while another task is in `w25qxx_write` or `w25qxx_initialize`, at most one
task is inside FatFs. -/
theorem fatFs_not_reentered (T : Type) [DecidableEq T] (fuel : Nat) (idCode : Nat → UInt8)
    (flash : World) (isInitialized : Bool) (es : List (Event T TaskCall Outcome Unit))
    (hes : Along (step (diskSched T fuel idCode)) (Starts NoneWaits)
      (tasksAtRest T flash isInitialized) es) :
    AtMostOne
      (run (step (diskSched T fuel idCode)) (tasksAtRest T flash isInitialized) es).world := by
  have hinit : AtMostOne (tasksAtRest T flash isInitialized).world := by
    intro t u ht
    cases ht
  have hgood : (diskLogic T fuel idCode).Good (tasksAtRest T flash isInitialized) :=
    Logic.good_init hinit fun _ => ⟨rfl, rfl⟩
  exact (Logic.good_run hgood hes).inv

/-! ### A FatFs call during a write -/

/-- The flash after its initialisation, with an array of zeros. -/
def zeroFlash : World where
  chip := { busyBy := none, wel := false, mem := fun _ => 0 }
  ccr := none
  pqspi := { isInitialized := .indirect, interfaceMode := .qpi }
  sent := []
  reads := []

/-- A FatFs call that writes sector 0. -/
def writeSector : TaskCall :=
  .fatFs (.op (.write (List.replicate 4096 7) 0 1) fun _ => .ret ())

/-- A FatFs call that asks for the status of the disk. -/
def askStatus : TaskCall := .fatFs (.op .status fun _ => .ret ())

/-- One task starts to write and waits for the erase; then the other one starts a call. -/
def overlap (c : TaskCall) : List (Event Bool TaskCall Outcome Unit) :=
  .start false writeSector :: List.replicate 14 (.exec {}) ++ [.start true c]

instance (t : Bool) (c : TaskCall) (w : DiskWorld Bool) : Decidable (NoneWaits t c w) := by
  unfold NoneWaits
  infer_instance

/-- A driver call may start during the wait. -/
theorem fatFs_not_reentered_flash :
    AtMostOne (run (step (diskSched Bool 256 fun _ => 0)) (tasksAtRest Bool zeroFlash true)
      (overlap (.flash .eraseChip))).world :=
  fatFs_not_reentered Bool 256 (fun _ => 0) zeroFlash true _ (by decide)

/-- A FatFs call may start during the wait as well, and is the second one then. -/
theorem fatFs_reentered_in_write :
    ¬ ∀ (T : Type) [DecidableEq T] (fuel : Nat) (idCode : Nat → UInt8) (flash : World)
      (isInitialized : Bool) (es : List (Event T TaskCall Outcome Unit)),
      AtMostOne
        (run (step (diskSched T fuel idCode)) (tasksAtRest T flash isInitialized) es).world := by
  intro h
  have heq := h Bool 256 (fun _ => 0) zeroFlash true (overlap askStatus) false true
    (by decide) (by decide)
  exact absurd heq (by decide)

end NucleoH743.Diskio
