import NucleoH743.FatFs.Diskio

/-!
# `Proofs.FatFs.DiskStatus`: what the status of the drive says

`disk_initialize` sets its flag before it calls the driver, and answers `RES_OK` from then on.
`w25qxx_initialize` looks at the three bytes of the id alone, and `w25qxx_status` at nothing.

A history is a list of calls of `disk_initialize` and `disk_status`; with each call of the former
come the outcomes that the driver has if it is called.

After the first `disk_initialize` the variable is set, and every answer from then on is `RES_OK`
without a look at the drive. So a history is truthful only if its first attempt has succeeded, or if
there is no further call that could say otherwise. The variable is all that a call knows of the ones
before it.

- `runCalls_eq`: the programs of the disk functions answer as `diskCall` says.
- `replies_truthful_iff`: the statuses of a history are truthful and a failed attempt is repeated
  iff the first call is an attempt that succeeds, or the only one.
-/

set_option autoImplicit false

namespace NucleoH743.Diskio

open NucleoH743.Flash

/-- `STA_NOINIT` -/
def staNoinit : UInt8 := 0x01

/-- The code as a `DSTATUS`. -/
def DResult.dstatus : DResult → UInt8
  | .ok => 0
  | .error => 1
  | .parerr => 4

/-- The outcomes of the three calls of one `w25qxx_initialize`, and its array afterwards. -/
structure Attempt where
  init : BspStatus
  configFlash : BspStatus
  readId : BspStatus
  idCode : Nat → UInt8

namespace Attempt

/-- The test of `w25qxx_initialize`. -/
def IdMatches (a : Attempt) : Prop := a.idCode 0 = 0xEF ∧ a.idCode 1 = 0x40 ∧ a.idCode 2 = 0x18

instance (a : Attempt) : Decidable a.IdMatches := inferInstanceAs (Decidable (_ ∧ _))

/-- What `w25qxx_initialize` returns. -/
def result (a : Attempt) : DResult := if a.IdMatches then .ok else .error

/-- The chip was configured and its id was read as `EF 40 18`. -/
def Succeeds (a : Attempt) : Prop := a.configFlash = .none ∧ a.readId = .none ∧ a.IdMatches

end Attempt

/-- A call of FatFs. The outcomes in `init` count if the driver is called. -/
inductive StatusCall where
  /-- `disk_initialize` -/
  | init (a : Attempt)
  /-- `disk_status` -/
  | status

/-- It is `disk_initialize`. -/
def StatusCall.isInit : StatusCall → Bool
  | .init _ => true
  | .status => false

/-- What a call returns, and the driver initialisation that it ran. -/
structure Reply where
  stat : DResult
  attempt : Option Attempt

/-- A call, with `disk.is_initialized` before and after it. -/
def diskCall (isInitialized : Bool) : StatusCall → Reply × Bool
  | .init a => if isInitialized then (⟨.ok, none⟩, true) else (⟨a.result, some a⟩, true)
  | .status => (⟨w25qxxStatus, none⟩, isInitialized)

/-- The calls of a history with their replies. -/
def replies : Bool → List StatusCall → List (StatusCall × Reply)
  | _, [] => []
  | b, c :: cs => (c, (diskCall b c).1) :: replies (diskCall b c).2 cs

/-! ### The programs -/

section Program
variable {σ : Type} (hal : (o : HalOp) → σ → o.Res × σ)

/-- The calls of `w25qxx_initialize` and what they leave. -/
def attempt (idCode : Nat → UInt8) : Drv Attempt := do
  let init ← bspQspiInit
  let configFlash ← bspQspiConfigFlash .qpi
  let (readId, id) ← bspQspiReadId
  return ⟨init, configFlash, readId, id.getD idCode⟩

/-- `w25qxx_initialize` makes the attempt and looks at the id. -/
theorem w25qxxInitialize_eq (idCode : Nat → UInt8) :
    w25qxxInitialize idCode = attempt idCode >>= fun a => Prog.ret a.result := by
  simp only [w25qxxInitialize, attempt, Prog.bind_assoc, Prog.pure_eq, Prog.ret_bind]
  congr 1
  funext _
  congr 1
  funext _
  congr 1
  funext ⟨_, id⟩
  exact (apply_ite Prog.ret _ _ _).symm

/-- A machine with the variable of the glue layer beside it. -/
def latched : (o : TaskOp) → Bool × σ → o.Res × (Bool × σ)
  | .hal o, (b, s) => ((hal o s).1, b, (hal o s).2)
  | .loadIsInitialized, (b, s) => (b, b, s)
  | .storeIsInitialized b, (_, s) => ((), b, s)
  | .enter _, s | .leave, s => ((), s)

/-- A driver function leaves the variable alone. -/
theorem run_liftDrv {α : Type} (p : Drv α) (b : Bool) (s : σ) :
    (liftDrv p).run (latched hal) (b, s) = ((p.run hal s).1, b, (p.run hal s).2) :=
  Prog.run_interp (fun s => (b, s)) (fun _ _ => rfl) p s

/-- The disk function of a call; `some idCode` is a `disk_initialize` whose array holds `idCode`
before the id is read. -/
def statusFn : Option (Nat → UInt8) → TaskProg DResult
  | some idCode => diskInitialize idCode
  | none => diskFn 0 (fun _ => 0) .status

/-- The call with the outcomes that the machine gives. -/
def callOn (s : σ) : Option (Nat → UInt8) → StatusCall
  | some idCode => .init ((attempt idCode).run hal s).1
  | none => .status

/-- One disk function answers and sets the variable as `diskCall` says. -/
theorem run_statusFn (c : Option (Nat → UInt8)) (b : Bool) (s : σ) :
    ∃ s', (statusFn c).run (latched hal) (b, s) =
      ((diskCall b (callOn hal s c)).1.stat, (diskCall b (callOn hal s c)).2, s') := by
  cases c with
  | none => exact ⟨s, rfl⟩
  | some idCode =>
    cases b with
    | true => exact ⟨s, rfl⟩
    | false =>
      refine ⟨((attempt idCode).run hal s).2, ?_⟩
      show (liftDrv (w25qxxInitialize idCode)).run (latched hal) (true, s) = _
      rw [run_liftDrv, w25qxxInitialize_eq, Prog.run_bind]
      rfl

/-- The statuses of a history of disk functions on the machine. -/
def runCalls : List (Option (Nat → UInt8)) → Bool × σ → List DResult
  | [], _ => []
  | c :: cs, s =>
    ((statusFn c).run (latched hal) s).1 :: runCalls cs ((statusFn c).run (latched hal) s).2

/-- The statuses are those of a history of calls, each with outcomes that the machine gave. -/
theorem runCalls_eq (cs : List (Option (Nat → UInt8))) (b : Bool) (s : σ) :
    ∃ calls : List StatusCall, runCalls hal cs (b, s) = (replies b calls).map (·.2.stat) ∧
      List.Forall₂ (fun c call => ∃ s, call = callOn hal s c) cs calls := by
  induction cs generalizing b s with
  | nil => exact ⟨[], rfl, .nil⟩
  | cons c cs ih =>
    obtain ⟨s', hrun⟩ := run_statusFn hal c b s
    obtain ⟨calls, hcalls, hall⟩ := ih (diskCall b (callOn hal s c)).2 s'
    refine ⟨callOn hal s c :: calls, ?_, .cons ⟨s, rfl⟩ hall⟩
    rw [runCalls, hrun, hcalls]
    rfl

end Program

/-! ### Histories -/

/-- A status without `STA_NOINIT` comes after an initialisation that succeeded. -/
def Truthful (log : List (StatusCall × Reply)) : Prop :=
  ∀ pre x post, log = pre ++ x :: post → x.2.stat.dstatus &&& staNoinit = 0 →
    ∃ y ∈ pre ++ [x], ∃ a, y.2.attempt = some a ∧ a.Succeeds

/-- After an attempt that failed, the next `disk_initialize` makes another. -/
def Retries (log : List (StatusCall × Reply)) : Prop :=
  ∀ pre x mid y post, log = pre ++ x :: (mid ++ y :: post) →
    (∃ a, x.2.attempt = some a ∧ ¬ a.Succeeds) → (∀ z ∈ mid, z.1 = .status) →
    y.1.isInit = true → ∃ a, y.2.attempt = some a

/-- The first call is an attempt that succeeds, or the only one and its id does not match. -/
def FirstSucceeds : List StatusCall → Prop
  | [] => True
  | .init a :: calls => a.Succeeds ∨ calls = [] ∧ ¬ a.IdMatches
  | .status :: _ => False

/-- A call that succeeds reports a drive that is initialised. -/
theorem ok_dstatus : DResult.ok.dstatus &&& staNoinit = 0 := by decide

/-- A call that fails reports one that is not. -/
theorem error_dstatus : DResult.error.dstatus &&& staNoinit ≠ 0 := by decide

/-- Once the variable is set, `RES_OK` is the answer and the driver is not called. -/
theorem diskCall_true (c : StatusCall) : diskCall true c = (⟨.ok, none⟩, true) := by
  cases c <;> rfl

/-- Once the flag is set no call attempts the initialisation. -/
theorem replies_latched {calls : List StatusCall} {x : StatusCall × Reply}
    (h : x ∈ replies true calls) : x.2.attempt = none := by
  induction calls with
  | nil => cases h
  | cons c cs ih =>
    rw [replies, diskCall_true] at h
    rcases List.mem_cons.1 h with rfl | h
    · rfl
    · exact ih h

/-- A first reply without `STA_NOINIT` needs an attempt that succeeds. -/
theorem Truthful.first {x : StatusCall × Reply} {log : List (StatusCall × Reply)}
    (h : Truthful (x :: log)) (hx : x.2.stat = .ok) : ∃ a, x.2.attempt = some a ∧ a.Succeeds := by
  obtain ⟨y, hy, hsome⟩ := h [] x log rfl (by rw [hx]; exact ok_dstatus)
  obtain rfl : y = x := by simpa using hy
  exact hsome

/-- Behind a first attempt only that one can have succeeded, and a second call says it did. The
second reply is `RES_OK`, and there is no other attempt that could have succeeded. -/
theorem Truthful.attempt {a : Attempt} {calls : List StatusCall}
    (h : Truthful (replies false (.init a :: calls))) :
    a.Succeeds ∨ calls = [] ∧ ¬ a.IdMatches := by
  have hlog : replies false (.init a :: calls) =
      (.init a, ⟨a.result, some a⟩) :: replies true calls :=
    rfl
  rw [hlog] at h
  by_cases hid : a.IdMatches
  · obtain ⟨a', ha', hs⟩ := h.first (if_pos hid)
    cases ha'
    exact .inl hs
  cases calls with
  | nil => exact .inr ⟨rfl, hid⟩
  | cons c cs =>
    -- the call after the failed attempt answers `RES_OK`
    rw [replies, diskCall_true] at h
    obtain ⟨y, hy, a', ha', hs⟩ := h [_] (c, ⟨.ok, none⟩) (replies true cs) rfl ok_dstatus
    have hcases : y = (.init a, ⟨a.result, some a⟩) ∨ y = (c, ⟨.ok, none⟩) := by simpa using hy
    rcases hcases with rfl | rfl
    · cases ha'
      exact .inl hs
    · cases ha'

/-- An attempt that succeeds in front makes every status after it truthful. -/
theorem truthful_of_first {x : StatusCall × Reply} {a : Attempt} (ha : x.2.attempt = some a)
    (hs : a.Succeeds) (log : List (StatusCall × Reply)) : Truthful (x :: log) := by
  intro pre y post heq _
  have hmem : x ∈ pre ++ [y] := by
    cases pre with
    | nil => exact List.mem_singleton.2 (List.cons.inj heq).1
    | cons p pre => exact (List.cons.inj heq).1 ▸ List.mem_cons_self
  exact ⟨x, hmem, a, ha, hs⟩

/-- Where no attempt failed, none has to be repeated. -/
theorem retries_of_none_failed {log : List (StatusCall × Reply)}
    (h : ∀ x ∈ log, ∀ a, x.2.attempt = some a → a.Succeeds) : Retries log := by
  intro pre x mid y post heq ⟨a, ha, hfail⟩ _ _
  have hx : x ∈ log := by
    rw [heq]
    exact List.mem_append_right _ List.mem_cons_self
  exact absurd (h x hx a ha) hfail

/-- A single status with `STA_NOINIT` says nothing. -/
theorem truthful_error {x : StatusCall × Reply} (hx : x.2.stat = .error) : Truthful [x] := by
  intro pre y post heq hstat
  have hy : y = x := by
    have hmem : y ∈ [x] := by
      rw [heq]
      exact List.mem_append_right _ List.mem_cons_self
    exact List.mem_singleton.1 hmem
  rw [hy, hx] at hstat
  exact absurd hstat error_dstatus

/-- One call cannot be repeated. -/
theorem retries_singleton (x : StatusCall × Reply) : Retries [x] := by
  intro pre y mid z post heq
  have hlen := congrArg List.length heq
  simp only [List.length_append, List.length_cons, List.length_nil] at hlen
  omega

/-- The statuses of a history are truthful and a failed attempt is repeated iff the first call is an
attempt that succeeds, or the only one and its id does not match. By the first call, and then by
whether there is another. -/
theorem replies_truthful_iff (calls : List StatusCall) :
    Truthful (replies false calls) ∧ Retries (replies false calls) ↔ FirstSucceeds calls := by
  cases calls with
  | nil =>
    refine iff_of_true ⟨fun pre x post h => ?_, fun pre x mid y post h => ?_⟩ trivial
    · simp [replies] at h
    · simp [replies] at h
  | cons c cs =>
    cases c with
    | status =>
      -- `disk_status` answers `RES_OK` before any attempt
      refine iff_of_false (fun h => ?_) id
      obtain ⟨a, ha, -⟩ := h.1.first rfl
      cases ha
    | init a =>
      constructor
      · exact fun h => h.1.attempt
      · rintro (hs | ⟨rfl, hid⟩)
        · refine ⟨truthful_of_first rfl hs _, retries_of_none_failed fun x hx b hb => ?_⟩
          rcases List.mem_cons.1 hx with rfl | hx
          · cases hb
            exact hs
          · rw [replies_latched hx] at hb
            cases hb
        · exact ⟨truthful_error (if_neg hid), retries_singleton _⟩

/-- A failed attempt, then another `disk_initialize`: the second one answers `RES_OK`. -/
theorem replies_untruthful :
    ¬ ∀ calls : List StatusCall,
      Truthful (replies false calls) ∧ Retries (replies false calls) := by
  intro h
  have hfirst := (h [.init ⟨.periphFailure, .periphFailure, .componentFailure, fun _ => 0⟩,
    .init ⟨.none, .none, .none, fun _ => 0⟩]).2
  obtain ⟨a, ha⟩ := hfirst [] _ [] _ [] rfl ⟨_, rfl, fun hs => absurd hs.1 (by decide)⟩
    (fun z hz => by cases hz) rfl
  cases ha

end NucleoH743.Diskio
