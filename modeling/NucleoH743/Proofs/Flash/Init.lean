import NucleoH743.Lib.Run
import NucleoH743.Flash.Driver
import NucleoH743.Proofs.Flash.Polling

/-!
# `Proofs.Flash.Init`: failed initialisations of the flash

`BSP_QSPI_Init` initialises the HAL, resets the chip with `QSPI_ResetMemory`, and polls until
the chip is ready. `QSPI_ResetMemory` sends the two reset commands in QPI mode, polls, sends
them in SPI mode, and then sets `pqspi.IsInitialized`. So the last poll comes after the driver
counts as initialised: if it fails, `BSP_QSPI_Init` returns an error once and succeeds, without
a call of the HAL, from then on.

A history is a list of calls, each with the answers that the HAL has for it.

Each step of `BSP_QSPI_Init` ends the function if it fails, and the proof goes along them: a lemma
for a reset command, one for a poll, and `ResetEnds` for what they come to in `QSPI_ResetMemory`. A
state `InitState` beside the driver notes which commands have gone out and whether the chip has been
seen ready since, so that the theorem does not rely on the driver's own flag.

Between the calls of a history only the flag and that fact remain (`Boot`). The invariant is that
the first implies the second, and a call breaks it exactly if its last poll is the one that fails.

- `run_bspQspiInit`: what one call does.
- `init_retried_iff`: failed initialisations are retried throughout a history iff in no call of
  it the last poll is the one that fails.
-/

set_option autoImplicit false

namespace NucleoH743.Flash

open EventRun (Along along_congr)

/-! ### One call -/

/-- The answers of the HAL to one call of `BSP_QSPI_Init`. -/
structure InitPattern where
  halInit : Bool
  /-- whether the reset command succeeds on these lines -/
  acks : Interface → UInt8 → Bool
  /-- the status reads after the reset in QPI mode -/
  statusQpi : Nat → StatusRead
  /-- the status reads after the reset in SPI mode -/
  statusSpi : Nat → StatusRead

/-- The driver during a call: `pqspi`, the reset commands that have succeeded, the status reads
since the last of them, and whether BUSY was clear in one of these. -/
structure InitState where
  pqspi : Pqspi
  acked : List (Interface × UInt8)
  reads : Nat
  ready : Bool

/-- The status reads of the poll that comes after these reset commands. -/
def InitPattern.status (p : InitPattern) (acked : List (Interface × UInt8)) : Nat → StatusRead :=
  if (Interface.spi, resetMemoryCmd) ∈ acked then p.statusSpi else p.statusQpi

/-- BUSY is clear in what was received. -/
def busyClear (received : Option (Nat → UInt8)) : Bool := received.any fun buf => buf 0 &&& 1 = 0

/-- A reset command, if it succeeds. -/
def InitState.reset (s : InitState) (mode : Interface) (i : UInt8) : InitState :=
  { s with acked := s.acked ++ [(mode, i)], reads := 0, ready := false }

/-- The HAL during a call. -/
def InitPattern.handle (p : InitPattern) : (o : HalOp) → InitState → o.Res × InitState
  | .command c, s =>
    if c.instruction = readStatusReg1Cmd then
      ((p.status s.acked s.reads).command, { s with reads := s.reads + 1 })
    else if p.acks c.mode c.instruction then (true, s.reset c.mode c.instruction)
    else (false, s)
  | .receive, s =>
    let received := (p.status s.acked (s.reads - 1)).receive
    (received, { s with ready := s.ready || busyClear received })
  | .fastReceive, s => (none, s)
  | .transmit _, s => (true, s)
  | .autoPolling _ _ _, s => (true, s)
  | .delay _, s => ((), s)
  | .init, s => (p.halInit, s)
  | .loadPqspi, s => (s.pqspi, s)
  | .storePqspi q, s => ((), { s with pqspi := q })

/-- The reset commands of `QSPI_ResetMemory`. -/
def resetSequence : List (Interface × UInt8) :=
  [(.qpi, resetEnableCmd), (.qpi, resetMemoryCmd), (.spi, resetEnableCmd), (.spi, resetMemoryCmd)]

/-- The chip has been reset and BUSY was clear since. -/
def InitState.ResetReady (s : InitState) : Prop := s.acked = resetSequence ∧ s.ready = true

instance : DecidablePred InitState.ResetReady := fun _ => inferInstanceAs (Decidable (_ ∧ _))

/-! ### The polls -/

section Polls
variable {p : InitPattern} {s : InitState}

/-- The busy bit looks clear iff the first two registers are zero. -/
theorem looksClear_busy (buf : Nat → UInt8) :
    LooksClear srBusy buf ↔ buf 0 = 0 ∧ buf 1 = 0 :=
  or_iff_right (by decide)

/-- The busy poll of the driver sees the chip ready. -/
def PollOk (reads : Nat → StatusRead) : Prop :=
  SeenWithin reads 5000 fun buf => buf 0 = 0 ∧ buf 1 = 0

/-- The loop on the state of the call is the one on the status reads. By induction on the rounds.
A poll that ends with `BSP_ERROR_NONE` has read a status with BUSY clear, which is what `ready`
notes. -/
theorem run_pollLoop (mode : Interface) (timeCheck timeOut : UInt32) (fuel : Nat)
    (cntTime : UInt32) (s : InitState) :
    ∃ ready, (pollLoop mode srBusy timeCheck timeOut fuel cntTime).run p.handle s =
        ((poll mode srBusy timeCheck timeOut (p.status s.acked) fuel cntTime s.reads).1,
          { s with
            reads := (poll mode srBusy timeCheck timeOut (p.status s.acked) fuel cntTime s.reads).2
            ready := ready }) ∧
      ((poll mode srBusy timeCheck timeOut (p.status s.acked) fuel cntTime s.reads).1 = some .ok →
        ready = true) := by
  -- an end with another status says nothing about `ready`
  have hother : ∀ (r : Option Status) {ready : Bool}, r ≠ some .ok →
      r = some .ok → ready = true := fun _ _ hne h => absurd h hne
  induction fuel generalizing cntTime s with
  | zero => exact ⟨s.ready, rfl, hother none (by decide)⟩
  | succ fuel ih =>
    by_cases hlt : cntTime < timeOut
    · have hcmd : (halCommand (statusCommand mode)).run p.handle s =
          ((p.status s.acked s.reads).command, { s with reads := s.reads + 1 }) := rfl
      have hrec : halReceive.run p.handle { s with reads := s.reads + 1 } =
          ((p.status s.acked s.reads).receive, { s with
            reads := s.reads + 1
            ready := s.ready || busyClear (p.status s.acked s.reads).receive }) := rfl
      rw [poll_round hlt, pollLoop, if_pos hlt, Prog.run_bind, hcmd, StatusRead.bytes]
      dsimp only
      cases (p.status s.acked s.reads).command with
      | false => exact ⟨s.ready, rfl, hother (some .errorCommand) (by decide)⟩
      | true =>
        rw [if_pos rfl, if_pos rfl, Prog.run_bind, hrec]
        cases (p.status s.acked s.reads).receive with
        | none => exact ⟨_, rfl, hother (some .errorReceive) (by decide)⟩
        | some buf =>
          dsimp only
          -- a read that looks clear has a first register of zero, and so BUSY clear
          by_cases hlook : LooksClear srBusy buf
          · rw [if_pos ((tempStatusReg_clear srBusy buf).2 hlook), if_pos hlook]
            refine ⟨_, rfl, fun _ => ?_⟩
            rw [busyClear, Option.any_some, ((looksClear_busy buf).1 hlook).1]
            exact Bool.or_true _
          · rw [if_neg fun h => hlook ((tempStatusReg_clear srBusy buf).1 h), if_neg hlook]
            exact ih (cntTime + timeCheck) { s with
              reads := s.reads + 1
              ready := s.ready || busyClear (some buf) }
    · rw [poll_over hlt, pollLoop, if_neg hlt]
      exact ⟨s.ready, rfl, hother (some .errorCommand) (by decide)⟩

/-- The busy poll of the driver ends, and its status says whether it sees the chip ready. -/
theorem busyPoll_ends (mode : Interface) (reads : Nat → StatusRead) :
    ∃ status k, PollEnds mode srBusy 1 5000 reads status k ∧ (status = .ok ↔ PollOk reads) := by
  have hlook : LooksClear srBusy = fun buf => buf 0 = 0 ∧ buf 1 = 0 :=
    funext fun buf => propext (looksClear_busy buf)
  -- 5000 rounds of one millisecond do not wrap
  by_cases hdec : ∃ i < pollRounds 1 5000, ¬ Pending srBusy (reads i)
  · obtain ⟨status, k, -, hends, hstatus⟩ := poll_decided mode (by decide) hdec
    rw [hlook] at hstatus
    exact ⟨status, k, hends, hstatus⟩
  · have hp : ∀ j < pollRounds 1 5000, Pending srBusy (reads j) := fun j hj => by
      by_contra hno
      exact hdec ⟨j, hj, hno⟩
    have hnone := not_seen_of_pending hp
    rw [hlook] at hnone
    exact ⟨_, _, poll_timeout (by decide) (by decide) hp, iff_of_false nofun hnone⟩

/-- A poll during a call, just after a reset command. -/
theorem run_softPolling {mode : Interface} {timeCheck timeOut : UInt32} {status : Status} {k : Nat}
    (hcheck : 0 < timeCheck.toNat) (hout : timeOut.toNat + timeCheck.toNat ≤ 2 ^ 32)
    (hs : s.reads = 0)
    (h : PollEnds mode srBusy timeCheck timeOut (p.status s.acked) status k) :
    ∃ ready, (softPollingCheckLoMask mode srBusy (timeCheck, timeOut)).run p.handle s =
        (status, { s with reads := k, ready := ready }) ∧ (status = .ok → ready = true) := by
  obtain ⟨ready, hrun, hready⟩ :=
    run_pollLoop (p := p) mode timeCheck timeOut (timeOut.toNat + 1) 0 s
  rw [hs, poll_bounded hcheck hout h] at hrun hready
  refine ⟨ready, ?_, fun hok => hready (congrArg some hok)⟩
  rw [softPollingCheckLoMask, Prog.run_bind, hrun]
  rfl

/-- A function reads the mode that the driver has stored. -/
theorem run_inMode {α : Type} (f : Interface → Drv α) :
    (inMode f).run p.handle s = (f s.pqspi.interfaceMode).run p.handle s := rfl

/-- "Check if Flash busy?" there. -/
theorem run_checkBusy (p : InitPattern) (hs : s.reads = 0) :
    ∃ status k ready, checkBusy.run p.handle s =
        (status, { s with reads := k, ready := ready }) ∧
      (status = .ok ↔ PollOk (p.status s.acked)) ∧ (status = .ok → ready = true) := by
  obtain ⟨status, k, hends, hstatus⟩ :=
    busyPoll_ends s.pqspi.interfaceMode (p.status s.acked)
  obtain ⟨ready, hrun, hready⟩ := run_softPolling (by decide) (by decide) hs hends
  refine ⟨status, k, ready, ?_, hstatus, hready⟩
  rw [checkBusy, run_inMode, busyTimes]
  exact hrun

/-- A reset command during a call. -/
theorem run_resetCommand (mode : Interface) {i : UInt8} (hi : i ≠ readStatusReg1Cmd) :
    (simpleCommand mode i).run p.handle s =
      if p.acks mode i then (.ok, s.reset mode i) else (.errorCommand, s) := by
  have hcmd : (halCommand { mode, instruction := i }).run p.handle s =
      if p.acks mode i then (true, s.reset mode i) else (false, s) := if_neg hi
  rw [simpleCommand, Prog.run_bind, hcmd]
  cases p.acks mode i with
  | false => rfl
  | true => rfl

end Polls

/-! ### The steps -/

section Steps
variable {p : InitPattern} {s s' : InitState} {e : BspStatus} {k : Drv BspStatus}
  {Q : BspStatus × InitState → Prop}

/-- A step that fails ends the function with `e`. -/
theorem step_ends {q : Drv Status} {status : Status} (h : q.run p.handle s = (status, s'))
    (herror : status ≠ .ok → Q (e, s')) (hok : status = .ok → Q (k.run p.handle s')) :
    Q ((q >>= fun status => if status ≠ .ok then Prog.ret e else k).run p.handle s) := by
  rw [Prog.run_bind, h]
  show Q ((if status ≠ .ok then Prog.ret e else k).run p.handle s')
  by_cases hstatus : status = .ok
  · rw [if_neg (not_not.2 hstatus)]
    exact hok hstatus
  · rw [if_pos hstatus]
    exact herror hstatus

/-- A reset command that the controller does not take ends the function, and one that it takes goes
out to the chip. -/
theorem resetCommand_step {mode : Interface} {i : UInt8} (hi : i ≠ readStatusReg1Cmd)
    (herror : p.acks mode i ≠ true → Q (e, s))
    (hok : p.acks mode i = true → Q (k.run p.handle (s.reset mode i))) :
    Q ((simpleCommand mode i >>= fun status =>
      if status ≠ .ok then Prog.ret e else k).run p.handle s) := by
  have hrun := run_resetCommand (p := p) (s := s) mode hi
  by_cases hack : p.acks mode i = true
  · rw [if_pos hack] at hrun
    exact step_ends hrun (fun hno => absurd rfl hno) fun _ => hok hack
  · rw [if_neg hack] at hrun
    exact step_ends hrun (fun _ => herror hack) nofun

/-- The poll ends the function where the chip is not seen ready. -/
theorem checkBusy_step (hs : s.reads = 0)
    (herror : ∀ reads ready, ¬ PollOk (p.status s.acked) →
      Q (e, { s with reads := reads, ready := ready }))
    (hok : ∀ reads, PollOk (p.status s.acked) →
      Q (k.run p.handle { s with reads := reads, ready := true })) :
    Q ((checkBusy >>= fun status =>
      if status ≠ .ok then Prog.ret e else k).run p.handle s) := by
  obtain ⟨status, reads, ready, hrun, hstatus, hready⟩ := run_checkBusy p hs
  refine step_ends hrun (fun hno => herror reads ready (hstatus.not.1 hno)) fun h => ?_
  rw [hready h]
  exact hok reads (hstatus.1 h)

/-- The reset commands succeed, and the chip is seen ready between them. -/
structure InitPattern.Resets (p : InitPattern) : Prop where
  enableQpi : p.acks .qpi resetEnableCmd = true
  resetQpi : p.acks .qpi resetMemoryCmd = true
  ready : PollOk p.statusQpi
  enableSpi : p.acks .spi resetEnableCmd = true
  resetSpi : p.acks .spi resetMemoryCmd = true

/-- The state at the start of a call. -/
def InitState.start (pqspi : Pqspi) : InitState := ⟨pqspi, [], 0, false⟩

/-- What `QSPI_ResetMemory` returns and leaves: it sets `pqspi` iff the reset goes through. -/
def ResetEnds (p : InitPattern) (pqspi : Pqspi) (r : BspStatus × InitState) : Prop :=
  r = (.none, ⟨⟨.indirect, .spi⟩, resetSequence, 0, false⟩) ∧ p.Resets ∨
    r.1 = .componentFailure ∧ r.2.pqspi = pqspi ∧ ¬ p.Resets

/-- `QSPI_ResetMemory` step by step: the first command that fails, or the poll that fails, ends
it. -/
theorem run_qspiResetMemory (p : InitPattern) (pqspi : Pqspi) :
    ResetEnds p pqspi (qspiResetMemory.run p.handle (.start pqspi)) := by
  refine resetCommand_step (by decide) (fun h => ?_) fun henableQpi => ?_
  · exact Or.inr ⟨rfl, rfl, fun hp => h hp.enableQpi⟩
  refine resetCommand_step (by decide) (fun h => ?_) fun hresetQpi => ?_
  · exact Or.inr ⟨rfl, rfl, fun hp => h hp.resetQpi⟩
  refine checkBusy_step rfl (fun _ _ h => ?_) fun reads hready => ?_
  · exact Or.inr ⟨rfl, rfl, fun hp => h hp.ready⟩
  refine resetCommand_step (by decide) (fun h => ?_) fun henableSpi => ?_
  · exact Or.inr ⟨rfl, rfl, fun hp => h hp.enableSpi⟩
  refine resetCommand_step (by decide) (fun h => ?_) fun hresetSpi => ?_
  · exact Or.inr ⟨rfl, rfl, fun hp => h hp.resetSpi⟩
  exact Or.inl ⟨rfl, henableQpi, hresetQpi, hready, henableSpi, hresetSpi⟩

/-- The last poll is the one that fails. -/
structure InitPattern.LastPollFails (p : InitPattern) : Prop where
  halInit : p.halInit = true
  resets : p.Resets
  busy : ¬ PollOk p.statusSpi

/-- What a call returns and leaves if the driver is not initialised. -/
inductive InitEnds (p : InitPattern) (pqspi : Pqspi) : BspStatus × InitState → Prop
  /-- the chip is reset and ready -/
  | ready {s : InitState} (hs : s.ResetReady) (hp : s.pqspi.isInitialized = .indirect)
      (hlast : ¬ p.LastPollFails) : InitEnds p pqspi (.none, s)
  /-- the last poll fails -/
  | busy {s : InitState} (hp : s.pqspi.isInitialized = .indirect) (hlast : p.LastPollFails) :
      InitEnds p pqspi (.componentFailure, s)
  /-- a step before it fails -/
  | failed {r : BspStatus} {s : InitState} (hr : r ≠ .none) (hp : s.pqspi = pqspi)
      (hlast : ¬ p.LastPollFails) : InitEnds p pqspi (r, s)

/-- `BSP_QSPI_Init` on a driver that is not initialised: it stores the flag first and polls last. -/
theorem run_bspQspiInit (p : InitPattern) {pqspi : Pqspi} (hnone : pqspi.isInitialized = .none) :
    InitEnds p pqspi (bspQspiInit.run p.handle (.start pqspi)) := by
  show InitEnds p pqspi (Prog.run _ (if pqspi.isInitialized = .none then _ else _) _)
  rw [if_pos hnone]
  show InitEnds p pqspi (Prog.run _ (if ¬ p.halInit = true then _ else _) (.start pqspi))
  by_cases hinit : p.halInit = true
  · have hreset := run_qspiResetMemory p pqspi
    rw [if_neg (not_not.2 hinit), Prog.run_bind]
    generalize qspiResetMemory.run p.handle (.start pqspi) = r at hreset ⊢
    -- `pqspi` is set here, before the last poll
    obtain ⟨rfl, hresets⟩ | ⟨hr, hp, hno⟩ := hreset
    · refine checkBusy_step rfl (fun _ _ h => ?_) fun _ h => ?_
      · exact .busy rfl ⟨hinit, hresets, h⟩
      · exact .ready ⟨rfl, rfl⟩ rfl fun hlast => hlast.busy h
    · rw [hr]
      exact .failed nofun hp fun hlast => hno hlast.resets
  · rw [if_pos hinit]
    exact .failed nofun rfl fun hlast => hinit hlast.halInit

end Steps

/-! ### Histories -/

/-- The driver between the calls: `pqspi`, and whether the chip has been reset and seen ready in
one of the calls so far. -/
structure Boot where
  pqspi : Pqspi
  seen : Bool

/-- One call of `BSP_QSPI_Init`: what it returns and leaves. -/
def Boot.call (b : Boot) (p : InitPattern) : BspStatus × Boot :=
  let r := bspQspiInit.run p.handle (.start b.pqspi)
  (r.1, ⟨r.2.pqspi, b.seen || decide r.2.ResetReady⟩)

/-- The driver after the call. -/
def Boot.step (b : Boot) (p : InitPattern) : Boot := (b.call p).2

/-- The driver before the first call. -/
def Boot.start (mode : Interface) : Boot := ⟨⟨.none, mode⟩, false⟩

/-- After an error the driver is not initialised, and `BSP_ERROR_NONE` says that the chip has
been reset and seen ready since. -/
def Boot.Retried (b : Boot) (p : InitPattern) : Prop :=
  ((b.call p).1 ≠ .none → (b.call p).2.pqspi.isInitialized = .none) ∧
  ((b.call p).1 = .none → (b.call p).2.seen = true)

/-- An initialised driver has seen the chip ready. -/
def Boot.Inv (b : Boot) : Prop := b.pqspi.isInitialized ≠ .none → b.seen = true

section Histories
variable {b : Boot} {p : InitPattern}

/-- A call does nothing to an initialised driver. -/
theorem call_initialised (h : b.pqspi.isInitialized ≠ .none) : (b.call p).1 = .none ∧
    (b.call p).2.seen = b.seen ∧ (b.call p).2.pqspi = b.pqspi := by
  -- the whole function is inside the test
  have hrun : bspQspiInit.run p.handle (.start b.pqspi) = (.none, .start b.pqspi) := by
    show Prog.run _ (if b.pqspi.isInitialized = .none then _ else _) _ = _
    rw [if_neg h]
    rfl
  refine ⟨congrArg Prod.fst hrun, ?_, congrArg (·.2.pqspi) hrun⟩
  show (b.seen || decide (bspQspiInit.run p.handle (.start b.pqspi)).2.ResetReady) = b.seen
  rw [hrun]
  exact Bool.or_false b.seen

/-- A call of a driver that is not initialised. -/
theorem call_ends (h : b.pqspi.isInitialized = .none) :
    ∃ s, InitEnds p b.pqspi ((b.call p).1, s) ∧ (b.call p).2.pqspi = s.pqspi ∧
      (b.call p).2.seen = (b.seen || decide s.ResetReady) :=
  ⟨_, run_bspQspiInit p h, rfl, rfl⟩

/-- A call is right unless its last poll is the one that fails. The last poll is behind
`IsInitialized = 1`, so its failure is reported once and not repeated. Every earlier step ends the
call before that. -/
theorem retried_iff (hb : b.Inv) :
    b.Retried p ↔ ¬ (b.pqspi.isInitialized = .none ∧ p.LastPollFails) := by
  by_cases hnone : b.pqspi.isInitialized = .none
  · obtain ⟨s, hends, hpqspi, hseen⟩ := call_ends (p := p) hnone
    rw [Boot.Retried, hpqspi, hseen]
    generalize (b.call p).1 = r at hends ⊢
    cases hends with
    | ready hs hp hlast =>
      refine iff_of_true ⟨fun h => absurd rfl h, fun _ => ?_⟩ fun h => hlast h.2
      rw [decide_eq_true hs, Bool.or_true]
    | busy hp hlast =>
      refine iff_of_false (fun h => ?_) (not_not.2 ⟨hnone, hlast⟩)
      rw [h.1 nofun] at hp
      cases hp
    | failed hr hp hlast =>
      refine iff_of_true ⟨fun _ => ?_, fun h => absurd h hr⟩ fun h => hlast h.2
      rw [hp, hnone]
  · obtain ⟨hr, hseen, -⟩ := call_initialised (p := p) hnone
    refine iff_of_true ⟨fun h => absurd hr h, fun _ => ?_⟩ fun h => hnone h.1
    rw [hseen]
    exact hb hnone

/-- A call that was retried as it should be leaves a flag that can be trusted. -/
theorem inv_step (h : b.Retried p) : (b.step p).Inv := by
  intro hinit
  by_cases hr : (b.call p).1 = .none
  · exact h.2 hr
  · exact absurd (h.1 hr) hinit

end Histories

/-- A failed initialisation is retried throughout a history, and `BSP_ERROR_NONE` is returned
only when the chip has been reset and seen ready, iff in no call the reset goes through and the
last poll fails. -/
theorem init_retried_iff (mode : Interface) (ps : List InitPattern) :
    Along Boot.step Boot.Retried (.start mode) ps ↔
      Along Boot.step (fun b p => ¬ (b.pqspi.isInitialized = .none ∧ p.LastPollFails))
        (.start mode) ps :=
  along_congr (fun _ _ _ h => inv_step h) (fun _ _ hb => retried_iff hb)
    (fun h => absurd rfl h) ps

/-- All calls of the HAL succeed up to the last poll, and the first status read of that fails. -/
def lastReadFails : InitPattern where
  halInit := true
  acks _ _ := true
  statusQpi _ := ⟨true, some fun _ => 0⟩
  statusSpi _ := ⟨false, none⟩

/-- After the error the driver counts as initialised. -/
theorem init_committed_early : ¬ Along Boot.step Boot.Retried (.start .spi) [lastReadFails] := by
  rintro ⟨hretried, -⟩
  have hinv : (Boot.start .spi).Inv := fun h => absurd rfl h
  -- the first read of the last poll fails, and nothing before it
  have hlast : lastReadFails.LastPollFails := by
    refine ⟨rfl, ⟨rfl, rfl, ⟨0, by decide, ⟨_, rfl, rfl, rfl⟩, nofun⟩, rfl, rfl⟩, ?_⟩
    rintro ⟨i, -, ⟨buf, hbuf, -⟩, -⟩
    cases hbuf
  exact (retried_iff hinv).1 hretried ⟨rfl, hlast⟩

end NucleoH743.Flash
