import NucleoH743.Flash.Device
import NucleoH743.Proofs.Flash.Interleaving

/-!
# `Proofs.Flash.Device`: what the component functions do to the device

These are the specifications of the component functions, for any answers of the controller. Each of
them is proved once, by the rules of `Lib.Choice`, and the modules on the board driver and on the
disk layer use no other fact about the component.

A poll makes the chip pass through time. A program or erase in progress may end during it, and only
this; so what a caller knows of the array before a poll it knows behind it as well (`Quiet`). How
long it takes is counted in delays of the poll (`IdleAfter`), since the loop reads the status once
between two of them.

- `Still`: reads of the status and of the array leave the chip as it is.
- `Quiet`, `ends_softPolling`: during a poll a program or erase may end, and a poll that succeeds
  has seen the chip idle.
- `ends_softPolling_ok`: a poll succeeds if its time is enough.
- `pollLoop_fuel`: the bound on the rounds of a poll is never reached.
-/

set_option autoImplicit false

namespace NucleoH743.Flash

open Prog (always_bind always_mono always_seq)

/-- The function ends with `Q`, whatever the answers are that `allow` allows. -/
abbrev Ends {α : Type} (allow : Answer → Prop) (p : Drv α) (Q : α → Device → Prop) (d : Device) :
    Prop :=
  p.Always Device.handle allow Q d

/-! ### Reading -/

/-- Nothing has changed but the controller and the reset latch. -/
def Still (d d' : Device) : Prop :=
  ∃ ccr resetEnabled, d' = { d with ccr := ccr, resetEnabled := resetEnabled }

/-- The commands that only read. -/
def ReadsOnly (c : QspiCommand) : Prop :=
  c.instruction = readStatusReg1Cmd ∨ c.instruction = fastReadCmd

section Reading
variable {d d' : Device} {x : Answer} {c : QspiCommand}

/-- A device that does nothing is still. -/
theorem Still.refl (d : Device) : Still d d := ⟨d.ccr, d.resetEnabled, rfl⟩

/-- Two calls that change the controller only change the controller only. -/
theorem Still.trans {d'' : Device} (h : Still d d') (h' : Still d' d'') : Still d d'' := by
  obtain ⟨ccr, resetEnabled, rfl⟩ := h
  obtain ⟨ccr', resetEnabled', rfl⟩ := h'
  exact ⟨ccr', resetEnabled', rfl⟩

/-- Only four commands concern the interface. -/
theorem interface_other {i : UInt8} (h : i ∉ [resetEnableCmd, enterQuadCmd, exitQuadCmd,
    resetMemoryCmd]) : d.interface i = { d with resetEnabled := false } := by
  simp only [List.mem_cons, List.not_mem_nil, or_false, not_or] at h
  rw [Device.interface, if_neg h.1, if_neg h.2.1, if_neg h.2.2.1, if_neg fun hr => h.2.2.2 hr.1]

/-- A command that only reads changes nothing in the chip. -/
theorem ReadsOnly.accept (h : ReadsOnly c) (chip : Chip) (data : List UInt8) :
    chip.accept 0 c data = chip :=
  h.elim (Chip.accept_status chip 0 data) (Chip.accept_fastRead chip 0 data)

/-- The interface drops the reset latch for it, and keeps its mode. -/
theorem ReadsOnly.interface (h : ReadsOnly c) :
    d.interface c.instruction = { d with resetEnabled := false } := by
  apply interface_other
  rcases h with h | h
  · rw [h]
    decide
  · rw [h]
    decide

/-- So sending it changes the controller and the reset latch at most. -/
theorem ReadsOnly.send (h : ReadsOnly c) (data : List UInt8) : Still d (d.send x c data) := by
  unfold Device.send
  split
  · rename_i htake
    dsimp only
    rw [h.interface, h.accept, Device.busyFor, if_pos htake.2]
    exact ⟨d.ccr, false, rfl⟩
  · exact Still.refl d

/-- The data phase of a read. -/
theorem ReadsOnly.transfer (h : ReadsOnly c) (hc : d.ccr = some c) (data : List UInt8) :
    (d.transfer x data).1 = (if x.ok then some (d.answer c x.noise) else none) ∧
      Still d (d.transfer x data).2 := by
  have hstill : Still d { d with ccr := none } := ⟨none, d.resetEnabled, rfl⟩
  unfold Device.transfer
  rw [hc]
  cases x.ok with
  | true => exact ⟨rfl, hstill.trans (h.send data)⟩
  | false =>
    simp only [Bool.false_eq_true, if_false]
    split
    · exact ⟨rfl, hstill.trans (h.send _)⟩
    · exact ⟨rfl, hstill⟩

end Reading

/-! ### Rules for the calls -/

section Rules
variable {α : Type} {allow : Answer → Prop} {Q : α → Device → Prop} {d : Device}
  {c : QspiCommand}

/-- A command without data goes out at once. -/
theorem ends_command (hn : c.nbData = none) {f : Bool → Drv α}
    (h : ∀ x, allow x → Ends allow (f x.ok) Q (if x.ok ∨ x.reaches then d.send x c [] else d)) :
    Ends allow (halCommand c >>= f) Q d := by
  intro x hx
  simp only [Device.handle, hn]
  exact h x hx

/-- A call of the component gets the interface mode of the driver. -/
theorem ends_inMode {f : Interface → Drv α} (h : Ends allow (f d.pqspi.interfaceMode) Q d) :
    Ends allow (inMode f) Q d :=
  fun _ _ => h

/-- A step of the board driver, which returns early if the step fails. -/
theorem ends_guard {p : Drv Status} {P : Status → Device → Prop} {e : α} {k : Drv α}
    (hp : Ends allow p P d) (hok : ∀ d', P .ok d' → Ends allow k Q d')
    (hfail : ∀ status d', status ≠ .ok → P status d' → Q e d') :
    Ends allow (p >>= fun status => if status ≠ .ok then pure e else k) Q d := by
  refine always_seq hp fun status d' h => ?_
  by_cases hst : status = .ok
  · subst hst
    exact hok d' h
  · rw [if_pos hst]
    exact hfail status d' hst h

/-- The two calls that receive. -/
def Receives (recv : Drv (Option (Nat → UInt8))) : Prop := recv = halReceive ∨ recv = halFastReceive

/-- A read: the command is set up in the controller, and the bytes come in. It changes nothing in
the chip. Either of the two HAL calls may fail, and the rest is proved for each of the three ways
on. -/
theorem ends_read {n : Nat} (hn : c.nbData = some n) (hc : ReadsOnly c)
    {recv : Drv (Option (Nat → UInt8))} (hrecv : Receives recv)
    {f : Option (Nat → UInt8) → Drv α} {e : Drv α}
    (hok : ∀ x d', allow x → Still d d' → Ends allow (f (some (d.answer c x.noise))) Q d')
    (hfail : (∃ x, allow x ∧ x.ok = false) → ∀ d', Still d d' → Ends allow (f none) Q d')
    (hcmd : (∃ x, allow x ∧ x.ok = false) → Ends allow e Q d) :
    Ends allow (halCommand c >>= fun ok => if ok then recv >>= f else e) Q d := by
  intro x hx
  simp only [Device.handle, hn]
  cases hxok : x.ok with
  | false => exact hcmd ⟨x, hx, hxok⟩
  | true =>
    -- both ways to receive are the data phase of the command
    have hdata : ∀ y, allow y →
        Ends allow (f (({ d with ccr := some c } : Device).transfer y []).1) Q
          (({ d with ccr := some c } : Device).transfer y []).2 := by
      intro y hy
      have hset : Still d { d with ccr := some c } := ⟨some c, d.resetEnabled, rfl⟩
      obtain ⟨hbuf, hstill⟩ := hc.transfer (d := { d with ccr := some c }) (x := y) rfl []
      rw [hbuf]
      cases hyok : y.ok with
      | true => exact hok y _ hy (hset.trans hstill)
      | false => exact hfail ⟨y, hy, hyok⟩ _ (hset.trans hstill)
    rcases hrecv with rfl | rfl
    · exact hdata
    · exact hdata

end Rules

/-! ### Polling -/

/-- A program or erase may have ended, and nothing else has changed. -/
structure Quiet (d d' : Device) : Prop where
  chip : d'.chip = d.chip ∨ d'.chip = d.chip.done
  mode : d'.mode = d.mode
  pqspi : d'.pqspi = d.pqspi
  programs : d'.programs = d.programs

/-- What has ended does not end again. -/
theorem Chip.done_done (chip : Chip) : chip.done.done = chip.done := by
  have hidle := chip.done_idle
  rw [Chip.done, if_neg (by simp [hidle])]

/-- A program or erase ends once, in the first of two quiet calls or in the second. -/
theorem Quiet.trans {d d' d'' : Device} (h : Quiet d d') (h' : Quiet d' d'') : Quiet d d'' where
  chip := by
    rcases h'.chip with hc | hc
    · rw [hc]
      exact h.chip
    · rcases h.chip with hd | hd
      · exact .inr (by rw [hc, hd])
      · exact .inr (by rw [hc, hd, Chip.done_done])
  mode := h'.mode.trans h.mode
  pqspi := h'.pqspi.trans h.pqspi
  programs := h'.programs.trans h.programs

/-- A device that is still is quiet. -/
theorem Still.quiet {d d' : Device} (h : Still d d') : Quiet d d' := by
  obtain ⟨ccr, resetEnabled, rfl⟩ := h
  exact ⟨.inl rfl, rfl, rfl, rfl⟩

/-- While time passes, what the chip does may end. -/
theorem quiet_pass (d : Device) (ms : Nat) : Quiet d (d.pass ms) := by
  refine ⟨?_, rfl, rfl, rfl⟩
  unfold Device.pass
  dsimp only
  split
  · exact .inr rfl
  · exact .inl rfl

/-- The chip has ended what it did, and the write enable latch is off. -/
def Chip.Idle (chip : Chip) : Prop := chip.busyBy = none ∧ chip.wel = false

/-- Status register 1 is zero for an idle chip and for no other. -/
theorem Chip.sr1_eq_zero (chip : Chip) : chip.sr1 = 0 ↔ chip.Idle := by
  unfold Chip.sr1 Chip.Idle
  cases chip.busyBy with
  | none => cases chip.wel <;> decide
  | some call => cases chip.wel <;> simp

/-- The command for the status register only reads. -/
theorem statusCommand_readsOnly (mode : Interface) : ReadsOnly (statusCommand mode) := .inl rfl

/-- A chip in the mode of the command answers it with its status register, at every byte that is
read. -/
theorem answer_status {d : Device} {mode : Interface} (hmode : d.mode = mode)
    (noise : Nat → UInt8) (i : Nat) : d.answer (statusCommand mode) noise i = d.chip.sr1 := by
  have hlines : (statusCommand mode).mode = d.mode := hmode.symm
  rw [Device.answer, if_pos hlines]
  rfl

section Polling
variable {allow : Answer → Prop} {mode : Interface}

/-- How a poll ends: if well, on an idle chip. -/
def Polled (mode : Interface) (d : Device) (status : Status) (d' : Device) : Prop :=
  Quiet d d' ∧ (status = .ok → d.mode = mode → d'.chip.Idle)

/-- A poll behind a quiet call ends as the poll alone. -/
theorem Polled.quiet {d d' d'' : Device} {status : Status} (h : Quiet d d')
    (h' : Polled mode d' status d'') : Polled mode d status d'' :=
  ⟨h.trans h'.1, fun hok hmode => h'.2 hok (h.mode.trans hmode)⟩

/-- The loop of `SoftPollingCheckLoMask` reads the status and waits, until the bit is off, a read
fails, or the time is over. By induction on its rounds. -/
theorem ends_pollLoop (timeCheck timeOut : UInt32) (fuel : Nat) (cntTime : UInt32) (d : Device) :
    Ends allow (pollLoop mode srBusy timeCheck timeOut fuel cntTime)
      (fun status d' => Polled mode d (status.getD .errorCommand) d') d := by
  induction fuel generalizing cntTime d with
  | zero => exact ⟨(Still.refl d).quiet, fun h => absurd h (by decide)⟩
  | succ fuel ih =>
    unfold pollLoop
    split
    · refine ends_read rfl (statusCommand_readsOnly mode) (.inl rfl) ?_ ?_ ?_
      · intro x d' _ hstill
        dsimp only
        split
        · -- the byte that ends the loop
          refine ⟨hstill.quiet, fun _ hmode => ?_⟩
          have hzero := buf_zero_of_tempStatusReg ‹_›
          rw [answer_status hmode, Chip.sr1_eq_zero] at hzero
          obtain ⟨ccr, resetEnabled, rfl⟩ := hstill
          exact hzero
        · intro y _
          have hquiet := hstill.quiet.trans (quiet_pass d' timeCheck.toNat)
          exact always_mono (fun _ _ h => h.quiet hquiet) (ih (cntTime + timeCheck) _)
      · exact fun _ d' hstill => ⟨hstill.quiet, fun h => absurd h (by decide)⟩
      · exact fun _ => ⟨(Still.refl d).quiet, fun h => absurd h (by decide)⟩
    · exact ⟨(Still.refl d).quiet, fun h => absurd h (by decide)⟩

/-- So does the function, which runs the loop as often as its time allows. -/
theorem ends_softPolling (times : UInt32 × UInt32) (d : Device) :
    Ends allow (softPollingCheckLoMask mode srBusy times) (Polled mode d) d :=
  always_seq (ends_pollLoop times.1 times.2 _ 0 d) fun _ _ h => h

/-- "Check if Flash busy?" polls in the mode of the driver. -/
theorem ends_checkBusy (d : Device) :
    Ends allow checkBusy (Polled d.pqspi.interfaceMode d) d := by
  unfold checkBusy
  exact ends_inMode (ends_softPolling busyTimes d)

end Polling

/-! ### Polls that succeed -/

/-- The write enable latch does not outlive the program or erase that it was set for. -/
def Calm (d : Device) : Prop := d.chip.busyBy = none → d.chip.wel = false

/-- The latch of an idle chip is off. -/
theorem Chip.Idle.calm {d : Device} (h : d.chip.Idle) : Calm d := fun _ => h.2

/-- A program or erase that ends takes the latch with it. -/
theorem Chip.done_idle_of_busy {chip : Chip} (h : chip.busyBy ≠ none) : chip.done.Idle := by
  have hsome : chip.busyBy.isSome := Option.isSome_iff_ne_none.2 h
  rw [Chip.done, if_pos hsome]
  exact ⟨rfl, rfl⟩

/-- On an idle chip there is nothing to end. -/
theorem Chip.Idle.done {chip : Chip} (h : chip.Idle) : chip.done = chip := by
  rw [Chip.done, if_neg (by simp [h.1])]

/-- The array was written when the work began, so the end of the work leaves it alone. -/
theorem Chip.done_mem (chip : Chip) : chip.done.mem = chip.mem := by
  unfold Chip.done
  split <;> rfl

/-- A poll leaves the array alone. -/
theorem Quiet.mem {d d' : Device} (h : Quiet d d') : d'.chip.mem = d.chip.mem := by
  rcases h.chip with hc | hc
  · rw [hc]
  · rw [hc, Chip.done_mem]

/-- A device that is idle, or will be after `k` delays of `t` milliseconds. -/
def IdleAfter (k t : Nat) (d : Device) : Prop :=
  d.chip.Idle ∨ 0 < k ∧ d.chip.busyBy ≠ none ∧ d.busyMs ≤ k * t

/-- A calm device whose work takes at most `k` delays is idle after them. -/
theorem Calm.idleAfter {d : Device} (h : Calm d) {k t : Nat} (hk : 0 < k)
    (hms : d.chip.busyBy ≠ none → d.busyMs ≤ k * t) : IdleAfter k t d := by
  by_cases hbusy : d.chip.busyBy = none
  · exact .inl ⟨hbusy, h hbusy⟩
  · exact .inr ⟨hk, hbusy, hms hbusy⟩

/-- One delay less. The time of the operation in progress goes down by it, or the operation has
ended. -/
theorem IdleAfter.pass {k t : Nat} {d : Device} (h : IdleAfter (k + 1) t d) :
    IdleAfter k t (d.pass t) := by
  unfold Device.pass
  rcases h with hidle | ⟨_, hbusy, hms⟩
  · left
    dsimp only
    split
    · rw [hidle.done]
      exact hidle
    · exact hidle
  · by_cases hlast : d.busyMs ≤ t
    · left
      dsimp only
      rw [if_pos hlast]
      exact Chip.done_idle_of_busy hbusy
    · right
      have hmul : (k + 1) * t = k * t + t := Nat.succ_mul k t
      have hpos : 0 < k := by
        rcases Nat.eq_zero_or_pos k with rfl | hpos
        · omega
        · exact hpos
      dsimp only
      rw [if_neg hlast]
      exact ⟨hpos, hbusy, by omega⟩

/-- A call that changes the controller only costs none of the delays. -/
theorem Still.idleAfter {k t : Nat} {d d' : Device} (h : IdleAfter k t d) (hd : Still d d') :
    IdleAfter k t d' := by
  obtain ⟨ccr, resetEnabled, rfl⟩ := hd
  exact h

/-- A buffer of zeros ends the poll. -/
theorem tempStatusReg_zero {buf : Nat → UInt8} (h : ∀ i, buf i = 0) :
    tempStatusReg buf &&& srBusy = 0 := by
  rw [tempStatusReg, h 0, h 1]
  rfl

section PollingOk
variable {allow : Answer → Prop} {mode : Interface} {timeCheck timeOut : UInt32}

/-- The poll sees the chip idle at the latest after `k` delays, if its time is enough for them. By
induction on the delays. The status is read before each of them, and the time is compared with the
limit after it. -/
theorem ends_pollLoop_ok (hallow : ∀ x, allow x → x.ok = true) (k : Nat) {fuel : Nat}
    (hfuel : k < fuel) {cntTime : UInt32}
    (htime : cntTime.toNat + k * timeCheck.toNat < timeOut.toNat) {d : Device}
    (hmode : d.mode = mode) (hd : IdleAfter k timeCheck.toNat d) :
    Ends allow (pollLoop mode srBusy timeCheck timeOut fuel cntTime)
      (fun status _ => status = some .ok) d := by
  have hnofail : ¬ ∃ x, allow x ∧ x.ok = false := by
    rintro ⟨x, hx, hfail⟩
    rw [hallow x hx] at hfail
    cases hfail
  -- the induction is on the delays that the chip needs
  induction k generalizing fuel cntTime d with
  | zero =>
    obtain ⟨fuel, rfl⟩ : ∃ n, fuel = n + 1 := ⟨fuel - 1, by omega⟩
    have hlt : cntTime < timeOut := UInt32.lt_iff_toNat_lt.2 (by omega)
    -- the chip is idle, so this read of the status ends the poll
    have hidle : d.chip.Idle := hd.resolve_right fun h => Nat.lt_irrefl 0 h.1
    unfold pollLoop
    rw [if_pos hlt]
    refine ends_read rfl (statusCommand_readsOnly mode) (.inl rfl) ?_
      (fun h => absurd h hnofail) (fun h => absurd h hnofail)
    intro x d' _ _
    have hbuf : ∀ i, d.answer (statusCommand mode) x.noise i = 0 := fun i => by
      rw [answer_status hmode, (Chip.sr1_eq_zero _).2 hidle]
    dsimp only
    rw [if_pos (tempStatusReg_zero hbuf)]
    rfl
  | succ k ih =>
    obtain ⟨fuel, rfl⟩ : ∃ n, fuel = n + 1 := ⟨fuel - 1, by omega⟩
    have hmul : (k + 1) * timeCheck.toNat = k * timeCheck.toNat + timeCheck.toNat :=
      Nat.succ_mul k _
    have hlt : cntTime < timeOut := UInt32.lt_iff_toNat_lt.2 (by omega)
    have hout : timeOut.toNat < 2 ^ 32 := timeOut.toNat_lt
    have hadd : (cntTime + timeCheck).toNat = cntTime.toNat + timeCheck.toNat := by
      rw [UInt32.toNat_add, Nat.mod_eq_of_lt (by omega)]
    unfold pollLoop
    rw [if_pos hlt]
    refine ends_read rfl (statusCommand_readsOnly mode) (.inl rfl) ?_
      (fun h => absurd h hnofail) (fun h => absurd h hnofail)
    intro x d' _ hstill
    dsimp only
    split
    · rfl
    · -- another delay
      intro y _
      obtain ⟨ccr, resetEnabled, rfl⟩ := hstill
      exact ih (by omega) (by omega) hmode (IdleAfter.pass hd)

/-- A poll on a controller without errors ends well, if the work of the chip takes fewer delays than
the time of the poll has. The last read comes after the last of these delays. -/
theorem ends_softPolling_ok (hallow : ∀ x, allow x → x.ok = true) {times : UInt32 × UInt32}
    {k : Nat} (hpos : 0 < k) (hcheck : 0 < times.1.toNat)
    (htime : k * times.1.toNat < times.2.toNat) {d : Device} (hmode : d.mode = mode)
    (hcalm : Calm d) (hms : d.chip.busyBy ≠ none → d.busyMs ≤ k * times.1.toNat) :
    Ends allow (softPollingCheckLoMask mode srBusy times) (fun status _ => status = .ok) d := by
  have hfuel : k < times.2.toNat + 1 := by
    have hle : k ≤ k * times.1.toNat := Nat.le_mul_of_pos_right k hcheck
    omega
  have hstart : (0 : UInt32).toNat + k * times.1.toNat < times.2.toNat := by simpa using htime
  have hloop := ends_pollLoop_ok hallow k hfuel hstart hmode (hcalm.idleAfter hpos hms)
  exact always_seq hloop fun status _ h => by rw [h]; rfl

end PollingOk

/-- A poll ends before its rounds are used up: a larger bound makes no difference. By induction on
the fuel, with the time general. -/
theorem pollLoop_fuel (mode : Interface) (mask : UInt32) {timeCheck timeOut : UInt32}
    (hcheck : 0 < timeCheck.toNat) (hout : timeOut.toNat + timeCheck.toNat ≤ 2 ^ 32) (n : Nat)
    (fuel : Nat) {cntTime : UInt32} (hfuel : timeOut.toNat ≤ cntTime.toNat + fuel) :
    pollLoop mode mask timeCheck timeOut (fuel + 1 + n) cntTime =
      pollLoop mode mask timeCheck timeOut (fuel + 1) cntTime := by
  induction fuel generalizing cntTime with
  | zero =>
    have hend : ¬ cntTime < timeOut := by
      rw [UInt32.lt_iff_toNat_lt]
      omega
    rw [Nat.zero_add, Nat.add_comm 1 n, pollLoop, pollLoop, if_neg hend, if_neg hend]
  | succ fuel ih =>
    by_cases hlt : cntTime < timeOut
    · have hlt' := UInt32.lt_iff_toNat_lt.1 hlt
      have hadd : (cntTime + timeCheck).toNat = cntTime.toNat + timeCheck.toNat := by
        rw [UInt32.toNat_add, Nat.mod_eq_of_lt (by omega)]
      have hstep : timeOut.toNat ≤ (cntTime + timeCheck).toNat + fuel := by omega
      have hnext := ih hstep
      rw [Nat.add_right_comm]
      generalize fuel + 1 + n = more at hnext ⊢
      generalize fuel + 1 = rounds at hnext ⊢
      rw [pollLoop, pollLoop, hnext]
    · rw [Nat.add_right_comm, pollLoop, if_neg hlt, pollLoop, if_neg hlt]

end NucleoH743.Flash
