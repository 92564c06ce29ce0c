import NucleoH743.Flash.Chip

/-!
# `Proofs.Flash.Interleaving`: driver calls of several tasks

Writes and erases poll the busy bit before their first command, and no task switch falls
between a poll that succeeds and the command that follows. `BSP_QSPI_Read` does not poll. So
all depends on when reads start.

`flashLogic` proves the driver programs from what the status reads tell them. Its knowledge
`Know` records that the chip has been seen idle since the last yield.

The proof is one of `Lib.Coop`. A driver program runs without interruption between two delays. What
it learns from the bytes of a status read (`Know.received`) holds until it yields, since no other
task can send a command meanwhile; after a yield it knows nothing, and polls again before it sends a
command. `Know.ok` lists the commands that may be sent with this knowledge.

`BSP_QSPI_Read` sends its command without a poll. So its proof needs that the chip is idle at its
start, which is the condition on the runs, and what it then knows holds until it returns, as it
never yields.

- `flash_calls_isolated`: if no read starts while the chip is busy, then in every run no
  command but a status read reaches a busy chip, and every read that reports success delivers
  what the array holds.
- `read_during_erase`: a read that starts while another task waits for an erase.
-/

set_option autoImplicit false

namespace NucleoH743.Flash

open Coop EventRun

/-! ### The chip -/

section Chip
variable (chip : Chip) (call : Nat) {c : QspiCommand} (data : List UInt8)

/-- Status reads change nothing. -/
theorem Chip.accept_status (h : c.instruction = readStatusReg1Cmd) :
    chip.accept call c data = chip := by
  simp [accept, h, readStatusReg1Cmd, writeEnableCmd, pageProgCmd, subsectorEraseCmd4K,
    subsectorEraseCmd32K, subsectorEraseCmd64K, chipEraseCmd]

/-- Reads of the array change nothing. -/
theorem Chip.accept_fastRead (h : c.instruction = fastReadCmd) :
    chip.accept call c data = chip := by
  simp [accept, h, fastReadCmd, writeEnableCmd, pageProgCmd, subsectorEraseCmd4K,
    subsectorEraseCmd32K, subsectorEraseCmd64K, chipEraseCmd]

/-- A write enable starts no program or erase. -/
theorem Chip.accept_writeEnable (h : c.instruction = writeEnableCmd) :
    (chip.accept call c data).busyBy = chip.busyBy := by
  unfold accept
  split_ifs <;> rfl

/-- Status register 1 is zero only if the chip is idle. -/
theorem Chip.idle_of_sr1 (h : chip.sr1 = 0) : chip.busyBy = none := by
  cases hb : chip.busyBy with
  | none => rfl
  | some n =>
    cases hw : chip.wel with
    | true => simp [sr1, hb, hw] at h
    | false => simp [sr1, hb, hw] at h

/-- The end of a program or erase leaves the array alone. -/
theorem Chip.done_array : chip.done.array = chip.array := by
  funext addr j
  unfold done
  split_ifs <;> rfl

/-- A chip that has ended its work is idle. -/
theorem Chip.done_idle : chip.done.busyBy = none := by
  unfold done
  split_ifs with h
  · rfl
  · simpa using h

end Chip

/-! ### What a call knows -/

/-- The knowledge of a call. -/
structure Know where
  /-- the chip is idle -/
  idle : Bool
  /-- the command that waits for its data phase -/
  ccr : Option QspiCommand
  /-- the bytes of the array read last: their address and the bytes -/
  got : Option (UInt32 × (Nat → UInt8))

/-- After a yield a call knows nothing. -/
def Know.unknown : Know := { idle := false, ccr := none, got := none }

/-- The bytes of a data phase tell that the chip is idle. -/
def saysIdle (c : QspiCommand) : Option (Nat → UInt8) → Bool
  | some buf => c.instruction = readStatusReg1Cmd ∧ buf 0 = 0
  | none => false

/-- What the bytes of a data phase add to the knowledge. -/
def Know.received (k : Know) (r : Option (Nat → UInt8)) : Know :=
  match k.ccr with
  | none => k
  | some c =>
    { idle := k.idle || saysIdle c r
      ccr := none
      got := if c.instruction = fastReadCmd then r.map fun buf => (c.address.getD 0, buf)
        else none }

/-- What `HAL_QSPI_Command` adds to the knowledge: a command without data has gone out. -/
def Know.commanded (k : Know) (c : QspiCommand) (r : Bool) : Know :=
  match c.nbData with
  | none => { k with idle := k.idle && c.instruction = writeEnableCmd, got := none }
  | some _ => { k with ccr := if r then some c else none }

/-- What an answer adds to the knowledge. -/
def Know.next (k : Know) : (o : HalOp) → o.Res → Know
  | .command c, r => k.commanded c r
  | .receive, r => k.received r
  | .fastReceive, r => k.received r
  | .transmit _, _ => .unknown
  | .autoPolling _ _ _, _ => { k with ccr := none }
  | .delay _, _ => .unknown
  | .init, _ | .loadPqspi, _ | .storePqspi _, _ => k

/-- The operations that cannot disturb a program or erase in progress. -/
def Know.ok (k : Know) : HalOp → Prop
  | .command c => c.nbData = none → k.idle = true
  | .receive | .fastReceive =>
    ∃ c, k.ccr = some c ∧
      (c.instruction = readStatusReg1Cmd ∨ c.instruction = fastReadCmd ∧ k.idle = true)
  | .transmit _ => ∃ c, k.ccr = some c ∧ k.idle = true
  | .autoPolling c _ _ => c.instruction = readStatusReg1Cmd
  | .delay _ | .init | .loadPqspi | .storePqspi _ => True

/-- What a call may return: a read that reports success has got its bytes. -/
def Know.post (r : FlashResult) (k : Know) : Prop :=
  match r with
  | .read readAddr size .none data =>
    ∃ buf, k.got = some (readAddr, buf) ∧ data = (List.range size).map buf
  | .read _ _ _ _ | .other _ => True

/-- The knowledge is right about the world. -/
structure Know.Holds (k : Know) (w : World) : Prop where
  idle : k.idle = true → w.chip.busyBy = none
  ccr : ∀ c, k.ccr = some c → w.ccr = some c
  got : ∀ addr buf, k.got = some (addr, buf) → buf = w.chip.array addr

/-- No command but a status read has reached a busy chip. -/
def SentIdle (w : World) : Prop :=
  ∀ s ∈ w.sent, s.instruction ≠ readStatusReg1Cmd → s.busyBy = none

/-- Every read that has reported success has delivered what the array held. -/
def ReadsRight (w : World) : Prop := ∀ r ∈ w.reads, r.status = .none → r.data = r.stored

/-- The invariant of the world. -/
structure Undisturbed (w : World) : Prop where
  sent : SentIdle w
  reads : ReadsRight w

section Steps
variable {w : World} {k : Know} {call : Nat} {x : Outcome}

/-- A status read, or a command that finds the chip idle, keeps the invariant. -/
theorem Undisturbed.send (h : Undisturbed w) {c : QspiCommand} {data : List UInt8}
    (hc : c.instruction = readStatusReg1Cmd ∨ w.chip.busyBy = none) :
    Undisturbed (w.send call c data) where
  sent := by
    intro s hs hne
    have hmem : s ∈ w.sent ++ [⟨call, c.instruction, w.chip.busyBy⟩] := hs
    rcases List.mem_append.1 hmem with hold | hnew
    · exact h.sent s hold hne
    · cases List.mem_singleton.1 hnew
      rcases hc with hstatus | hidle
      · exact absurd hstatus hne
      · exact hidle
  reads := h.reads

/-- What stands in the command register disturbs nothing until it is sent. -/
theorem Undisturbed.setCcr (h : Undisturbed w) (c : Option QspiCommand) :
    Undisturbed { w with ccr := c } := ⟨h.sent, h.reads⟩

/-- Nothing to know is always right. -/
theorem holds_unknown (w : World) : Know.unknown.Holds w where
  idle h := by cases h
  ccr _ h := by cases h
  got _ _ h := by cases h

/-- A command without data that finds the chip idle. It may start a program or an erase, so behind
it nothing is known of the chip being idle. -/
theorem holds_commanded (h : k.Holds w) {c : QspiCommand} (hn : c.nbData = none)
    (hidle : k.idle = true) (reached : Prop) [Decidable reached] (r : Bool) :
    (k.commanded c r).Holds (if reached then w.send call c [] else w) := by
  simp only [Know.commanded, hn]
  refine ⟨?_, ?_, ?_⟩
  · intro hwe
    have hwe' : c.instruction = writeEnableCmd := by simpa [hidle] using hwe
    split_ifs
    · show (w.chip.accept call c []).busyBy = none
      rw [Chip.accept_writeEnable _ _ _ hwe']
      exact h.idle hidle
    · exact h.idle hidle
  · intro c' hc'
    split_ifs
    · exact h.ccr c' hc'
    · exact h.ccr c' hc'
  · intro addr buf hgot
    cases hgot

/-- What the data phase gives to the driver. -/
theorem transfer_data {c : QspiCommand} (hw : w.ccr = some c) (data : List UInt8) :
    (w.transfer call x data).1 = if x.ok then some (w.chip.answer c x.noise) else none := by
  simp only [World.transfer, hw]
  split_ifs <;> rfl

/-- The data phase of a status read or of a read of the array. The status that was read tells
whether the chip is idle, and it stays so while no other task runs. The array is read only by a
caller who knows that the chip is idle. -/
theorem holds_received (hinv : Undisturbed w) (h : k.Holds w) {c : QspiCommand}
    (hccr : k.ccr = some c)
    (hc : c.instruction = readStatusReg1Cmd ∨ c.instruction = fastReadCmd ∧ k.idle = true) :
    Undisturbed (w.transfer call x []).2 ∧
      (k.received (w.transfer call x []).1).Holds (w.transfer call x []).2 := by
  have hw : w.ccr = some c := h.ccr c hccr
  -- neither command changes the chip
  have haccept : ∀ v : World, v.chip = w.chip → (v.send call c []).chip = w.chip := by
    intro v hv
    show v.chip.accept call c [] = w.chip
    rw [hv]
    rcases hc with hstatus | ⟨hread, -⟩
    · exact Chip.accept_status _ _ _ hstatus
    · exact Chip.accept_fastRead _ _ _ hread
  have hsafe : c.instruction = readStatusReg1Cmd ∨ w.chip.busyBy = none :=
    hc.imp id fun hread => h.idle hread.2
  have hchip : (w.transfer call x []).2.chip = w.chip := by
    simp only [World.transfer, hw]
    split_ifs
    · exact haccept _ rfl
    · exact haccept _ rfl
    · rfl
  constructor
  · simp only [World.transfer, hw]
    split_ifs
    · exact (hinv.setCcr none).send hsafe
    · exact (hinv.setCcr none).send hsafe
    · exact hinv.setCcr none
  · simp only [Know.received, hccr]
    refine ⟨?_, ?_, ?_⟩
    · intro hidle
      rw [hchip]
      by_cases hk : k.idle = true
      · exact h.idle hk
      · -- the chip has said so
        have hsays : saysIdle c (w.transfer call x []).1 = true := by simpa [hk] using hidle
        rw [transfer_data hw] at hsays
        split_ifs at hsays
        · simp only [saysIdle, decide_eq_true_eq] at hsays
          obtain ⟨hstatus, hzero⟩ := hsays
          refine Chip.idle_of_sr1 _ ?_
          simpa [Chip.answer, hstatus] using hzero
        · cases hsays
    · intro c' hc'
      cases hc'
    · intro addr buf hgot
      rw [hchip]
      split_ifs at hgot with hread
      have hidle : k.idle = true := by
        rcases hc with hstatus | ⟨-, hidle⟩
        · rw [hstatus] at hread
          exact absurd hread (by decide)
        · exact hidle
      rw [transfer_data hw] at hgot
      split_ifs at hgot
      · cases hgot
        simp [Chip.answer, hread, h.idle hidle, readStatusReg1Cmd, fastReadCmd]
      · cases hgot

/-- The data phase of a write finds the chip idle. -/
theorem undisturbed_transfer (hinv : Undisturbed w) (hidle : w.chip.busyBy = none)
    (data : List UInt8) : Undisturbed (w.transfer call x data).2 := by
  unfold World.transfer
  cases w.ccr with
  | none => exact hinv
  | some c =>
    dsimp only
    split_ifs
    · exact (hinv.setCcr none).send (.inr hidle)
    · exact (hinv.setCcr none).send (.inr hidle)
    · exact hinv.setCcr none

/-- An operation that the knowledge allows keeps the invariant, and the knowledge stays right. By
the operation. A delay is where other tasks may run, and behind it nothing is known of the chip any
more. -/
theorem halHandle_holds (hinv : Undisturbed w) (h : k.Holds w) {o : HalOp} (hok : k.ok o) :
    Undisturbed (halHandle call x w o).2 ∧
      (k.next o (halHandle call x w o).1).Holds (halHandle call x w o).2 := by
  cases o with
  | command c =>
    cases hn : c.nbData with
    | none =>
      -- a command without a data phase can start a program or an erase, so the chip has to be idle
      have hidle : k.idle = true := hok hn
      simp only [halHandle, hn, Know.next]
      refine ⟨?_, holds_commanded h hn hidle _ _⟩
      split_ifs
      · exact hinv.send (.inr (h.idle hidle))
      · exact hinv
    | some n =>
      simp only [halHandle, hn, Know.next, Know.commanded]
      -- a command with a data phase only configures the peripheral
      cases hx : x.ok with
      | true =>
        refine ⟨hinv.setCcr (some c), h.idle, ?_, h.got⟩
        intro c' hc'
        exact hc'
      | false =>
        refine ⟨hinv, h.idle, ?_, h.got⟩
        intro c' hc'
        cases hc'
  | receive =>
    obtain ⟨c, hccr, hc⟩ := hok
    exact holds_received hinv h hccr hc
  | fastReceive =>
    obtain ⟨c, hccr, hc⟩ := hok
    exact holds_received hinv h hccr hc
  | transmit data =>
    obtain ⟨c, -, hidle⟩ := hok
    exact ⟨undisturbed_transfer hinv (h.idle hidle) data, holds_unknown _⟩
  | autoPolling c mask target =>
    -- the status register can be read at any time
    have hchip : (w.send call c []).chip = w.chip := Chip.accept_status _ _ _ hok
    refine ⟨(hinv.send (.inl hok)).setCcr none, ?_, ?_, ?_⟩
    · intro hidle
      show (w.send call c []).chip.busyBy = none
      rw [hchip]
      exact h.idle hidle
    · intro c' hc'
      cases hc'
    · intro addr buf hgot
      show buf = (w.send call c []).chip.array addr
      rw [hchip]
      exact h.got addr buf hgot
  | delay ms => exact ⟨hinv, holds_unknown _⟩
  | init => exact ⟨hinv, h⟩
  | loadPqspi => exact ⟨hinv, h⟩
  | storePqspi p => exact ⟨⟨hinv.sent, hinv.reads⟩, h.idle, h.ccr, h.got⟩

/-- A read that returns what its call may return keeps the invariant. By what is known of the bytes
that were received. -/
theorem undisturbed_record (hinv : Undisturbed w) (h : k.Holds w) {r : FlashResult}
    (hr : Know.post r k) : Undisturbed (record w r) := by
  cases r with
  | other status => exact hinv
  | read readAddr size status data =>
    refine ⟨hinv.sent, ?_⟩
    intro e he hnone
    rcases List.mem_append.1 he with hold | hnew
    · exact hinv.reads e hold hnone
    · cases List.mem_singleton.1 hnew
      have hstatus : status = .none := hnone
      subst hstatus
      obtain ⟨buf, hgot, hdata⟩ := hr
      show data = (List.range size).map (w.chip.array readAddr)
      rw [hdata, h.got readAddr buf hgot]

end Steps

/-! ### The driver programs -/

/-- A driver program under the knowledge `k`. -/
abbrev Proved {α : Type} (p : Drv α) (Q : α → Know → Prop) (k : Know) : Prop :=
  p.Wp Know.ok Know.next Q k

section Programs
variable {α : Type} {k : Know} {mode : Interface}

/-- A call of the component reads `pqspi` first. -/
theorem proved_inMode {f : Interface → Drv α} {Q : α → Know → Prop}
    (h : ∀ mode, Proved (f mode) Q k) : Proved (inMode f) Q k :=
  ⟨trivial, fun p => h p.interfaceMode⟩

/-- The chip is idle where `status` is `ok`. -/
def IdleIfOk (status : Status) (k : Know) : Prop := status = .ok → k.idle = true

/-- Bit 0 of the status word is clear only if the first status byte is zero. -/
theorem buf_zero_of_tempStatusReg {buf : Nat → UInt8} (h : tempStatusReg buf &&& srBusy = 0) :
    buf 0 = 0 := by
  unfold tempStatusReg at h
  split_ifs at h with hb
  · exact absurd h (by decide)
  · by_contra hne
    exact hb (.inl hne)

/-- Polling ends well only when the chip has said that it is idle. By induction on the rounds: the
end with `BSP_ERROR_NONE` is behind a status with BUSY clear, and there is no delay after it. -/
theorem proved_pollLoop (timeCheck timeOut : UInt32) (fuel : Nat) (cntTime : UInt32) :
    Proved (pollLoop mode srBusy timeCheck timeOut fuel cntTime)
      (fun r k => r = some .ok → k.idle = true) k := by
  induction fuel generalizing cntTime k with
  | zero =>
    intro h
    cases h
  | succ fuel ih =>
    unfold pollLoop
    split_ifs
    · refine ⟨(fun h => by cases h), ?_⟩
      intro r
      cases r with
      | false =>
        intro h
        cases h
      | true =>
        refine ⟨⟨statusCommand mode, rfl, .inl rfl⟩, ?_⟩
        intro buf?
        cases buf? with
        | none =>
          intro h
          cases h
        | some buf =>
          dsimp only [Prog.bind]
          split_ifs with hb
          · -- the byte that ends the loop
            intro _
            have hzero := buf_zero_of_tempStatusReg hb
            simp [Know.next, Know.received, Know.commanded, statusCommand, saysIdle, hzero]
          · exact ⟨trivial, fun _ => ih (cntTime + timeCheck)⟩
    · intro h
      cases h

/-- A poll sends the command for the status only, and where it returns OK the last status has shown
an idle chip. -/
theorem proved_softPolling (times : UInt32 × UInt32) :
    Proved (softPollingCheckLoMask mode srBusy times) IdleIfOk k := by
  refine Prog.wp_bind (Prog.wp_mono ?_ (proved_pollLoop times.1 times.2 _ 0))
  intro r k' h hok
  cases r with
  | none => cases hok
  | some status =>
    have hstatus : status = .ok := hok
    exact h (congrArg some hstatus)

/-- So does `check_flash_busy`, which polls. -/
theorem proved_checkBusy : Proved checkBusy IdleIfOk k :=
  proved_inMode fun _ => proved_softPolling busyTimes

/-- A write enable on an idle chip leaves it idle. -/
theorem proved_writeEnable (hk : k.idle = true) :
    Proved (writeEnable mode) (fun _ k => k.idle = true) k := by
  have hidle : (k.commanded { mode, instruction := writeEnableCmd } true).idle = true := by
    simp [Know.commanded, hk]
  refine ⟨fun _ => hk, ?_⟩
  intro r
  cases r with
  | false => exact hidle
  | true =>
    refine ⟨rfl, ?_⟩
    intro r
    cases r with
    | false => exact hidle
    | true => exact hidle

/-- A page program needs an idle chip. -/
theorem proved_pageProgram (hk : k.idle = true) (data : List UInt8) (addr : UInt32) :
    Proved (pageProgram mode data addr) (fun _ _ => True) k := by
  refine ⟨(fun h => by cases h), ?_⟩
  intro r
  cases r with
  | false => trivial
  | true =>
    refine ⟨⟨_, rfl, hk⟩, ?_⟩
    intro r
    cases r <;> trivial

/-- So does a chip erase. -/
theorem proved_chipErase (hk : k.idle = true) :
    Proved (chipErase mode) (fun _ _ => True) k := by
  refine ⟨fun _ => hk, ?_⟩
  intro r
  cases r with
  | false => trivial
  | true => exact Prog.wp_mono (fun _ _ _ => trivial) (proved_softPolling chipEraseTimes)

/-- An erase is sent to a chip that is known to be idle. -/
theorem proved_blockErase (hk : k.idle = true) (addr : UInt32) (size : Erase) :
    Proved (blockErase mode addr size) (fun _ _ => True) k := by
  unfold blockErase
  split_ifs
  · exact proved_chipErase hk
  · refine Prog.wp_bind (Prog.wp_mono ?_ (proved_writeEnable hk))
    intro _ k' hk'
    refine ⟨fun _ => hk', ?_⟩
    intro r
    cases r with
    | false => trivial
    | true => exact Prog.wp_mono (fun _ _ _ => trivial) (proved_softPolling size.block.2)

/-- The body of `BSP_QSPI_EraseBlock` and `BSP_QSPI_EraseChip`: an operation of the component
behind a busy check and a write enable. -/
theorem proved_guarded {p : Drv Status} (h : ∀ k : Know, k.idle = true →
    Proved p (fun _ _ => True) k) {f : Status → Drv BspStatus}
    (hf : ∀ status k, Proved (f status) (fun _ _ => True) k) :
    Proved (do
      if (← checkBusy) ≠ .ok then return .componentFailure
      else if (← inMode writeEnable) ≠ .ok then return .componentFailure
      else f (← p)) (fun _ _ => True) k := by
  refine Prog.wp_bind (Prog.wp_mono ?_ proved_checkBusy)
  intro busy k₁ hbusy
  split_ifs with hok
  · trivial
  · have hidle : k₁.idle = true := hbusy (not_not.1 hok)
    refine Prog.wp_bind (proved_inMode fun mode => Prog.wp_mono ?_ (proved_writeEnable hidle))
    intro enabled k₂ hk₂
    split_ifs
    · trivial
    · refine Prog.wp_bind (Prog.wp_mono ?_ (h k₂ hk₂))
      intro status k₃ _
      exact hf status k₃

/-- The round of a write polls first, then programs, and polls again. -/
theorem proved_writePage (data : List UInt8) (addr : UInt32) :
    Proved (writePage data addr) (fun _ _ => True) k := by
  refine proved_guarded (fun k hk => proved_inMode fun _ => proved_pageProgram hk data addr) ?_
  intro status k'
  split_ifs
  · trivial
  · refine Prog.wp_bind (proved_inMode fun mode => Prog.wp_mono ?_ (proved_softPolling _))
    intro polled k'' _
    split_ifs <;> trivial

/-- So the loop disturbs nothing. By induction on its rounds. -/
theorem proved_writeLoop (endAddr : UInt32) (fuel : Nat) (data : List UInt8)
    (currentAddr currentSize : UInt32) :
    Proved (writeLoop endAddr fuel data currentAddr currentSize) (fun _ _ => True) k := by
  induction fuel generalizing data currentAddr currentSize k with
  | zero => trivial
  | succ fuel ih =>
    refine Prog.wp_bind (Prog.wp_mono ?_ (proved_writePage _ currentAddr))
    intro status k' _
    split_ifs
    · dsimp only
      split_ifs
      · exact ih _ _ _
      · exact ih _ _ _
      · trivial
    · trivial

/-- `BSP_QSPI_Erase_Block` polls before it sends its erase. -/
theorem proved_eraseBlock (addr : UInt32) (size : Erase) :
    Proved (bspQspiEraseBlock addr size) (fun _ _ => True) k := by
  refine proved_guarded (fun k hk => proved_inMode fun _ => proved_blockErase hk addr size) ?_
  intro status k'
  split_ifs <;> trivial

/-- So does `BSP_QSPI_Erase_Chip`. -/
theorem proved_eraseChip : Proved bspQspiEraseChip (fun _ _ => True) k := by
  refine proved_guarded (fun k hk => proved_inMode fun _ => proved_chipErase hk) ?_
  intro status k'
  split_ifs <;> trivial

/-- A read that starts on an idle chip gets the bytes of the array. -/
theorem proved_read (hk : k.idle = true) (readAddr : UInt32) (size : Nat) :
    Proved (FlashCall.read readAddr size).body Know.post k := by
  refine ⟨trivial, ?_⟩
  intro p
  refine ⟨(fun h => by cases h), ?_⟩
  intro r
  cases r with
  | false => trivial
  | true =>
    refine ⟨⟨_, rfl, .inr ⟨rfl, hk⟩⟩, ?_⟩
    intro buf?
    cases buf? with
    | none => trivial
    | some buf => exact ⟨buf, rfl, rfl⟩

/-- A call that is no read may return anything. -/
theorem proved_other {p : Drv BspStatus} (h : Proved p (fun _ _ => True) k) :
    Proved (FlashResult.other <$> p) Know.post k :=
  Prog.wp_bind (Prog.wp_mono (fun _ _ _ => trivial) h)

end Programs

/-! ### All runs -/

/-- A read starts while the chip is idle. -/
def ReadIdle {T : Type} : T → FlashCall → World → Prop
  | _, .read _ _, w => w.chip.busyBy = none
  | _, .write _ _, _ | _, .eraseBlock _ _, _ | _, .eraseChip, _ => True

/-- The driver calls under `ReadIdle`. -/
def flashLogic (T : Type) [DecidableEq T] : Logic (flashSched T) Know where
  startOk := ReadIdle
  ok := Know.ok
  next := Know.next
  post := Know.post
  inv := Undisturbed
  holds _ k w := k.Holds w
  keeps _ k _ := ∀ k' ∈ k, k' = .unknown
  start_holds i c w hinv hstart _ _ := by
    refine ⟨hinv, ?_⟩
    cases c with
    | read readAddr size =>
      refine ⟨{ idle := true, ccr := none, got := none }, ⟨?_, ?_, ?_⟩, proved_read rfl _ _⟩
      · intro _
        exact hstart
      · intro c hc
        cases hc
      · intro addr buf hgot
        cases hgot
    | write data writeAddr =>
      exact ⟨.unknown, holds_unknown w, proved_other (proved_writeLoop _ _ _ _ _)⟩
    | eraseBlock blockAddress blockSize =>
      exact ⟨.unknown, holds_unknown w, proved_other (proved_eraseBlock _ _)⟩
    | eraseChip => exact ⟨.unknown, holds_unknown w, proved_other proved_eraseChip⟩
  start_keeps _ _ _ _ _ _ h := h
  op_holds _ _ _ _ _ hinv hk hok := halHandle_holds hinv hk hok
  op_keeps _ _ _ _ _ _ _ _ h _ _ := h
  yield_keeps _ k o r w hy _ _ := by
    intro k' hk'
    cases o with
    | delay ms =>
      cases hk'
      rfl
    | _ => cases hy
  resume_holds _ k w _ hk := by
    rw [hk k rfl]
    exact holds_unknown w
  finish_inv _ _ _ _ hinv hk hr := ⟨undisturbed_record hinv hk hr, fun _ h => by cases h⟩
  finish_keeps _ _ _ _ _ _ h := h
  env_inv _ _ hinv := ⟨hinv.sent, hinv.reads⟩
  env_holds _ k _ w hk := by
    refine ⟨fun _ => Chip.done_idle w.chip, hk.ccr, ?_⟩
    intro addr buf hgot
    show buf = w.chip.done.array addr
    rw [Chip.done_array]
    exact hk.got addr buf hgot
  env_keeps _ _ _ _ h := h

/-- No command but a status read reaches the chip while it is busy for another call. -/
def NoClash (w : World) : Prop :=
  ∀ s ∈ w.sent, s.instruction ≠ readStatusReg1Cmd → ∀ n, s.busyBy = some n → n = s.call

/-- The tasks before their first call. -/
def idleTasks (T : Type) (chip : Chip) (pqspi : Pqspi) :
    State T HalOp HalOp.Res FlashResult World :=
  State.init { chip, ccr := none, pqspi, sent := [], reads := [] }

/-- For any tasks and any chip, and every run of driver calls in which no `BSP_QSPI_Read`
starts while the chip is busy: no command but a status read reaches the chip while it is busy
for another call, and every read that reports success has delivered what the array held. -/
theorem flash_calls_isolated (T : Type) [DecidableEq T] (chip : Chip) (pqspi : Pqspi)
    (es : List (Event T FlashCall Outcome Unit))
    (hes : Along (step (flashSched T)) (Starts ReadIdle) (idleTasks T chip pqspi) es) :
    NoClash (run (step (flashSched T)) (idleTasks T chip pqspi) es).world ∧
      ReadsRight (run (step (flashSched T)) (idleTasks T chip pqspi) es).world := by
  have hinit : Undisturbed (idleTasks T chip pqspi).world := by
    constructor
    · intro s hs
      cases hs
    · intro r hr
      cases hr
  have hgood : (flashLogic T).Good (idleTasks T chip pqspi) :=
    Logic.good_init hinit fun _ _ h => by cases h
  have hinv := (Logic.good_run hgood hes).inv
  refine ⟨?_, hinv.reads⟩
  intro s hs hne n hbusy
  have hidle := hinv.sent s hs hne
  rw [hbusy] at hidle
  cases hidle

/-! ### A read during an erase -/

instance {T : Type} : (t : T) → (c : FlashCall) → (w : World) → Decidable (ReadIdle t c w)
  | _, .read _ _, w => inferInstanceAs (Decidable (w.chip.busyBy = none))
  | _, .write _ _, _ | _, .eraseBlock _ _, _ | _, .eraseChip, _ => isTrue trivial

/-- A chip whose array holds zeros. -/
def zeroChip : Chip := { busyBy := none, wel := false, mem := fun _ => 0 }

/-- The driver after its initialisation. -/
def qpiDriver : Pqspi := { isInitialized := .indirect, interfaceMode := .qpi }

/-- Task 0 erases the first sector, up to the first `vTaskDelay` of the wait for its end. -/
def eraseUpToDelay : List (Event Nat FlashCall Outcome Unit) :=
  .start 0 (.eraseBlock 0 .erase4K) :: List.replicate 13 (.exec {})

/-- Task 1 reads four bytes of the second sector. -/
def readSecond : List (Event Nat FlashCall Outcome Unit) :=
  .start 1 (.read 4096 4) :: List.replicate 4 (.exec {})

/-- A read of the second sector by another task, at a point where the erase of the first one has
ended. -/
theorem flash_calls_isolated_after_erase :
    NoClash (run (step (flashSched Nat)) (idleTasks Nat zeroChip qpiDriver)
      (eraseUpToDelay ++ .env () :: readSecond)).world ∧
    ReadsRight (run (step (flashSched Nat)) (idleTasks Nat zeroChip qpiDriver)
      (eraseUpToDelay ++ .env () :: readSecond)).world :=
  flash_calls_isolated Nat zeroChip qpiDriver _ (by decide)

/-- A read that starts during the wait sends its command to the busy chip, reports success,
and delivers what was on the lines. -/
theorem read_during_erase :
    ¬ ∀ (T : Type) [DecidableEq T] (chip : Chip) (pqspi : Pqspi)
      (es : List (Event T FlashCall Outcome Unit)),
      NoClash (run (step (flashSched T)) (idleTasks T chip pqspi) es).world ∧
        ReadsRight (run (step (flashSched T)) (idleTasks T chip pqspi) es).world := by
  intro h
  have hread := (h Nat zeroChip qpiDriver (eraseUpToDelay ++ readSecond)).2
    ⟨.none, [0xFF, 0xFF, 0xFF, 0xFF], [0, 0, 0, 0]⟩ (by decide) rfl
  exact absurd hread (by decide)

end NucleoH743.Flash
