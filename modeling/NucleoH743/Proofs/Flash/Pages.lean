import NucleoH743.Lib.Blocks
import NucleoH743.Lib.Plan
import NucleoH743.Proofs.Flash.Device

/-!
# `Proofs.Flash.Pages`: `BSP_QSPI_Write` page by page

The data of a write is cut at the ends of the pages. For each page the driver does four steps,
and it stops at the first step that fails. `WriteStep` names the steps, and `plan` is all of them
in their order.

The array after a write is found in three stages. A page program lets bits go from one to zero in
the cells of its page (`Chip.program_eq`). The pages of a write are contiguous and have its data, so
all of them together are one such change from the start address on (`Paged`). And a plan that stops
early has programmed the pages before the stop, and perhaps a beginning of the next one.

A step that fails has a cause: an answer that is an error, or a chip that is not ready in time. On a
device without errors the second is excluded by the time that the polls wait, which is what `Ready`
and the budget in `ErrorFree` are for.

- `bspQspiWrite_eq`: `BSP_QSPI_Write` attempts the plan.
- `ends_pageSteps`: what the four steps of a page do to the device.
- `ends_plan`: what the plan does: every page is programmed, or the pages before the one whose
  step has failed.
- `write_by_pages`: what a write has done, whatever the device answers.
-/

set_option autoImplicit false

namespace NucleoH743.Flash

open Blocks (combine combineAll Contiguous dataOf room split)
open Prog (always_bind always_mono always_seq always_and attempt always_attempt_cons
  always_attempt_append)

/-! ### Programming -/

/-- The array after data is programmed at `addr`: bits go from one to zero only. -/
abbrev programmed (mem : Nat → UInt8) (addr : Nat) (data : List UInt8) : Nat → UInt8 :=
  combine (· &&& ·) mem addr data

/-- The addresses that a PAGE PROGRAM goes through do not wrap within the page. -/
theorem pageAddr_eq {a k : Nat} (hlt : a < 2 ^ 24) (hroom : a % 256 + k < 256) :
    a % 2 ^ 24 / 256 * 256 + (a + k) % 256 = a + k := by
  omega

/-- The array after the bytes from the `k`-th on: inside a page, the address of a byte is the start
of the data and its index. By induction on the data. -/
theorem program_foldl {a : Nat} (hlt : a < 2 ^ 24) (data : List UInt8) (k : Nat)
    (mem : Nat → UInt8) (hroom : a % 256 + k + data.length ≤ 256) :
    (data.zipIdx k).foldl (fun mem b =>
      Function.update mem (a % 2 ^ 24 / 256 * 256 + (a + b.2) % 256)
        (mem (a % 2 ^ 24 / 256 * 256 + (a + b.2) % 256) &&& b.1)) mem =
      programmed mem (a + k) data := by
  induction data generalizing k mem with
  | nil => exact (Blocks.combine_nil (· &&& ·) mem (a + k)).symm
  | cons b data ih =>
    rw [List.length_cons] at hroom
    rw [List.zipIdx_cons, List.foldl_cons, pageAddr_eq hlt (by omega), ih (k + 1) _ (by omega)]
    exact (Blocks.combine_cons (· &&& ·) mem (a + k) b data).symm

/-- A PAGE PROGRAM that stays in its page. -/
theorem Chip.program_eq {chip : Chip} (hwel : chip.wel = true) (call : Nat) {addr : UInt32}
    {data : List UInt8} (hlt : addr.toNat < 2 ^ 24)
    (hroom : addr.toNat % 256 + data.length ≤ 256) :
    chip.program call addr data =
      { chip with busyBy := some call, mem := programmed chip.mem addr.toNat data } := by
  rw [Chip.program, if_pos hwel]
  dsimp only
  rw [program_foldl hlt data 0 chip.mem (by omega)]
  rfl

/-! ### The steps -/

/-- The steps of the loop of `BSP_QSPI_Write`. -/
inductive WriteStep where
  | checkBusy
  | writeEnable
  | pageProgram (data : List UInt8) (addr : UInt32)
  | waitProgram

/-- What a step does. -/
def WriteStep.body : WriteStep → Drv Status
  | .checkBusy => Flash.checkBusy
  | .writeEnable => inMode Flash.writeEnable
  | .pageProgram data addr => inMode fun mode => Flash.pageProgram mode data addr
  | .waitProgram => inMode fun mode => softPollingCheckLoMask mode srBusy pageProgramTimes

/-- A step has succeeded. -/
def isOk (status : Status) : Bool := status = .ok

/-- A step has succeeded iff its status is the one for success. -/
theorem isOk_eq_true {status : Status} : isOk status = true ↔ status = .ok := decide_eq_true_iff

/-- It has failed iff it is any other. -/
theorem isOk_eq_false {status : Status} : isOk status = false ↔ status ≠ .ok :=
  decide_eq_false_iff_not

/-- Attempt steps of a write. -/
abbrev attemptSteps (steps : List WriteStep) : Drv (List WriteStep) :=
  attempt WriteStep.body isOk steps

/-- A page of a write: its address and its data. -/
abbrev Page := Nat × List UInt8

/-- The steps for a page. -/
def pageSteps (page : Page) : List WriteStep :=
  [.checkBusy, .writeEnable, .pageProgram page.2 page.1.toUInt32, .waitProgram]

/-- The steps for some pages. -/
def plan (pages : List Page) : List WriteStep := pages.flatMap pageSteps

/-- The pages of a write: its data, cut at the ends of the pages of 256 bytes. -/
def pages (addr : Nat) (data : List UInt8) : List Page := split 256 (by decide) addr data

/-- What a write returns when `left` is left of its plan. -/
def writeStatus (left : List WriteStep) : BspStatus :=
  if left = [] then .none else .componentFailure

/-- One round of the loop of `BSP_QSPI_Write` attempts the steps for its page, up to the first that
fails. -/
theorem writePage_eq (page : Page) :
    writePage page.2 page.1.toUInt32 = attemptSteps (pageSteps page) >>= fun left =>
      Prog.ret (writeStatus left) := by
  simp only [attemptSteps, pageSteps, Prog.attempt_cons_bind, Prog.attempt_nil, Prog.ret_bind,
    writePage, isOk, decide_eq_true_eq, ne_eq, ite_not, Prog.pure_eq, WriteStep.body]
  rfl

/-- Steps are attempted in parts: the second part is attempted iff nothing is left of the first. -/
theorem attemptSteps_append (l r : List WriteStep) :
    attemptSteps (l ++ r) = attemptSteps l >>= fun left =>
      if left = [] then attemptSteps r else Prog.ret (left ++ r) :=
  Prog.attempt_append WriteStep.body isOk l r

/-- The plan has the steps of its pages in order. -/
theorem plan_cons (page : Page) (rest : List Page) :
    plan (page :: rest) = pageSteps page ++ plan rest := rfl

/-- A plan of which nothing is left was carried out. -/
@[simp] theorem writeStatus_nil : writeStatus [] = .none := rfl

/-- Only such a plan returns success: every step has an error code of its own. -/
theorem writeStatus_eq_none {left : List WriteStep} : writeStatus left = .none ↔ left = [] := by
  unfold writeStatus
  by_cases h : left = [] <;> simp [h]

/-- The error code is that of the first step that is left. -/
theorem writeStatus_append {left : List WriteStep} (h : left ≠ []) (r : List WriteStep) :
    writeStatus (left ++ r) = writeStatus left := by
  rw [writeStatus, writeStatus, if_neg h, if_neg (by simp [h])]

/-! ### The loop -/

/-- A page has 256 bytes. -/
theorem toNat_pageSize : pageSize.toNat = 256 := rfl

/-- The bytes to the end of the page. -/
theorem toNat_toPageEnd (addr : UInt32) :
    (pageSize - addr % pageSize).toNat = room 256 addr.toNat := by
  have hmod : (addr % pageSize).toNat = addr.toNat % 256 := UInt32.toNat_mod ..
  have hle : addr % pageSize ≤ pageSize := by
    rw [UInt32.le_iff_toNat_le, hmod, toNat_pageSize]
    omega
  rw [UInt32.toNat_sub_of_le _ _ hle, hmod, toNat_pageSize]
  rfl

/-- The size of the first round: all of the data, if it fits the room. -/
theorem toNat_firstSize (room size : UInt32) :
    (if room > size then size else room).toNat = min room.toNat size.toNat := by
  split
  · next h =>
    have hlt := UInt32.lt_iff_toNat_lt.1 h
    omega
  · next h =>
    have hle := mt UInt32.lt_iff_toNat_lt.2 h
    omega

/-- The size of a later round, which begins at a page. A whole page, or what is left up to the end
address. -/
theorem toNat_nextSize {endAddr addr : UInt32} {size : Nat} (hend : endAddr.toNat ≤ 2 ^ 24)
    (hpage : addr.toNat % 256 = 0) (hsize : addr.toNat + size = endAddr.toNat) :
    (if addr + pageSize > endAddr then endAddr - addr else pageSize).toNat =
      min (room 256 addr.toNat) size := by
  have hroom : room 256 addr.toNat = 256 := by rw [room, hpage]
  have hadd : (addr + pageSize).toNat = addr.toNat + 256 := by
    rw [UInt32.toNat_add, toNat_pageSize, Nat.mod_eq_of_lt (by omega)]
  have hle : addr ≤ endAddr := UInt32.le_iff_toNat_le.2 (by omega)
  have hsub : (endAddr - addr).toNat = endAddr.toNat - addr.toNat := UInt32.toNat_sub_of_le _ _ hle
  rw [hroom]
  split
  · next h =>
    have hlt := UInt32.lt_iff_toNat_lt.1 h
    omega
  · next h =>
    have hge := mt UInt32.lt_iff_toNat_lt.2 h
    rw [toNat_pageSize]
    omega

/-- The data and the rest of it, as the loop cuts them. -/
theorem take_min_length {n : Nat} (data : List UInt8) :
    data.take (min n data.length) = data.take n := by
  rcases Nat.le_total n data.length with h | h
  · rw [Nat.min_eq_left h]
  · rw [Nat.min_eq_right h, List.take_of_length_le h, List.take_length]

/-- The loop from `currentAddr` on attempts the plan for the data that is left. The rounds are
enough: each of them takes a byte at least. -/
theorem writeLoop_eq {endAddr : UInt32} (hend : endAddr.toNat ≤ 2 ^ 24) (fuel : Nat)
    {data : List UInt8} {currentAddr currentSize : UInt32} (hne : data ≠ [])
    (hfuel : data.length < fuel) (hdata : currentAddr.toNat + data.length = endAddr.toNat)
    (hsize : currentSize.toNat = min (room 256 currentAddr.toNat) data.length) :
    writeLoop endAddr fuel data currentAddr currentSize =
      attemptSteps (plan (pages currentAddr.toNat data)) >>= fun left =>
        Prog.ret (writeStatus left) := by
  induction fuel generalizing data currentAddr currentSize with
  | zero => exact absurd hfuel (Nat.not_lt_zero _)
  | succ fuel ih =>
    have hroom : room 256 currentAddr.toNat = 256 - currentAddr.toNat % 256 := rfl
    have hlen : 0 < data.length := List.length_pos_iff.2 hne
    -- one round is the plan of one page, cut where the page ends
    have hround := writePage_eq (currentAddr.toNat, data.take (room 256 currentAddr.toNat))
    have haddr : currentAddr.toNat.toUInt32 = currentAddr := UInt32.ofNat_toNat
    simp only [haddr] at hround
    have hsum : (currentAddr + currentSize).toNat =
        currentAddr.toNat + min (room 256 currentAddr.toNat) data.length := by
      rw [UInt32.toNat_add, hsize, Nat.mod_eq_of_lt (by omega)]
    rw [writeLoop, hsize, take_min_length, hround, Prog.bind_assoc, pages,
      Blocks.split_of_ne hne, plan_cons, attemptSteps_append, Prog.bind_assoc]
    congr 1
    funext left
    by_cases hleft : left = []
    · -- the page is written
      subst hleft
      rw [Prog.ret_bind, if_pos writeStatus_nil, if_pos rfl]
      dsimp only
      by_cases hlast : data.length ≤ room 256 currentAddr.toNat
      · have hstop : ¬ currentAddr + currentSize < endAddr := by
          rw [UInt32.lt_iff_toNat_lt]
          omega
        rw [if_neg hstop, List.drop_eq_nil_of_le hlast, Blocks.split_nil]
        rfl
      · have hmin : min (room 256 currentAddr.toNat) data.length = room 256 currentAddr.toNat :=
          Nat.min_eq_left (by omega)
        have hgo : currentAddr + currentSize < endAddr := by
          rw [UInt32.lt_iff_toNat_lt]
          omega
        have hdrop : (data.drop (room 256 currentAddr.toNat)).length =
            data.length - room 256 currentAddr.toNat := List.length_drop ..
        have hne' : data.drop (room 256 currentAddr.toNat) ≠ [] :=
          List.length_pos_iff.1 (by omega)
        rw [if_pos hgo, hmin, ih hne' (by omega) (by omega)
          (toNat_nextSize hend (by omega) (by omega)), hsum, hmin]
        rfl
    · -- a step of the page has failed
      have hstatus : writeStatus left ≠ .none := mt writeStatus_eq_none.1 hleft
      rw [Prog.ret_bind, if_neg hstatus, if_neg hleft, Prog.ret_bind, writeStatus_append hleft]
      rfl

section Write
variable {data : List UInt8} {writeAddr : UInt32}

/-- The size of the first round. -/
def firstSize (writeAddr : UInt32) (size : UInt32) : UInt32 :=
  if pageSize - writeAddr % pageSize > size then size else pageSize - writeAddr % pageSize

/-- The loop of `BSP_QSPI_Write`, for any bound on its rounds that is enough. The plan cuts the data
at the page borders, and the loop does so while it goes on. By induction on the pages. -/
theorem writeLoop_plan (hne : data ≠ []) (hend : writeAddr.toNat + data.length ≤ 2 ^ 24)
    {fuel : Nat} (hfuel : data.length < fuel) :
    writeLoop (writeAddr + data.length.toUInt32) fuel data writeAddr
        (firstSize writeAddr data.length.toUInt32) =
      attemptSteps (plan (pages writeAddr.toNat data)) >>= fun left =>
        Prog.ret (writeStatus left) := by
  have hlen : data.length.toUInt32.toNat = data.length := by
    show data.length % 2 ^ 32 = data.length
    exact Nat.mod_eq_of_lt (by omega)
  have hadd : (writeAddr + data.length.toUInt32).toNat = writeAddr.toNat + data.length := by
    rw [UInt32.toNat_add, hlen, Nat.mod_eq_of_lt (by omega)]
  have hsize : (firstSize writeAddr data.length.toUInt32).toNat =
      min (room 256 writeAddr.toNat) data.length := by
    rw [firstSize, toNat_firstSize, toNat_toPageEnd, hlen]
  exact writeLoop_eq (by rw [hadd]; exact hend) fuel hne hfuel hadd.symm hsize

/-- `BSP_QSPI_Write` attempts the plan for its pages. -/
theorem bspQspiWrite_eq (hne : data ≠ []) (hend : writeAddr.toNat + data.length ≤ 2 ^ 24) :
    bspQspiWrite data writeAddr = attemptSteps (plan (pages writeAddr.toNat data)) >>=
      fun left => Prog.ret (writeStatus left) :=
  writeLoop_plan hne hend (Nat.lt_succ_self _)

end Write

/-! ### Component functions on the device -/

/-- The lines of the chip and the variable of the driver are as before. -/
structure Kept (d d' : Device) : Prop where
  mode : d'.mode = d.mode
  pqspi : d'.pqspi = d.pqspi

/-- A device that has done nothing has its lines as before. -/
theorem Kept.refl (d : Device) : Kept d d := ⟨rfl, rfl⟩

/-- The lines are kept along two calls. -/
theorem Kept.trans {d d' d'' : Device} (h : Kept d d') (h' : Kept d' d'') : Kept d d'' :=
  ⟨h'.mode.trans h.mode, h'.pqspi.trans h.pqspi⟩

/-- Waiting keeps the lines. -/
theorem Quiet.kept {d d' : Device} (h : Quiet d d') : Kept d d' := ⟨h.mode, h.pqspi⟩

/-- A command that only reads keeps them too. -/
theorem Still.kept {d d' : Device} (h : Still d d') : Kept d d' := h.quiet.kept

/-- A program or erase has started that takes `ms` milliseconds. -/
structure Started (ms : Nat) (d d' : Device) : Prop where
  kept : Kept d d'
  programs : d'.programs = d.programs
  mem : d'.chip.mem = d.chip.mem
  calm : Calm d'
  busyMs : d'.busyMs ≤ ms

/-- A chip that is busy for some time has started what it does. This is what the poll behind an
erase or a program starts from. -/
theorem started_busyFor {d : Device} (hbusy : d.chip.busyBy ≠ none) (ms : Nat) :
    Started ms d (d.busyFor ms) := by
  rw [Device.busyFor, if_neg hbusy]
  constructor
  · exact ⟨rfl, rfl⟩
  · rfl
  · unfold Device.pass
    dsimp only
    split
    · exact Chip.done_mem _
    · rfl
  · unfold Device.pass Calm
    dsimp only
    split
    · exact fun _ => (Chip.done_idle_of_busy hbusy).2
    · exact fun hnone => absurd hnone hbusy
  · exact Nat.le_refl ms

section Component
variable {allow : Answer → Prop} {mode : Interface} {d : Device}

/-- An idle chip takes a command on its lines. -/
theorem send_taken {c : QspiCommand} (hmode : d.mode = c.mode) (hidle : d.chip.busyBy = none)
    (hother : c.instruction ∉ [resetEnableCmd, enterQuadCmd, exitQuadCmd, resetMemoryCmd])
    (x : Answer) (data : List UInt8) :
    d.send x c data =
      ({ d with resetEnabled := false, chip := d.chip.accept 0 c data } : Device).busyFor
        (x.busyMs c.instruction) := by
  have htake : c.mode = d.mode ∧ d.chip.busyBy = none := ⟨hmode.symm, hidle⟩
  rw [Device.send, if_pos htake]
  dsimp only
  rw [interface_other hother]

/-- What `W25Q128FV_WriteEnable` does to an idle chip. -/
structure Enabled (allow : Answer → Prop) (d : Device) (status : Status) (d' : Device) : Prop where
  kept : Kept d d'
  programs : d'.programs = d.programs
  mem : d'.chip.mem = d.chip.mem
  busyBy : d'.chip.busyBy = none
  wel : status = .ok → d'.chip.wel = true
  fails : status ≠ .ok → ∃ x, allow x ∧ x.ok = false

/-- A command for the latch that fails leaves the array alone, and it has a cause. -/
theorem Enabled.failed {status : Status} {d' : Device} (hstatus : status ≠ .ok)
    (hkept : Kept d d') (hprograms : d'.programs = d.programs)
    (hmem : d'.chip.mem = d.chip.mem) (hbusy : d'.chip.busyBy = none)
    (hfail : ∃ x, allow x ∧ x.ok = false) : Enabled allow d status d' :=
  ⟨hkept, hprograms, hmem, hbusy, fun h => absurd h hstatus, fun _ => hfail⟩

/-- The command reaches an idle chip in the mode that both sides agree on, and sets the latch. -/
theorem send_writeEnable (hmode : d.mode = mode) (hidle : d.chip.busyBy = none) (x : Answer) :
    d.send x { mode, instruction := writeEnableCmd } [] =
      { d with resetEnabled := false, chip := { d.chip with wel := true } } := by
  have haccept : d.chip.accept 0 { mode, instruction := writeEnableCmd } [] =
      { d.chip with wel := true } := by
    rw [Chip.accept, if_neg (by simp [hidle])]
    rfl
  have hother : writeEnableCmd ∉ [resetEnableCmd, enterQuadCmd, exitQuadCmd, resetMemoryCmd] := by
    decide
  rw [send_taken hmode hidle hother, haccept, Device.busyFor]
  exact if_pos hidle

/-- Automatic polling compares the status once. -/
theorem ends_autoPolling {α : Type} {c : QspiCommand} {mask target : UInt8} {f : Bool → Drv α}
    {Q : α → Device → Prop}
    (h : ∀ x, allow x → Ends allow (f (x.ok && d.answer c x.noise 0 &&& mask = target)) Q
      { d.send x c [] with ccr := none }) :
    Ends allow (halAutoPolling c mask target >>= f) Q d :=
  fun x hx => h x hx

/-- `W25Q128FV_WriteEnable` sets the latch and reads it back, or it fails. With no error of the
HAL it does not fail. Where a call fails, the latch may be set all the same, and nothing was
programmed. -/
theorem ends_writeEnable (hmode : d.mode = mode) (hidle : d.chip.busyBy = none) :
    Ends allow (writeEnable mode) (Enabled allow d) d := by
  unfold writeEnable
  refine ends_command rfl fun x hx => ?_
  rw [send_writeEnable hmode hidle x]
  cases hxok : x.ok with
  | false =>
    have hfail : ∃ x, allow x ∧ x.ok = false := ⟨x, hx, hxok⟩
    -- the latch may be set all the same
    show Enabled allow d .errorCommand (if _ then _ else d)
    split
    · exact .failed (by decide) ⟨rfl, rfl⟩ rfl rfl hidle hfail
    · exact .failed (by decide) ⟨rfl, rfl⟩ rfl rfl hidle hfail
  | true =>
    rw [if_pos (Or.inl rfl)]
    refine ends_autoPolling fun y hy => ?_
    have hread : ReadsOnly { mode, instruction := readStatusReg1Cmd, nbData := some 1 } := .inl rfl
    obtain ⟨ccr, resetEnabled, hsent⟩ := hread.send (x := y)
      (d := { d with resetEnabled := false, chip := { d.chip with wel := true } }) []
    rw [hsent]
    cases hyok : y.ok with
    | false => exact .failed (by decide) ⟨rfl, rfl⟩ rfl rfl hidle ⟨y, hy, hyok⟩
    | true =>
      have hsr1 : (Device.answer
          { d with resetEnabled := false, chip := { d.chip with wel := true } }
          { mode, instruction := readStatusReg1Cmd, nbData := some 1 } y.noise 0) &&& sr1Wel =
            sr1Wel := by
        rw [Device.answer, if_pos hmode.symm]
        show Chip.sr1 { d.chip with wel := true } &&& sr1Wel = sr1Wel
        simp [Chip.sr1, hidle, sr1Wel]
      simp only [hsr1, decide_true, Bool.and_self]
      exact ⟨⟨rfl, rfl⟩, rfl, rfl, hidle, fun _ => rfl, fun h => absurd rfl h⟩

/-- What `W25Q128FV_PageProgram` does to an idle chip whose latch is set: it programs the data, or
fails and has programmed the beginning of it at most. -/
structure Programmed (allow : Answer → Prop) (d : Device) (data : List UInt8) (addr : UInt32)
    (status : Status) (d' : Device) : Prop where
  kept : Kept d d'
  programs : d'.programs = d.programs ++ [(addr, data)] ∨ status ≠ .ok ∧ d'.programs = d.programs
  mem : ∃ n ≤ data.length, d'.chip.mem = programmed d.chip.mem addr.toNat (data.take n) ∧
    (status = .ok → n = data.length)
  busy : status = .ok → Calm d' ∧ ∃ x, allow x ∧ d'.busyMs ≤ x.busyMs pageProgCmd
  fails : status ≠ .ok → ∃ x, allow x ∧ x.ok = false

/-- A page program that fails has a cause, and has programmed at most a beginning of its data. -/
theorem Programmed.failed {data : List UInt8} {addr : UInt32} {status : Status} {d' : Device}
    (hstatus : status ≠ .ok) (hfail : ∃ x, allow x ∧ x.ok = false) (hkept : Kept d d')
    (hprograms : d'.programs = d.programs ++ [(addr, data)] ∨ d'.programs = d.programs) {n : Nat}
    (hn : n ≤ data.length) (hmem : d'.chip.mem = programmed d.chip.mem addr.toNat (data.take n)) :
    Programmed allow d data addr status d' where
  kept := hkept
  programs := hprograms.imp_right fun h => ⟨hstatus, h⟩
  mem := ⟨n, hn, hmem, fun h => absurd h hstatus⟩
  busy h := absurd h hstatus
  fails _ := hfail

/-- Data goes out: the command is set up in the controller, and the transfer sends both. -/
theorem ends_transmit {α : Type} {c : QspiCommand} {n : Nat} (hn : c.nbData = some n)
    {data : List UInt8} {f : Bool → Drv α} {e : Drv α} {Q : α → Device → Prop}
    (hdata : ∀ x, allow x → ∀ r,
      (({ d with ccr := some c } : Device).note data).transfer x data = r →
      Ends allow (f r.1.isSome) Q r.2)
    (hcmd : (∃ x, allow x ∧ x.ok = false) → Ends allow e Q d) :
    Ends allow (halCommand c >>= fun ok => if ok then halTransmit data >>= f else e) Q d := by
  intro x hx
  simp only [Device.handle, hn]
  cases hxok : x.ok with
  | false => exact hcmd ⟨x, hx, hxok⟩
  | true => exact fun y hy => hdata y hy _ rfl

/-- The command of `W25Q128FV_PageProgram`. -/
def pageProgramCommand (mode : Interface) (addr : UInt32) (size : Nat) : QspiCommand :=
  { mode, instruction := pageProgCmd, address := some addr, nbData := some size }

section PageProgram
variable {addr : UInt32} {data : List UInt8}

/-- The command reaches an idle chip whose latch is set, and the chip programs the data into the
page. The data stays inside of the page, so no address wraps to its start. -/
theorem send_pageProgram (hmode : d.mode = mode) (hidle : d.chip.busyBy = none)
    (hwel : d.chip.wel = true) (hlt : addr.toNat < 2 ^ 24)
    (hroom : addr.toNat % 256 + data.length ≤ 256) (x : Answer) (size : Nat) :
    Started (x.busyMs pageProgCmd)
      { d with
        resetEnabled := false
        chip := { d.chip with
          busyBy := some 0
          mem := programmed d.chip.mem addr.toNat data } }
      (d.send x (pageProgramCommand mode addr size) data) := by
  -- the chip is idle, so that it takes the command
  have haccept : d.chip.accept 0 (pageProgramCommand mode addr size) data =
      d.chip.program 0 addr data := by
    rw [Chip.accept, if_neg (by simp [hidle])]
    rfl
  have hother : (pageProgramCommand mode addr size).instruction ∉
      [resetEnableCmd, enterQuadCmd, exitQuadCmd, resetMemoryCmd] := by
    show pageProgCmd ∉ _
    decide
  rw [send_taken hmode hidle hother, haccept, Chip.program_eq hwel 0 hlt hroom]
  exact started_busyFor (Option.some_ne_none 0) _

/-- `W25Q128FV_PageProgram` sends the command and its data, and fails where the controller does not
take one of them. -/
theorem ends_pageProgram (hmode : d.mode = mode) (hidle : d.chip.busyBy = none)
    (hwel : d.chip.wel = true) (hlt : addr.toNat < 2 ^ 24)
    (hroom : addr.toNat % 256 + data.length ≤ 256) :
    Ends allow (pageProgram mode data addr) (Programmed allow d data addr) d := by
  have hnothing : d.chip.mem = programmed d.chip.mem addr.toNat (data.take 0) :=
    (Blocks.combine_nil (· &&& ·) d.chip.mem addr.toNat).symm
  refine ends_transmit (c := pageProgramCommand mode addr data.length) rfl ?_ ?_
  · intro x hx r hr
    -- the data phase, with the page program noted
    have hnoted : ({ d with ccr := some (pageProgramCommand mode addr data.length) } : Device).note
        data = { d with
          ccr := some (pageProgramCommand mode addr data.length)
          programs := d.programs ++ [(addr, data)] } := rfl
    have hsend (bytes : List UInt8) (hlen : bytes.length ≤ data.length) :=
      send_pageProgram (d := { d with ccr := none, programs := d.programs ++ [(addr, data)] })
        hmode hidle hwel hlt (show addr.toNat % 256 + bytes.length ≤ 256 by omega) x data.length
    rw [hnoted, Device.transfer] at hr
    dsimp only at hr
    cases hxok : x.ok with
    | true =>
      have hall := hsend data (Nat.le_refl _)
      rw [if_pos hxok] at hr
      subst hr
      exact
        { kept := ⟨hall.kept.mode, hall.kept.pqspi⟩
          programs := .inl hall.programs
          mem := ⟨data.length, Nat.le_refl _, by rw [List.take_length]; exact hall.mem,
            fun _ => rfl⟩
          busy := fun _ => ⟨hall.calm, x, hx, hall.busyMs⟩
          fails := fun h => absurd rfl h }
    | false =>
      have hfail : ∃ x, allow x ∧ x.ok = false := ⟨x, hx, hxok⟩
      rw [if_neg (by rw [hxok]; decide)] at hr
      split at hr
      · -- the transfer has failed on the way
        have hpart := hsend (data.take x.cut) (List.length_take_le' _ _)
        subst hr
        refine .failed (by decide) hfail ⟨hpart.kept.mode, hpart.kept.pqspi⟩ (.inl hpart.programs)
          (Nat.min_le_right x.cut data.length) ?_
        rw [take_min_length]
        exact hpart.mem
      · subst hr
        exact .failed (by decide) hfail ⟨rfl, rfl⟩ (.inl rfl) (Nat.zero_le _) hnothing
  · exact fun hfail =>
      .failed (by decide) hfail (Kept.refl d) (.inr rfl) (Nat.zero_le _) hnothing

end PageProgram

/-! ### A page -/

/-- The answers of a device without errors that ends a page program within its polling time: the
last poll comes after two milliseconds. -/
structure ErrorFree (x : Answer) : Prop where
  ok : x.ok = true
  program : x.busyMs pageProgCmd ≤ 2

/-- Nothing is in the way of the next call: the latch is off, or what it was set for ends before
the last poll of "Check if Flash busy?". -/
structure Ready (d : Device) : Prop where
  calm : Calm d
  busyMs : d.chip.busyBy ≠ none → d.busyMs ≤ 4999

/-- On an idle chip nothing is in the way. -/
theorem Chip.Idle.ready {d : Device} (h : d.chip.Idle) : Ready d :=
  ⟨h.calm, fun hbusy => absurd h.1 hbusy⟩

/-- The page programs that pages are sent as. -/
def programsOf (pages : List Page) : List (UInt32 × List UInt8) :=
  pages.map fun page => (page.1.toUInt32, page.2)

/-- A page that a write can have: it has a byte, and stays within its page and the array. -/
structure Fits (page : Page) : Prop where
  pos : page.2 ≠ []
  room : page.1 % 256 + page.2.length ≤ 256
  array : page.1 + page.2.length ≤ 2 ^ 24

/-- The device after the steps of a page, when `left` is left of them. Nothing is left if `H`. -/
structure PageEnd (H : Prop) (d : Device) (page : Page) (left : List WriteStep) (d' : Device) :
    Prop where
  kept : Kept d d'
  programs : d'.programs = d.programs ++ programsOf [page] ∨ left ≠ [] ∧ d'.programs = d.programs
  mem : ∃ n ≤ page.2.length, d'.chip.mem = programmed d.chip.mem page.1 (page.2.take n) ∧
    (left = [] → n = page.2.length)
  idle : left = [] → d'.chip.Idle
  suffix : left <:+ pageSteps page
  ok : H → left = []

/-- A step fails before the data has gone out. -/
theorem PageEnd.before {H : Prop} {page : Page} {left : List WriteStep} {d' : Device}
    (hleft : left ≠ []) (hsuffix : left <:+ pageSteps page) (hkept : Kept d d')
    (hprograms : d'.programs = d.programs) (hmem : d'.chip.mem = d.chip.mem) (hok : ¬ H) :
    PageEnd H d page left d' where
  kept := hkept
  programs := .inr ⟨hleft, hprograms⟩
  mem := ⟨0, Nat.zero_le _, hmem.trans (Blocks.combine_nil (· &&& ·) d.chip.mem page.1).symm,
    fun h => absurd h hleft⟩
  idle h := absurd h hleft
  suffix := hsuffix
  ok h := absurd h hok

/-- Steps before the data goes out change neither the array nor the page programs. -/
theorem PageEnd.after {H : Prop} {page : Page} {left : List WriteStep} {d1 d' : Device}
    (hkept : Kept d d1) (hprograms : d1.programs = d.programs)
    (hmem : d1.chip.mem = d.chip.mem) (h : PageEnd H d1 page left d') :
    PageEnd H d page left d' where
  kept := hkept.trans h.kept
  programs := hprograms ▸ h.programs
  mem := hmem ▸ h.mem
  idle := h.idle
  suffix := h.suffix
  ok := h.ok

/-- The address of such a page is not cut to 32 bits. -/
theorem Fits.toNat_addr {page : Page} (h : Fits page) : page.1.toUInt32.toNat = page.1 := by
  have harray := h.array
  show page.1 % 2 ^ 32 = page.1
  exact Nat.mod_eq_of_lt (by omega)

/-- The two polls of a round, which succeed on a device without errors. -/
theorem ends_poll {H : Prop} (hallow : H → ∀ x, allow x → x.ok = true)
    (times : UInt32 × UInt32) {k : Nat} (hpos : 0 < k) (hcheck : 0 < times.1.toNat)
    (htime : k * times.1.toNat < times.2.toNat) (hmode : d.mode = d.pqspi.interfaceMode)
    (hcalm : H → Calm d)
    (hms : H → d.chip.busyBy ≠ none → d.busyMs ≤ k * times.1.toNat) :
    Ends allow (inMode fun mode => softPollingCheckLoMask mode srBusy times)
      (fun status d' => Polled d.pqspi.interfaceMode d status d' ∧ (H → status = .ok)) d :=
  ends_inMode (Prog.always_and_imp (ends_softPolling times d) fun hH =>
    ends_softPolling_ok (hallow hH) hpos hcheck htime hmode (hcalm hH) (hms hH))

/-- Where the lines are kept, both sides still agree on the mode. -/
theorem Kept.agrees {d' : Device} (h : Kept d d') (hmode : d.mode = d.pqspi.interfaceMode) :
    d'.mode = d'.pqspi.interfaceMode := by
  rw [h.mode, h.pqspi, hmode]

/-- "Issue page program command", and the poll that waits for its end. A page that was accepted is
in the array, and the chip is busy with it until the poll sees the end. A command that failed may
have programmed a part of the page. -/
theorem ends_programWait {H : Prop} (hfree : H → ∀ x, allow x → ErrorFree x)
    (hmode : d.mode = d.pqspi.interfaceMode) (hidle : d.chip.busyBy = none)
    (hwel : d.chip.wel = true) {page : Page} (hfits : Fits page) :
    Ends allow (attemptSteps [.pageProgram page.2 page.1.toUInt32, .waitProgram])
      (PageEnd H d page) d := by
  have haddr : page.1.toUInt32.toNat = page.1 := hfits.toNat_addr
  have hlen : 0 < page.2.length := List.length_pos_iff.2 hfits.pos
  have hroom := hfits.room
  have harray := hfits.array
  have hprogram : Ends allow (pageProgram d.pqspi.interfaceMode page.2 page.1.toUInt32)
      (Programmed allow d page.2 page.1.toUInt32) d :=
    ends_pageProgram hmode hidle hwel (by omega) (by omega)
  refine always_attempt_cons (ends_inMode hprogram) ?_ ?_
  · intro status d1 h1 hs
    have hst : status = .ok := isOk_eq_true.1 hs
    have hprograms : d1.programs = d.programs ++ programsOf [page] :=
      h1.programs.resolve_right fun h => h.1 hst
    obtain ⟨n, hn, hmem, hall⟩ := h1.mem
    obtain ⟨hcalm, x, hx, hms⟩ := h1.busy hst
    have hmode1 : d1.mode = d1.pqspi.interfaceMode := h1.kept.agrees hmode
    rw [hall hst, haddr] at hmem
    have hpoll := ends_poll (fun hH x hx => (hfree hH x hx).ok) pageProgramTimes (k := 2)
      (by decide) (by decide) (by decide) hmode1 (fun _ => hcalm)
      fun hH _ => Nat.le_trans hms (hfree hH x hx).program
    -- the command was accepted, and its bytes are in the array already: the poll changes nothing
    refine always_attempt_cons hpoll ?_ ?_
    · rintro status d2 ⟨⟨hquiet, hidle2⟩, -⟩ hs
      exact
        { kept := h1.kept.trans hquiet.kept
          programs := .inl (hquiet.programs.trans hprograms)
          mem := ⟨_, Nat.le_refl _, hquiet.mem.trans hmem, fun _ => rfl⟩
          idle := fun _ => hidle2 (isOk_eq_true.1 hs) hmode1
          suffix := List.nil_suffix
          ok := fun _ => rfl }
    · rintro status d2 ⟨⟨hquiet, -⟩, hok⟩ hs
      exact
        { kept := h1.kept.trans hquiet.kept
          programs := .inl (hquiet.programs.trans hprograms)
          mem := ⟨_, Nat.le_refl _, hquiet.mem.trans hmem, fun _ => rfl⟩
          idle := fun h => absurd h (List.cons_ne_nil _ _)
          suffix := ⟨[.checkBusy, .writeEnable, .pageProgram page.2 page.1.toUInt32], rfl⟩
          ok := fun hH => absurd (hok hH) (isOk_eq_false.1 hs) }
  · intro status d1 h1 hs
    -- the command failed, and a part of the page may have been programmed
    obtain ⟨x, hx, hxok⟩ := h1.fails (isOk_eq_false.1 hs)
    obtain ⟨n, hn, hmem, -⟩ := h1.mem
    rw [haddr] at hmem
    exact
      { kept := h1.kept
        programs := h1.programs.imp_right fun h => ⟨List.cons_ne_nil _ _, h.2⟩
        mem := ⟨n, hn, hmem, fun h => absurd h (List.cons_ne_nil _ _)⟩
        idle := fun h => absurd h (List.cons_ne_nil _ _)
        suffix := ⟨[.checkBusy, .writeEnable], rfl⟩
        ok := fun hH => absurd (hfree hH x hx).ok (by simp [hxok]) }

/-- A device without errors on which nothing is in the way. -/
def Smooth (allow : Answer → Prop) (d : Device) : Prop := (∀ x, allow x → ErrorFree x) ∧ Ready d

/-- The steps of a page. The check for an idle chip comes first, then the latch, then the program
and its poll; each of them may end the page. -/
theorem ends_pageSteps (hmode : d.mode = d.pqspi.interfaceMode) {page : Page} (hfits : Fits page) :
    Ends allow (attemptSteps (pageSteps page)) (PageEnd (Smooth allow d) d page) d := by
  -- "Check if Flash busy?"
  have hpoll := ends_poll (H := Smooth allow d) (fun hH x hx => (hH.1 x hx).ok) busyTimes
    (k := 4999) (by decide) (by decide) (by decide) hmode (fun hH => hH.2.calm)
    fun hH => hH.2.busyMs
  refine always_attempt_cons hpoll ?_ ?_
  · rintro status d1 ⟨⟨hquiet, hidle⟩, -⟩ hs
    have hidle1 : d1.chip.Idle := hidle (isOk_eq_true.1 hs) hmode
    have hmode1 : d1.mode = d1.pqspi.interfaceMode := hquiet.kept.agrees hmode
    -- "Enable write operations"
    refine always_attempt_cons (ends_inMode (ends_writeEnable hmode1 hidle1.1)) ?_ ?_
    · intro status d2 h2 hs
      have hwel : d2.chip.wel = true := h2.wel (isOk_eq_true.1 hs)
      have hrest := ends_programWait (H := Smooth allow d) (fun hH => hH.1)
        (h2.kept.agrees hmode1) h2.busyBy hwel hfits
      exact always_mono (fun _ _ h => h.after (hquiet.kept.trans h2.kept)
        (h2.programs.trans hquiet.programs) (h2.mem.trans hquiet.mem)) hrest
    · intro status d2 h2 hs
      obtain ⟨x, hx, hxok⟩ := h2.fails (isOk_eq_false.1 hs)
      exact .before (List.cons_ne_nil _ _) ⟨[.checkBusy], rfl⟩ (hquiet.kept.trans h2.kept)
        (h2.programs.trans hquiet.programs) (h2.mem.trans hquiet.mem)
        fun hH => absurd (hH.1 x hx).ok (by simp [hxok])
  · rintro status d1 ⟨⟨hquiet, -⟩, hok⟩ hs
    exact .before (List.cons_ne_nil _ _) (List.suffix_refl _) hquiet.kept hquiet.programs
      hquiet.mem fun hH => isOk_eq_false.1 hs (hok hH)

/-! ### All pages -/

/-- The pages were programmed. -/
structure PlanDone (d : Device) (pages : List Page) (d' : Device) : Prop where
  programs : d'.programs = d.programs ++ programsOf pages
  mem : d'.chip.mem = combineAll (· &&& ·) d.chip.mem pages

/-- The pages `ready` were programmed, a step for `page` has failed, and the pages `rest` were not
begun. -/
structure PlanStopped (d : Device) (ready : List Page) (page : Page) (rest : List Page)
    (left : List WriteStep) (d' : Device) : Prop where
  /-- the page program of `page` may have been sent -/
  programs : d'.programs = d.programs ++ programsOf ready ∨
    d'.programs = d.programs ++ programsOf (ready ++ [page])
  /-- and may have programmed the beginning of its data -/
  mem : ∃ n ≤ page.2.length, d'.chip.mem =
    programmed (combineAll (· &&& ·) d.chip.mem ready) page.1 (page.2.take n)
  /-- the steps left of `page`, from the failed one on -/
  left : ∃ steps, steps ≠ [] ∧ steps <:+ pageSteps page ∧ left = steps ++ plan rest

/-- The device after the plan for some pages, when `left` is left of it. -/
structure PlanEnd (allow : Answer → Prop) (d : Device) (pages : List Page) (left : List WriteStep)
    (d' : Device) : Prop where
  kept : Kept d d'
  done : left = [] → PlanDone d pages d'
  idle : left = [] → d.chip.Idle → d'.chip.Idle
  stopped : left ≠ [] → ∃ ready page rest, pages = ready ++ page :: rest ∧
    PlanStopped d ready page rest left d'
  ok : Smooth allow d → left = []

/-- Nothing is left of a page that was programmed. -/
theorem PageEnd.done {H : Prop} {page : Page} {d' : Device} (h : PageEnd H d page [] d') :
    PlanDone d [page] d' where
  programs := h.programs.resolve_right fun h => h.1 rfl
  mem := by
    obtain ⟨n, -, hmem, hn⟩ := h.mem
    rw [hn rfl, List.take_length] at hmem
    exact hmem

/-- The steps of a page in front of a plan. -/
theorem PlanDone.cons {page : Page} {rest : List Page} {d1 d' : Device}
    (h1 : PlanDone d [page] d1) (h : PlanDone d1 rest d') : PlanDone d (page :: rest) d' where
  programs := by rw [h.programs, h1.programs, List.append_assoc]; rfl
  mem := by rw [h.mem, h1.mem]; rfl

/-- A plan that stops behind its first page has programmed this page too. -/
theorem PlanStopped.cons {first page : Page} {ready rest : List Page} {left : List WriteStep}
    {d1 d' : Device} (h1 : PlanDone d [first] d1) (h : PlanStopped d1 ready page rest left d') :
    PlanStopped d (first :: ready) page rest left d' where
  programs := by
    have hprograms := h.programs
    rw [h1.programs, List.append_assoc, List.append_assoc] at hprograms
    exact hprograms
  mem := by
    obtain ⟨n, hn, hmem⟩ := h.mem
    rw [h1.mem] at hmem
    exact ⟨n, hn, hmem⟩
  left := h.left

/-- The pages one after another. By induction on the pages. Those in front of the first failure are
programmed, and those behind it were not begun. -/
theorem ends_plan (pages : List Page) (hfits : ∀ page ∈ pages, Fits page) {d : Device}
    (hmode : d.mode = d.pqspi.interfaceMode) :
    Ends allow (attemptSteps (plan pages)) (PlanEnd allow d pages) d := by
  induction pages generalizing d with
  | nil =>
    exact
      { kept := Kept.refl d
        done := fun _ => ⟨(List.append_nil _).symm, rfl⟩
        idle := fun _ h => h
        stopped := fun h => absurd rfl h
        ok := fun _ => rfl }
  | cons page rest ih =>
    have hpage := hfits page List.mem_cons_self
    refine always_attempt_append (ends_pageSteps hmode hpage) ?_ ?_
    · -- the page is done and the chip idle again: the rest goes on from there
      intro d1 h1
      have hmode1 : d1.mode = d1.pqspi.interfaceMode := h1.kept.agrees hmode
      have hidle1 : d1.chip.Idle := h1.idle rfl
      have hrest : ∀ p ∈ rest, Fits p := fun p hp => hfits p (List.mem_cons_of_mem _ hp)
      refine always_mono (fun left d' h => ?_) (ih hrest hmode1)
      exact
        { kept := h1.kept.trans h.kept
          done := fun hleft => h1.done.cons (h.done hleft)
          idle := fun hleft _ => h.idle hleft hidle1
          stopped := fun hleft => by
            obtain ⟨ready, page', rest', rfl, hstopped⟩ := h.stopped hleft
            exact ⟨page :: ready, page', rest', rfl, hstopped.cons h1.done⟩
          ok := fun hH => h.ok ⟨hH.1, hidle1.ready⟩ }
    · -- a failed call stops the page, and the rest of the plan is never reached
      intro left d1 hleft h1
      have happend : left ++ plan rest ≠ [] := by simp [hleft]
      obtain ⟨n, hn, hmem, -⟩ := h1.mem
      exact
        { kept := h1.kept
          done := fun h => absurd h happend
          idle := fun h => absurd h happend
          stopped := fun _ => ⟨[], page, rest, rfl,
            { programs := by
                rw [programsOf, List.map_nil, List.append_nil]
                exact h1.programs.symm.imp_left fun h => h.2
              mem := ⟨n, hn, hmem⟩
              left := ⟨left, hleft, h1.suffix, rfl⟩ }⟩
          ok := fun hH => absurd (h1.ok hH) hleft }

end Component

/-! ### A write -/

/-- The pages are contiguous from `addr` on, they have the data, and each of them stays within
256 bytes. -/
structure Paged (addr : Nat) (data : List UInt8) (pages : List Page) : Prop where
  contiguous : Contiguous addr pages
  data : dataOf pages = data
  within : ∀ page ∈ pages, page.2 ≠ [] ∧ page.1 % 256 + page.2.length ≤ 256

/-- The pages of a write are contiguous, have its data and stay within their 256 bytes. -/
theorem pages_paged (addr : Nat) (data : List UInt8) : Paged addr data (pages addr data) where
  contiguous := Blocks.split_contiguous addr data
  data := Blocks.split_flatten addr data
  within _ h := Blocks.split_room h

/-- The bytes from `addr` on are the old ones and the data, all others are as before. -/
structure Anded (old : Nat → UInt8) (addr : Nat) (data : List UInt8) (new : Nat → UInt8) :
    Prop where
  inside : ∀ (i : Nat) (hi : i < data.length), new (addr + i) = old (addr + i) &&& data[i]
  outside : ∀ a, a < addr ∨ addr + data.length ≤ a → new a = old a

/-- To program data is to let bits go from one to zero, which is a bitwise and with what was
there. -/
theorem anded_programmed (old : Nat → UInt8) (addr : Nat) (data : List UInt8) :
    Anded old addr data (programmed old addr data) :=
  ⟨fun _ hi => Blocks.combine_of_mem _ old addr hi,
    fun _ ha => Blocks.combine_of_outside _ old addr ha⟩

section Parts
variable {addr : Nat} {data : List UInt8} {ready rest : List Page} {page : Page}

/-- The pages of a write that ends inside the array are ones that the chip can program. -/
theorem Paged.fits {ps : List Page} (h : Paged addr data ps) (hend : addr + data.length ≤ 2 ^ 24) :
    ∀ page ∈ ps, Fits page := by
  intro page hpage
  obtain ⟨hpos, hroom⟩ := h.within page hpage
  have hle := h.contiguous.end_le hpage
  rw [h.data] at hle
  exact ⟨hpos, hroom, Nat.le_trans hle hend⟩

/-- The data up to within `page`, in two parts. -/
theorem Paged.take (h : Paged addr data (ready ++ page :: rest)) {n : Nat}
    (hn : n ≤ page.2.length) :
    data.take ((dataOf ready).length + n) = dataOf ready ++ page.2.take n := by
  rw [← h.data, Blocks.dataOf_append, List.take_length_add_append, Blocks.dataOf_cons,
    List.take_append_of_le_length hn]

/-- What the pages before a stop, and the beginning of the next one, have programmed. -/
theorem Paged.programmed_take (h : Paged addr data (ready ++ page :: rest)) (mem : Nat → UInt8)
    {n : Nat} (hn : n ≤ page.2.length) :
    programmed (combineAll (· &&& ·) mem ready) page.1 (page.2.take n) =
      programmed mem addr (data.take ((dataOf ready).length + n)) := by
  rw [Blocks.combineAll_eq _ h.contiguous.left, h.contiguous.addr_eq, h.take hn]
  exact (Blocks.combine_append _ mem addr _ _).symm

end Parts

section Write
variable {d : Device} {data : List UInt8} {writeAddr : UInt32}

/-- The bounds on the rounds of the loops of `BSP_QSPI_Write` are never reached. -/
structure WriteEnds (data : List UInt8) (writeAddr : UInt32) : Prop where
  rounds : ∀ fuel, data.length < fuel →
    writeLoop (writeAddr + data.length.toUInt32) fuel data writeAddr
      (firstSize writeAddr data.length.toUInt32) = bspQspiWrite data writeAddr
  polls : ∀ times ∈ [busyTimes, pageProgramTimes], ∀ mode n,
    pollLoop mode srBusy times.1 times.2 (times.2.toNat + 1 + n) 0 =
      pollLoop mode srBusy times.1 times.2 (times.2.toNat + 1) 0

/-- A write of some bytes inside the array comes to its end before the bounds on the rounds are
reached. -/
theorem writeEnds (hne : data ≠ []) (hend : writeAddr.toNat + data.length ≤ 2 ^ 24) :
    WriteEnds data writeAddr where
  rounds fuel hfuel := by rw [writeLoop_plan hne hend hfuel, bspQspiWrite_eq hne hend]
  polls := by
    intro times htimes mode n
    have htime : 0 < times.1.toNat ∧ times.2.toNat + times.1.toNat ≤ 2 ^ 32 := by
      rw [List.mem_cons, List.mem_singleton] at htimes
      rcases htimes with rfl | rfl
      · decide
      · decide
    exact pollLoop_fuel mode srBusy htime.1 htime.2 n _ (Nat.le_add_left _ _)

/-- What a run of `BSP_QSPI_Write` has done when `left` is left of its plan. -/
structure WriteEnd (d : Device) (data : List UInt8) (writeAddr : UInt32)
    (left : List WriteStep) (result : BspStatus) (d' : Device) : Prop where
  status : result = writeStatus left
  /-- every page was programmed once, and the array has the data -/
  written : left = [] →
    d'.programs = d.programs ++ programsOf (pages writeAddr.toNat data) ∧
      Anded d.chip.mem writeAddr.toNat data d'.chip.mem
  /-- a step for `page` has failed: no page behind it was programmed, and the array has a part of
  the data that ends within `page` -/
  stopped : left ≠ [] → ∃ ready page rest,
    pages writeAddr.toNat data = ready ++ page :: rest ∧ PlanStopped d ready page rest left d' ∧
      ∃ n ≤ page.2.length,
        Anded d.chip.mem writeAddr.toNat (data.take ((dataOf ready).length + n)) d'.chip.mem

/-- `BSP_QSPI_Write` ends. It sends the data page by page, up to the first step that fails, and
without errors it sends and programs all of it. The driver knows the mode of the chip.

What is said of the programmed pages and of a failure holds from every state of the device. That
nothing is left to do (`left = []`) needs a device that is `Ready` besides a run without errors:
no write enable latch is left over from an earlier call, and a program or erase that is still
going on ends before the driver gives up the check for it. An idle chip is (`Chip.Idle.ready`),
which is how calls without errors leave it. -/
theorem write_by_pages (d : Device) (data : List UInt8) (writeAddr : UInt32)
    (hmode : d.mode = d.pqspi.interfaceMode) (hpos : 1 ≤ data.length)
    (hend : writeAddr.toNat + data.length ≤ 2 ^ 24) :
    WriteEnds data writeAddr ∧ Paged writeAddr.toNat data (pages writeAddr.toNat data) ∧
      ∀ ω : Nat → Answer,
        let run := (bspQspiWrite data writeAddr).runWith Device.handle ω d
        let left := ((attemptSteps (plan (pages writeAddr.toNat data))).runWith Device.handle ω d).1
        WriteEnd d data writeAddr left run.1 run.2 ∧
          ((∀ n, ErrorFree (ω n)) → Ready d → left = [] ∧ run.1 = .none) := by
  have hne : data ≠ [] := List.length_pos_iff.1 hpos
  have hpaged := pages_paged writeAddr.toNat data
  refine ⟨writeEnds hne hend, hpaged, fun ω => ?_⟩
  have hplan : Ends (fun x => ∃ n, ω n = x) (attemptSteps (plan (pages writeAddr.toNat data)))
      (PlanEnd _ d (pages writeAddr.toNat data)) d :=
    ends_plan _ (hpaged.fits hend) hmode
  have hrun := Prog.always_runWith hplan (ω := ω) fun n => ⟨n, rfl⟩
  dsimp only
  rw [bspQspiWrite_eq hne hend, Prog.runWith_bind_ret]
  generalize (attemptSteps _).runWith Device.handle ω d = r at hrun
  refine ⟨⟨rfl, fun hleft => ?_, fun hleft => ?_⟩, fun hfree hready => ?_⟩
  · -- every page was sent
    have hdone := hrun.done hleft
    refine ⟨hdone.programs, ?_⟩
    have hmem := hdone.mem
    rw [Blocks.combineAll_eq _ hpaged.contiguous, hpaged.data] at hmem
    rw [hmem]
    exact anded_programmed _ _ _
  · -- a page was not
    obtain ⟨ready, page, rest, hpages, hstopped⟩ := hrun.stopped hleft
    obtain ⟨n, hn, hmem⟩ := hstopped.mem
    rw [hpages] at hpaged
    rw [hpaged.programmed_take _ hn] at hmem
    refine ⟨ready, page, rest, hpages, hstopped, n, hn, ?_⟩
    rw [hmem]
    exact anded_programmed _ _ _
  · -- without errors from a ready chip none is left over
    have hok := hrun.ok ⟨fun x ⟨n, hn⟩ => hn ▸ hfree n, hready⟩
    exact ⟨hok, writeStatus_eq_none.2 hok⟩

end Write

/-- An erased chip in QPI mode. -/
def erasedDevice : Device where
  chip := { busyBy := none, wel := false, mem := fun _ => 0xFF }
  mode := .qpi
  pqspi := { isInitialized := .indirect, interfaceMode := .qpi }

/-- Three bytes across the end of the first page. -/
theorem write_by_pages_two :
    let run := (bspQspiWrite [0x12, 0x34, 0x56] 0xFE).runWith Device.handle (fun _ => {})
      erasedDevice
    run.1 = .none ∧ run.2.programs = [(0xFE, [0x12, 0x34]), (0x100, [0x56])] ∧
      run.2.chip.mem 0x100 = 0x56 := by
  obtain ⟨-, -, hruns⟩ :=
    write_by_pages erasedDevice [0x12, 0x34, 0x56] 0xFE rfl (by decide) (by decide)
  obtain ⟨hend, hnone⟩ := hruns fun _ => {}
  have hready : Ready erasedDevice := ⟨fun _ => rfl, fun hbusy => absurd rfl hbusy⟩
  obtain ⟨hleft, hstatus⟩ := hnone (fun _ => ⟨rfl, Nat.zero_le 2⟩) hready
  obtain ⟨hprograms, hmem⟩ := hend.written hleft
  have hbyte := hmem.inside 2 (by decide)
  refine ⟨hstatus, ?_, hbyte.trans (by decide)⟩
  rw [hprograms]
  simp [pages, Blocks.split, Blocks.room, programsOf, erasedDevice]

end NucleoH743.Flash
