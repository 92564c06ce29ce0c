import NucleoH743.Proofs.Flash.Pages

/-!
# `Proofs.Flash.Sectors`: erasing, writing and reading without errors

What the driver calls of the disk layer do on a device without errors that ends what it is
doing within the polling times of the driver.

Here the answers of the device are those without an error, and no program or erase takes longer than
the polls wait for it. So each call succeeds, and what it does to the array is a function: an erase
sets the 4096 cells of a block to 0xFF, and a write to erased cells stores its data, as the bitwise
and with 0xFF is the data itself.

Each lemma starts from a calm device and leaves an idle one (`Leaves`), so the calls of a loop can
be put one behind the other.

- `ends_eraseBlock`: the erase of a 4K block.
- `ends_write`: a write.
- `ends_writeSector`: a sector that is erased and written holds the data.
- `ends_bspRead`: a read.
-/

set_option autoImplicit false

namespace NucleoH743.Flash

open Blocks (combineAll slice store)
open Prog (always_mono always_seq always_and)

/-- The answers of a device without errors that ends its programs and erases before the last
poll: after 2 and after 390 milliseconds. -/
structure InBudget (x : Answer) : Prop extends ErrorFree x where
  erase : x.busyMs subsectorEraseCmd4K ≤ 390

section Rules
variable {α : Type} {allow : Answer → Prop} {Q : α → Device → Prop} {d : Device}

/-- A step of the board driver that cannot fail. -/
theorem ends_step {p : Drv Status} {P : Device → Prop} {e : α} {k : Drv α}
    (hp : Ends allow p (fun status d' => status = .ok ∧ P d') d)
    (hk : ∀ d', P d' → Ends allow k Q d') :
    Ends allow (p >>= fun status => if status ≠ .ok then pure e else k) Q d :=
  ends_guard hp (fun d' h => hk d' h.2) fun _ _ hst h => absurd h.1 hst

end Rules

variable {d : Device}

/-- The poll of a device that will be idle in time. -/
theorem ends_poll_ok {mode : Interface} (times : UInt32 × UInt32) {k : Nat} (hpos : 0 < k)
    (hcheck : 0 < times.1.toNat) (htime : k * times.1.toNat < times.2.toNat)
    (hmode : d.mode = mode) (hcalm : Calm d)
    (hms : d.chip.busyBy ≠ none → d.busyMs ≤ k * times.1.toNat) :
    Ends InBudget (softPollingCheckLoMask mode srBusy times)
      (fun status d' => status = .ok ∧ Quiet d d' ∧ d'.chip.Idle) d := by
  have hok : Ends InBudget (softPollingCheckLoMask mode srBusy times) (fun status _ => status = .ok)
      d := ends_softPolling_ok (fun _ hx => hx.ok) hpos hcheck htime hmode hcalm hms
  refine always_mono ?_ (always_and (ends_softPolling times d) hok)
  rintro status d' ⟨⟨hquiet, hidle⟩, hst⟩
  exact ⟨hst, hquiet, hidle hst hmode⟩

/-! ### Erasing -/

/-- The array after the erase of the 4K block `block`. -/
def erased (mem : Nat → UInt8) (block : Nat) : Nat → UInt8 :=
  fun a => if a / 2 ^ 12 = block then 0xFF else mem a

/-- "Check if Flash busy?" and "Enable write operations". -/
theorem ends_writeEnable_ok {mode : Interface} (hmode : d.mode = mode)
    (hidle : d.chip.busyBy = none) :
    Ends InBudget (writeEnable mode)
      (fun status d' => status = .ok ∧ Enabled InBudget d .ok d') d := by
  refine always_mono (fun status d' h => ?_) (ends_writeEnable hmode hidle)
  have hst : status = .ok := by
    by_contra hne
    obtain ⟨x, hx, hfail⟩ := h.fails hne
    rw [hx.ok] at hfail
    cases hfail
  subst hst
  exact ⟨rfl, h⟩

/-- The command of `W25Q128FV_BlockErase` for a 4K block. -/
def eraseCommand (mode : Interface) (addr : UInt32) : QspiCommand :=
  { mode, instruction := subsectorEraseCmd4K, address := some addr }

/-- The erase reaches an idle chip whose latch is set, and starts. It is busy with it for as long as
the answer says. -/
theorem send_erase {mode : Interface} (hmode : d.mode = mode) (hidle : d.chip.busyBy = none)
    (hwel : d.chip.wel = true) {addr : UInt32} (hlt : addr.toNat < 2 ^ 24) (x : Answer) :
    Started (x.busyMs subsectorEraseCmd4K)
      { d with
        resetEnabled := false
        chip := { d.chip with busyBy := some 0, mem := erased d.chip.mem (addr.toNat / 2 ^ 12) } }
      (d.send x (eraseCommand mode addr) []) := by
  have haccept : d.chip.accept 0 (eraseCommand mode addr) [] =
      { d.chip with busyBy := some 0, mem := erased d.chip.mem (addr.toNat / 2 ^ 12) } := by
    have herase : d.chip.accept 0 (eraseCommand mode addr) [] =
        d.chip.eraseBlock 0 (2 ^ 12) addr := by
      rw [Chip.accept, if_neg (by simp [hidle])]
      rfl
    rw [herase, Chip.eraseBlock, if_pos hwel, Nat.mod_eq_of_lt hlt]
    rfl
  have hother : (eraseCommand mode addr).instruction ∉
      [resetEnableCmd, enterQuadCmd, exitQuadCmd, resetMemoryCmd] := by
    show subsectorEraseCmd4K ∉ _
    decide
  rw [send_taken hmode hidle hother, haccept]
  exact started_busyFor (Option.some_ne_none 0) _

/-- What a driver call leaves behind: an idle chip with the array `mem`. -/
structure Leaves (mem : Nat → UInt8) (d d' : Device) : Prop where
  kept : Kept d d'
  idle : d'.chip.Idle
  mem : d'.chip.mem = mem

/-- `W25Q128FV_BlockErase` on an idle chip. Within the budget no poll gives up, so the status is
`BSP_ERROR_NONE` and the sector is erased. -/
theorem ends_blockErase {mode : Interface} (hmode : d.mode = mode) (hidle : d.chip.busyBy = none)
    {addr : UInt32} (hlt : addr.toNat < 2 ^ 24) :
    Ends InBudget (blockErase mode addr .erase4K) (fun status d' => status = .ok ∧
      Leaves (erased d.chip.mem (addr.toNat / 2 ^ 12)) d d') d := by
  unfold blockErase
  rw [if_neg (by decide)]
  refine always_seq (ends_writeEnable_ok hmode hidle) ?_
  rintro _ d1 ⟨-, h1⟩
  have hmode1 : d1.mode = mode := h1.kept.mode.trans hmode
  refine ends_command rfl fun x hx => ?_
  have hstart : Started _ _ (d1.send x (eraseCommand mode addr) []) :=
    send_erase hmode1 h1.busyBy (h1.wel rfl) hlt x
  rw [if_pos hx.ok, if_pos (Or.inl hx.ok)]
  have hpoll := ends_poll_ok sectorEraseTimes (k := 39) (by decide) (by decide) (by decide)
    (hstart.kept.mode.trans hmode1) hstart.calm fun _ => Nat.le_trans hstart.busyMs hx.erase
  refine always_mono ?_ hpoll
  rintro status d2 ⟨hst, hquiet, hidle2⟩
  refine ⟨hst, ⟨hquiet.mode.trans (hstart.kept.mode.trans h1.kept.mode),
    hquiet.pqspi.trans (hstart.kept.pqspi.trans h1.kept.pqspi)⟩, hidle2, ?_⟩
  rw [hquiet.mem, hstart.mem]
  exact congrArg (erased · _) h1.mem

/-- `BSP_QSPI_EraseBlock` for a 4K block. The check for an idle chip in front of it gives the chip
its time. -/
theorem ends_eraseBlock (hmode : d.mode = d.pqspi.interfaceMode) (hready : Ready d)
    {addr : UInt32} (hlt : addr.toNat < 2 ^ 24) :
    Ends InBudget (bspQspiEraseBlock addr .erase4K) (fun status d' => status = .none ∧
      Leaves (erased d.chip.mem (addr.toNat / 2 ^ 12)) d d') d := by
  have hcheck := ends_poll_ok busyTimes (k := 4999) (by decide) (by decide) (by decide) hmode
    hready.calm hready.busyMs
  refine ends_step (ends_inMode hcheck) ?_
  rintro d1 ⟨hquiet1, hidle1⟩
  have hmode1 := hquiet1.kept.agrees hmode
  refine ends_step (ends_inMode (ends_writeEnable_ok hmode1 hidle1.1)) ?_
  intro d2 h2
  have hmode2 := h2.kept.agrees hmode1
  refine ends_step (ends_inMode (ends_blockErase hmode2 h2.busyBy hlt)) ?_
  intro d3 h3
  refine ⟨rfl, (hquiet1.kept.trans h2.kept).trans h3.kept, h3.idle, ?_⟩
  rw [h3.mem, h2.mem, hquiet1.mem]

/-! ### Writing -/

/-- `BSP_QSPI_Write` on an idle chip. -/
theorem ends_write (hmode : d.mode = d.pqspi.interfaceMode) (hidle : d.chip.Idle)
    {data : List UInt8} {addr : UInt32} (hne : data ≠ [])
    (hend : addr.toNat + data.length ≤ 2 ^ 24) :
    Ends InBudget (bspQspiWrite data addr) (fun status d' => status = .none ∧
      Leaves (programmed d.chip.mem addr.toNat data) d d') d := by
  have hpaged := pages_paged addr.toNat data
  rw [bspQspiWrite_eq hne hend]
  refine always_seq (ends_plan _ (hpaged.fits hend) hmode) fun left d' h => ?_
  have hleft : left = [] := h.ok ⟨fun _ hx => hx.toErrorFree, hidle.ready⟩
  have hmem := (h.done hleft).mem
  rw [Blocks.combineAll_eq _ hpaged.contiguous, hpaged.data] at hmem
  exact ⟨writeStatus_eq_none.2 hleft, h.kept, h.idle hleft hidle, hmem⟩

/-- What is programmed over an erased byte is the byte itself. -/
theorem ff_and (b : UInt8) : 0xFF &&& b = b := by
  have hones : (0xFF : UInt8) = -1 := by decide
  rw [hones, UInt8.neg_one_and]

/-- A block that is erased and then programmed holds the data, and nothing else has changed. -/
theorem programmed_erased (mem : Nat → UInt8) {block : Nat} {data : List UInt8}
    (hlen : data.length = 2 ^ 12) :
    programmed (erased mem block) (block * 2 ^ 12) data = store mem (block * 2 ^ 12) data := by
  funext a
  by_cases hin : a / 2 ^ 12 = block
  · obtain ⟨i, rfl⟩ : ∃ i, a = block * 2 ^ 12 + i := ⟨a % 2 ^ 12, by omega⟩
    have hi : i < data.length := by omega
    rw [programmed, Blocks.combine_of_mem _ _ _ hi, store, Blocks.combine_of_mem _ _ _ hi, erased,
      if_pos hin, ff_and]
  · have hout : a < block * 2 ^ 12 ∨ block * 2 ^ 12 + data.length ≤ a := by omega
    rw [programmed, Blocks.combine_of_outside _ _ _ hout, store,
      Blocks.combine_of_outside _ _ _ hout, erased, if_neg hin]

/-- A sector as `w25qxx_write` writes it. The sector is erased and then programmed in whole pages,
so it holds the data, and every other sector what it held. -/
theorem ends_writeSector {α : Type} {Q : α → Device → Prop} {k : Drv α}
    (hmode : d.mode = d.pqspi.interfaceMode) (hready : Ready d) {addr : UInt32} {block : Nat}
    (haddr : addr.toNat = block * 2 ^ 12) (hlt : block < 2 ^ 12) {data : List UInt8}
    (hlen : data.length = 2 ^ 12)
    (hk : ∀ d', Leaves (store d.chip.mem (block * 2 ^ 12) data) d d' → Ends InBudget k Q d') :
    Ends InBudget (do
      let _ ← bspQspiEraseBlock addr .erase4K
      let _ ← bspQspiWrite data addr
      k) Q d := by
  have hne : data ≠ [] := List.length_pos_iff.1 (by omega)
  have hblock : addr.toNat / 2 ^ 12 = block := by omega
  have hin : addr.toNat < 2 ^ 24 := by omega
  have hend : addr.toNat + data.length ≤ 2 ^ 24 := by omega
  refine always_seq (ends_eraseBlock hmode hready hin) ?_
  rintro _ d1 ⟨-, h1⟩
  refine always_seq (ends_write (h1.kept.agrees hmode) h1.idle hne hend) ?_
  rintro _ d2 ⟨-, h2⟩
  refine hk d2 ⟨h1.kept.trans h2.kept, h2.idle, ?_⟩
  rw [h2.mem, h1.mem, hblock, haddr, programmed_erased _ hlen]

/-! ### Reading -/

/-- The bytes that an idle chip sends for a FAST READ. -/
theorem answer_fastRead {c : QspiCommand} (hmode : d.mode = c.mode) (hidle : d.chip.Idle)
    (hread : c.instruction = fastReadCmd) {addr : UInt32} (haddr : c.address = some addr)
    {size : Nat} (hend : addr.toNat + size ≤ 2 ^ 24) (noise : Nat → UInt8) :
    (List.range size).map (d.answer c noise) = slice d.chip.mem addr.toNat size := by
  refine List.map_congr_left fun j hj => ?_
  have hlt : addr.toNat + j < 2 ^ 24 := by
    have hj' := List.mem_range.1 hj
    omega
  have hnot : c.instruction ≠ readStatusReg1Cmd := by
    rw [hread]
    decide
  rw [Device.answer, if_pos hmode.symm, Chip.answer, if_neg hnot, if_neg (by simp [hidle.1]),
    if_pos hread, haddr]
  exact congrArg d.chip.mem (Nat.mod_eq_of_lt hlt)

/-- A read on an idle chip without errors delivers the array, and changes nothing. -/
theorem ends_read_ok {mode : Interface} (hmode : d.mode = mode) (hidle : d.chip.Idle)
    {addr : UInt32} {size : Nat} (hend : addr.toNat + size ≤ 2 ^ 24) :
    Ends InBudget (read mode addr size)
      (fun r d' => r = (.ok, slice d.chip.mem addr.toNat size) ∧ Still d d') d := by
  have hnofail : ¬ ∃ x, InBudget x ∧ x.ok = false := by
    rintro ⟨x, hx, hfail⟩
    rw [hx.ok] at hfail
    cases hfail
  unfold read
  refine ends_read rfl (.inr rfl) (.inr rfl) ?_ (fun h => absurd h hnofail)
    (fun h => absurd h hnofail)
  intro x d' _ hstill
  refine ⟨Prod.ext rfl ?_, hstill⟩
  exact answer_fastRead hmode hidle rfl rfl hend x.noise

/-- `BSP_QSPI_Read` on an idle chip. -/
theorem ends_bspRead (hmode : d.mode = d.pqspi.interfaceMode) (hidle : d.chip.Idle)
    {addr : UInt32} {size : Nat} (hend : addr.toNat + size ≤ 2 ^ 24) :
    Ends InBudget (bspQspiRead addr size)
      (fun r d' => r = (.none, slice d.chip.mem addr.toNat size) ∧ Still d d') d := by
  unfold bspQspiRead
  refine always_seq (ends_inMode (ends_read_ok hmode hidle hend)) ?_
  rintro _ d' ⟨rfl, hstill⟩
  exact ⟨rfl, hstill⟩

end NucleoH743.Flash
