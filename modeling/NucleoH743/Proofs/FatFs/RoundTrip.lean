import NucleoH743.FatFs.Diskio
import NucleoH743.Proofs.Flash.Sectors

/-!
# `Proofs.FatFs.RoundTrip`: what the disk layer writes, it reads

`w25qxx_write` erases and writes sector by sector, `w25qxx_read` reads sector by sector. On a
device without errors that ends its programs and erases within the polling times:

The loops are inductions on the sectors that are left. What one round does is known from the driver:
the erase of a sector fills it with ones, the write of a buffer to an erased sector stores the
buffer, and a read gives what is there. What has to be shown is that a later round leaves the
sectors of the earlier ones, and that addresses and counters do not wrap within the flash.

- `ends_writeSectors`: the sectors hold the buffer, and nothing else has changed.
- `ends_readSectors`: the buffer holds the sectors.
- `write_read`: a write and the read of the same sectors.
-/

set_option autoImplicit false

namespace NucleoH743.Diskio

open NucleoH743.Flash
open Blocks (slice store)
open Prog (always_mono always_seq)

/-! ### Addresses -/

/-- A sector has 4096 bytes. -/
theorem toNat_flashSubsectorSize : flashSubsectorSize.toNat = 2 ^ 12 := rfl

/-- The address of a sector of the flash. -/
theorem toNat_sectorAddr {sector : UInt32} (h : sector.toNat < 2 ^ 12) :
    (sector * flashSubsectorSize).toNat = sector.toNat * 2 ^ 12 := by
  rw [UInt32.toNat_mul, toNat_flashSubsectorSize, Nat.mod_eq_of_lt (by omega)]

/-- The number of the next sector does not wrap, for the chip has 4096 of them. -/
theorem toNat_nextSector {sector : UInt32} (h : sector.toNat < 2 ^ 12) :
    (sector + 1).toNat = sector.toNat + 1 := by
  rw [UInt32.toNat_add]
  exact Nat.mod_eq_of_lt (show sector.toNat + 1 < 2 ^ 32 by omega)

/-- The counter of the write loop does not wrap below 128 sectors. -/
theorem toNat_nextIndex {i : UInt8} (h : i.toNat < 128) : (i + 1).toNat = i.toNat + 1 := by
  rw [UInt8.toNat_add]
  exact Nat.mod_eq_of_lt (show i.toNat + 1 < 2 ^ 8 by omega)

variable {d : Device}

/-! ### Writing -/

/-- The loop has no sector to go. -/
theorem writeSectors_end {count : UInt32} {i : UInt8} (hi : i.toNat = count.toNat) (fuel : Nat)
    (buff : List UInt8) (sector : UInt32) :
    writeSectors count fuel i buff sector = return () := by
  cases fuel with
  | zero => rfl
  | succ fuel =>
    have hstop : ¬ i.toUInt32 < count := by
      rw [UInt32.lt_iff_toNat_lt, UInt8.toNat_toUInt32]
      omega
    rw [writeSectors, if_neg hstop]

/-- The loop of `w25qxx_write` with `n` sectors to go. The counter `i` is a byte, which is enough
for `count`. -/
theorem ends_writeSectors {count : UInt32} (hcount : count.toNat ≤ 128) (n : Nat) {fuel : Nat}
    (hfuel : n ≤ fuel) {i : UInt8} (hi : i.toNat + n = count.toNat) {buff : List UInt8}
    (hlen : buff.length = n * 2 ^ 12) {sector : UInt32} (hend : sector.toNat + n ≤ 2 ^ 12)
    (hmode : d.mode = d.pqspi.interfaceMode) (hready : Ready d) :
    Ends InBudget (writeSectors count fuel i buff sector) (fun _ d' => Kept d d' ∧
      (0 < n ∨ d.chip.Idle → d'.chip.Idle) ∧
      d'.chip.mem = store d.chip.mem (sector.toNat * 2 ^ 12) buff) d := by
  induction n generalizing d fuel i buff sector with
  | zero =>
    have hbuff : buff = [] := List.length_eq_zero_iff.1 (by omega)
    rw [writeSectors_end hi]
    refine ⟨Kept.refl d, fun h => h.resolve_left (Nat.lt_irrefl 0), ?_⟩
    rw [hbuff, store, Blocks.combine_nil]
  | succ n ih =>
    obtain ⟨fuel, rfl⟩ : ∃ m, fuel = m + 1 := ⟨fuel - 1, by omega⟩
    have hsector : sector.toNat < 2 ^ 12 := by omega
    have hlt : i.toUInt32 < count := by
      rw [UInt32.lt_iff_toNat_lt, UInt8.toNat_toUInt32]
      omega
    have htake : (buff.take flashSubsectorSize.toNat).length = 2 ^ 12 := by
      rw [List.length_take, toNat_flashSubsectorSize]
      omega
    have hdrop : (buff.drop flashSubsectorSize.toNat).length = n * 2 ^ 12 := by
      rw [List.length_drop, toNat_flashSubsectorSize]
      omega
    have hindex : (i + 1).toNat + n = count.toNat := by
      rw [toNat_nextIndex (by omega)]
      omega
    have hnext : (sector + 1).toNat = sector.toNat + 1 := toNat_nextSector hsector
    have hlast : (sector + 1).toNat + n ≤ 2 ^ 12 := by omega
    unfold writeSectors
    rw [if_pos hlt]
    refine ends_writeSector hmode hready (toNat_sectorAddr hsector) hsector htake fun d1 h1 => ?_
    have hrest := ih (Nat.le_of_succ_le_succ hfuel) hindex hdrop hlast (h1.kept.agrees hmode)
      h1.idle.ready
    refine always_mono ?_ hrest
    rintro _ d2 ⟨hkept, hidle, hmem⟩
    refine ⟨h1.kept.trans hkept, fun _ => hidle (.inr h1.idle), ?_⟩
    -- the sectors follow each other
    have hparts := Blocks.combine_append (fun _ b => b) d.chip.mem (sector.toNat * 2 ^ 12)
      (buff.take flashSubsectorSize.toNat) (buff.drop flashSubsectorSize.toNat)
    rw [List.take_append_drop, htake] at hparts
    rw [hmem, h1.mem, hnext, Nat.add_mul, Nat.one_mul]
    exact hparts.symm

/-- `w25qxx_write` -/
theorem ends_w25qxxWrite (hmode : d.mode = d.pqspi.interfaceMode) (hready : Ready d)
    {buff : List UInt8} {sector count : UInt32} (hpos : 1 ≤ count.toNat)
    (hcount : count.toNat ≤ 128) (hend : sector.toNat + count.toNat ≤ 2 ^ 12)
    (hlen : buff.length = count.toNat * 2 ^ 12) {fuel : Nat} (hfuel : count.toNat ≤ fuel) :
    Ends InBudget (w25qxxWrite fuel buff sector count) (fun res d' => res = .ok ∧
      Leaves (store d.chip.mem (sector.toNat * 2 ^ 12) buff) d d') d := by
  have hstart : (0 : UInt8).toNat + count.toNat = count.toNat := Nat.zero_add _
  refine always_seq (ends_writeSectors hcount count.toNat hfuel hstart hlen hend hmode hready) ?_
  rintro _ d' ⟨hkept, hidle, hmem⟩
  exact ⟨rfl, hkept, hidle (.inl hpos), hmem⟩

/-! ### Reading -/

/-- The loop of `w25qxx_read` over `n` sectors. By induction on the sectors. A read leaves the chip
as it is, so each of them finds the same array. -/
theorem ends_readSectors (n : Nat) {buff : List UInt8} {sector : UInt32}
    (hend : sector.toNat + n ≤ 2 ^ 12) (hmode : d.mode = d.pqspi.interfaceMode)
    (hidle : d.chip.Idle) :
    Ends InBudget (readSectors n buff sector) (fun data d' =>
      data = slice d.chip.mem (sector.toNat * 2 ^ 12) (n * 2 ^ 12) ∧ Still d d') d := by
  induction n generalizing d buff sector with
  | zero => exact ⟨by rw [Nat.zero_mul]; rfl, Still.refl d⟩
  | succ n ih =>
    have hsector : sector.toNat < 2 ^ 12 := by omega
    have haddr := toNat_sectorAddr hsector
    have hnext : (sector + 1).toNat = sector.toNat + 1 := toNat_nextSector hsector
    have hlast : (sector + 1).toNat + n ≤ 2 ^ 12 := by omega
    unfold readSectors
    refine always_seq (ends_bspRead hmode hidle ?_) ?_
    · rw [haddr, toNat_flashSubsectorSize]
      omega
    rintro _ d1 ⟨rfl, hstill⟩
    obtain ⟨ccr, resetEnabled, rfl⟩ := hstill
    refine always_seq (ih hlast hmode hidle) ?_
    rintro _ d2 ⟨rfl, hstill⟩
    refine ⟨?_, Still.trans ⟨ccr, resetEnabled, rfl⟩ hstill⟩
    have hne : slice d.chip.mem (sector * flashSubsectorSize).toNat
        flashSubsectorSize.toNat ≠ [] := by
      rw [← List.length_pos_iff, Blocks.length_slice]
      decide
    rw [if_neg hne, haddr, hnext, toNat_flashSubsectorSize, Nat.add_mul, Nat.add_mul, Nat.one_mul,
      Nat.add_comm (n * 2 ^ 12), Blocks.slice_add]

/-- `w25qxx_read` -/
theorem ends_w25qxxRead (hmode : d.mode = d.pqspi.interfaceMode) (hidle : d.chip.Idle)
    {buff : List UInt8} {sector : UInt32} {count : Nat} (hend : sector.toNat + count ≤ 2 ^ 12) :
    Ends InBudget (w25qxxRead buff sector count) (fun r d' =>
      r = (.ok, slice d.chip.mem (sector.toNat * 2 ^ 12) (count * 2 ^ 12)) ∧ Still d d') d := by
  refine always_seq (ends_readSectors count hend hmode hidle) ?_
  rintro _ d' ⟨rfl, hstill⟩
  exact ⟨rfl, hstill⟩

/-! ### The round trip -/

/-- `w25qxx_write`, and `w25qxx_read` of the same sectors into a buffer that holds `old`. -/
def writeRead (fuel : Nat) (buff old : List UInt8) (sector count : UInt32) :
    Drv (DResult × DResult × List UInt8) := do
  let written ← w25qxxWrite fuel buff sector count
  let (status, data) ← w25qxxRead old sector count.toNat
  return (written, status, data)

/-- On a device without errors that ends its programs and erases within the polling times, the
read gives the buffer that was written, and the other sectors keep their content.

The device is `Ready` before the write: it is idle or ends what it is doing within the polling
time, and has no write enable latch left over from a call that was broken off. That is how a call
without errors leaves it; the write of this theorem leaves it idle, so that nothing is asked of the
device in front of the read. -/
theorem write_read (d : Device) (hmode : d.mode = d.pqspi.interfaceMode) (hready : Ready d)
    (buff old : List UInt8) (sector count : UInt32) (hpos : 1 ≤ count.toNat)
    (hcount : count.toNat ≤ 128) (hend : sector.toNat + count.toNat ≤ 4096)
    (hlen : buff.length = count.toNat * 4096) (fuel : Nat) (hfuel : count.toNat ≤ fuel)
    (ω : Nat → Answer) (hω : ∀ n, InBudget (ω n)) :
    let run := (writeRead fuel buff old sector count).runWith Device.handle ω d
    run.1 = (.ok, .ok, buff) ∧
      ∀ a, a / 4096 < sector.toNat ∨ sector.toNat + count.toNat ≤ a / 4096 →
        run.2.chip.mem a = d.chip.mem a := by
  have hrun : Ends InBudget (writeRead fuel buff old sector count) (fun r d' =>
      r = (.ok, .ok, buff) ∧ d'.chip.mem = store d.chip.mem (sector.toNat * 2 ^ 12) buff) d := by
    refine always_seq (ends_w25qxxWrite hmode hready hpos hcount hend hlen hfuel) ?_
    rintro _ d1 ⟨rfl, h1⟩
    refine always_seq (ends_w25qxxRead (h1.kept.agrees hmode) h1.idle hend) ?_
    rintro _ d2 ⟨rfl, hstill⟩
    have hback := Blocks.slice_store d.chip.mem (sector.toNat * 2 ^ 12) buff
    rw [hlen] at hback
    refine ⟨?_, hstill.quiet.mem.trans h1.mem⟩
    rw [h1.mem]
    exact congrArg (fun data => (DResult.ok, DResult.ok, data)) hback
  obtain ⟨hresult, hmem⟩ := Prog.always_runWith hrun hω
  refine ⟨hresult, fun a ha => ?_⟩
  rw [hmem]
  exact Blocks.combine_of_outside _ _ _ (by omega)

/-- The last sector of the flash, and one more that is left alone. -/
theorem write_read_last :
    let buff := List.replicate 4096 0x5A
    let run := (writeRead 256 buff [] 4095 1).runWith Device.handle (fun _ => {}) erasedDevice
    run.1 = (.ok, .ok, buff) ∧ run.2.chip.mem 0 = 0xFF := by
  have hready : Ready erasedDevice := ⟨fun _ => rfl, fun hbusy => absurd rfl hbusy⟩
  have hbudget : InBudget {} := { ok := rfl, program := Nat.zero_le 2, erase := Nat.zero_le 390 }
  obtain ⟨hresult, hother⟩ :=
    write_read erasedDevice rfl hready (List.replicate 4096 0x5A) [] 4095 1
    (by decide) (by decide) (by decide) List.length_replicate 256 (by decide) (fun _ => {})
    fun _ => hbudget
  exact ⟨hresult, hother 0 (.inl (by decide))⟩

end NucleoH743.Diskio
