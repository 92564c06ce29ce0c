import NucleoH743.FatFs.Diskio

/-!
# `FatFs.SectorIo`: the sector loops over the flash driver

The loops of `w25qxx_read` and `w25qxx_write` as programs over the three driver functions that
they call. `readCalls_interp` and `writeCalls_interp` replace these functions by their own
programs, and give the loops of `FatFs.Diskio` over the HAL.

The loops are stated over `BspOp` so that their calls can be counted and compared with the sectors
of the range, and over the HAL so that the chip can answer. Both are one definition: the second is
the first with its three calls replaced, so what is proved of the calls is true of the loops that
run on the chip.
-/

set_option autoImplicit false

namespace NucleoH743.Diskio

open NucleoH743.Flash

/-- What the sector loops call. -/
inductive BspOp where
  /-- `BSP_QSPI_EraseBlock` -/
  | eraseBlock (blockAddress : UInt32) (blockSize : Erase)
  /-- `BSP_QSPI_Write` -/
  | write (data : List UInt8) (writeAddr : UInt32)
  /-- `BSP_QSPI_Read` -/
  | read (readAddr : UInt32) (size : Nat)
  deriving DecidableEq, Repr

/-- What these return. A read has the bytes that it stores as well. -/
def BspOp.Res : BspOp → Type
  | eraseBlock _ _ | write _ _ => BspStatus
  | read _ _ => BspStatus × List UInt8

/-- The functions themselves. -/
def BspOp.body : (o : BspOp) → Drv o.Res
  | eraseBlock blockAddress blockSize => bspQspiEraseBlock blockAddress blockSize
  | write data writeAddr => bspQspiWrite data writeAddr
  | read readAddr size => bspQspiRead readAddr size

/-- A function of the disk layer. -/
abbrev SectorIo (α : Type) := Prog BspOp BspOp.Res α

/-- The loop of `w25qxx_read`. -/
def readCalls : Nat → List UInt8 → UInt32 → SectorIo (List UInt8)
  | 0, _, _ => return []
  | count + 1, buff, sector => do
    let (_, data) ← (Prog.call
      (BspOp.read (sector * flashSubsectorSize) flashSubsectorSize.toNat) :
        SectorIo (BspStatus × List UInt8))
    let rest ← readCalls count (buff.drop flashSubsectorSize.toNat) (sector + 1)
    return (if data = [] then buff.take flashSubsectorSize.toNat else data) ++ rest

/-- `w25qxx_read`, with the buffer afterwards. -/
def w25qxxReadCalls (buff : List UInt8) (sector count : UInt32) :
    SectorIo (DResult × List UInt8) := do
  let buff ← readCalls count.toNat buff sector
  return (.ok, buff)

/-- The loop of `w25qxx_write` for at most `fuel` rounds. The value is `none` while it would go
on. -/
def writeCalls (count : UInt32) : Nat → UInt8 → List UInt8 → UInt32 → SectorIo (Option Unit)
  | 0, _, _, _ => return none
  | fuel + 1, i, buff, sector => do
    if i.toUInt32 < count then
      let _ : BspStatus ← Prog.call
        (BspOp.eraseBlock (sector * flashSubsectorSize) .erase4K)
      let _ : BspStatus ← Prog.call
        (BspOp.write (buff.take flashSubsectorSize.toNat) (sector * flashSubsectorSize))
      writeCalls count fuel (i + 1) (buff.drop flashSubsectorSize.toNat) (sector + 1)
    else return some ()

/-- `w25qxx_write`, for at most `fuel` rounds. -/
def w25qxxWriteCalls (fuel : Nat) (buff : List UInt8) (sector count : UInt32) :
    SectorIo (Option DResult) := do
  let ended ← writeCalls count fuel 0 buff sector
  return ended.map fun _ => .ok

/-! ### The loops over the HAL -/

/-- The loop of `w25qxx_read` with its driver calls opened is the loop over the HAL. By induction on
the count. -/
theorem readCalls_interp (count : Nat) (buff : List UInt8) (sector : UInt32) :
    (readCalls count buff sector).interp BspOp.body = readSectors count buff sector := by
  induction count generalizing buff sector with
  | zero => rfl
  | succ count ih =>
    rw [readCalls, readSectors]
    show (bspQspiRead _ _ >>= fun r => _) = _
    refine congrArg _ (funext fun r => ?_)
    show ((readCalls count _ _ >>= fun rest => Prog.ret (_ ++ rest)).interp _ : Drv _) = _
    rw [Prog.interp_bind, ih]
    rfl

/-- So is the loop of `w25qxx_write`, whose result says nothing. By induction on its rounds. -/
theorem writeCalls_interp (count : UInt32) (fuel : Nat) (i : UInt8) (buff : List UInt8)
    (sector : UInt32) :
    ((writeCalls count fuel i buff sector).interp BspOp.body >>= fun _ => Prog.ret ()) =
      writeSectors count fuel i buff sector := by
  induction fuel generalizing i buff sector with
  | zero => rfl
  | succ fuel ih =>
    rw [writeCalls, writeSectors]
    split
    · show (bspQspiEraseBlock _ _ >>= fun r => bspQspiWrite _ _ >>= fun r => _) >>= _ = _
      rw [Prog.bind_assoc]
      refine congrArg _ (funext fun _ => ?_)
      rw [Prog.bind_assoc]
      exact congrArg _ (funext fun _ => ih _ _ _)
    · rfl

/-- `w25qxx_read` over the HAL. -/
theorem w25qxxReadCalls_interp (buff : List UInt8) (sector count : UInt32) :
    (w25qxxReadCalls buff sector count).interp BspOp.body = w25qxxRead buff sector count.toNat := by
  rw [w25qxxReadCalls, Prog.interp_bind, readCalls_interp]
  rfl

/-- `w25qxx_write` over the HAL. -/
theorem w25qxxWriteCalls_interp (fuel : Nat) (buff : List UInt8) (sector count : UInt32) :
    ((w25qxxWriteCalls fuel buff sector count).interp BspOp.body >>= fun _ => Prog.ret .ok) =
      w25qxxWrite fuel buff sector count := by
  rw [w25qxxWriteCalls, Prog.interp_bind, w25qxxWrite, ← writeCalls_interp, Prog.bind_assoc,
    Prog.bind_assoc]
  rfl

end NucleoH743.Diskio
