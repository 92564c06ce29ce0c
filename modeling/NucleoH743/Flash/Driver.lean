import NucleoH743.Flash.W25q128fv

/-!
# `Flash.Driver`: the board driver of the flash

The functions of `drv_qspi_w25q128.c` that the disk layer and the flash task call. Each call
of the component reads `pqspi.InterfaceMode` anew.

A driver call is a program over the HAL calls, and has no state of its own but what it reads of
`pqspi`. So one definition serves three readers: the tasks of `Flash.Chip`, which may be interrupted
in a delay, the one caller of `Flash.Device`, and the disk layer of `FatFs.Diskio`, which has these
calls in its loops.

The loop of `BSP_QSPI_Write` cuts the data at the page borders: the first page takes what is left of
its page, the others a whole page or the rest.
-/

set_option autoImplicit false

namespace NucleoH743.Flash

/-- The `BSP_ERROR_*` codes. -/
inductive BspStatus where
  | none | periphFailure | componentFailure | mmpLockFailure | mmpUnlockFailure
  deriving DecidableEq, Repr

/-- `pqspi.InterfaceMode` -/
def interfaceMode : Drv Interface := do
  let p : Pqspi ← Prog.call HalOp.loadPqspi
  return p.interfaceMode

/-- `pqspi.IsInitialized` -/
def isInitialized : Drv Access := do
  let p : Pqspi ← Prog.call HalOp.loadPqspi
  return p.isInitialized

/-- Assign both fields of `pqspi`. -/
def setPqspi (access : Access) (mode : Interface) : Drv Unit :=
  Prog.call (HalOp.storePqspi ⟨access, mode⟩)

/-- A call of the component in the current interface mode. -/
def inMode {α : Type} (f : Interface → Drv α) : Drv α := do
  let mode ← interfaceMode
  f mode

/-- "Check if Flash busy?" -/
def checkBusy : Drv Status := inMode fun mode => softPollingCheckLoMask mode srBusy busyTimes

/-- `BSP_QSPI_Read`, with the bytes it stores in `pData`. -/
def bspQspiRead (readAddr : UInt32) (size : Nat) : Drv (BspStatus × List UInt8) := do
  let (status, data) ← inMode fun mode => read mode readAddr size
  if status = .ok then return (.none, data) else return (.componentFailure, data)

/-- One round of the loop of `BSP_QSPI_Write`: a page program between two busy checks. -/
def writePage (data : List UInt8) (addr : UInt32) : Drv BspStatus := do
  if (← checkBusy) ≠ .ok then return .componentFailure
  else if (← inMode writeEnable) ≠ .ok then return .componentFailure
  else if (← inMode fun mode => pageProgram mode data addr) ≠ .ok then return .componentFailure
  else if (← inMode fun mode => softPollingCheckLoMask mode srBusy pageProgramTimes) ≠ .ok then
    return .componentFailure
  else return .none

/-- The loop of `BSP_QSPI_Write`, for at most `fuel` rounds. -/
def writeLoop (endAddr : UInt32) :
    Nat → List UInt8 → UInt32 → UInt32 → Drv BspStatus
  | 0, _, _, _ => return .none
  | fuel + 1, data, currentAddr, currentSize => do
    let status ← writePage (data.take currentSize.toNat) currentAddr
    if status = .none then
      let addr := currentAddr + currentSize
      let size := if addr + pageSize > endAddr then endAddr - addr else pageSize
      if addr < endAddr then writeLoop endAddr fuel (data.drop currentSize.toNat) addr size
      else return .none
    else return status

/-- `BSP_QSPI_Write`. A round that is not the last programs at least one byte, so the loop
ends within as many rounds as there are bytes, and one. -/
def bspQspiWrite (data : List UInt8) (writeAddr : UInt32) : Drv BspStatus :=
  let size := data.length.toUInt32
  let toPageEnd := pageSize - writeAddr % pageSize
  let currentSize := if toPageEnd > size then size else toPageEnd
  writeLoop (writeAddr + size) (data.length + 1) data writeAddr currentSize

/-- `BSP_QSPI_EraseBlock` -/
def bspQspiEraseBlock (blockAddress : UInt32) (blockSize : Erase) : Drv BspStatus := do
  if (← checkBusy) ≠ .ok then return .componentFailure
  else if (← inMode writeEnable) ≠ .ok then return .componentFailure
  else if (← inMode fun mode => blockErase mode blockAddress blockSize) ≠ .ok then
    return .componentFailure
  else return .none

/-- `BSP_QSPI_EraseChip` -/
def bspQspiEraseChip : Drv BspStatus := do
  if (← checkBusy) ≠ .ok then return .componentFailure
  else if (← inMode writeEnable) ≠ .ok then return .componentFailure
  else if (← inMode chipErase) ≠ .ok then return .componentFailure
  else return .none

/-- `QSPI_ResetMemory` -/
def qspiResetMemory : Drv BspStatus := do
  if (← resetEnable .qpi) ≠ .ok then return .componentFailure
  else if (← resetMemory .qpi) ≠ .ok then return .componentFailure
  else if (← checkBusy) ≠ .ok then return .componentFailure
  else if (← resetEnable .spi) ≠ .ok then return .componentFailure
  else if (← resetMemory .spi) ≠ .ok then return .componentFailure
  else
    setPqspi .indirect .spi
    return .none

/-- `BSP_QSPI_Init` -/
def bspQspiInit : Drv BspStatus := do
  if (← isInitialized) = .none then
    if ¬ (← halInit) then return .periphFailure
    else if (← qspiResetMemory) ≠ .none then return .componentFailure
    else if (← checkBusy) ≠ .ok then return .componentFailure
    else return .none
  else return .none

/-- The switch over `pqspi.InterfaceMode` in `BSP_QSPI_ConfigFlash`. -/
def switchMode (current mode : Interface) : Drv Status :=
  if current = mode then return .ok
  else if current = .qpi then exitQpiMode
  else enterQpiMode

/-- `BSP_QSPI_ConfigFlash` -/
def bspQspiConfigFlash (mode : Interface) : Drv BspStatus := do
  if (← isInitialized) = .mmp then return .mmpLockFailure
  else if ¬ (← halInit) then return .periphFailure
  else
    let current ← interfaceMode
    if (← switchMode current mode) ≠ .ok then return .componentFailure
    else
      setPqspi .indirect mode
      return .none

/-- `BSP_QSPI_ReadID`, with the bytes of the id if they were read. -/
def bspQspiReadId : Drv (BspStatus × Option (Nat → UInt8)) := do
  let (status, id) ← inMode readId
  if status = .ok then return (.none, id) else return (.componentFailure, id)

end NucleoH743.Flash
