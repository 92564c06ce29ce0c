import NucleoH743.Flash.Chip

/-!
# `FatFs.Diskio`: the disk layer under FatFs

The functions of `w25qxx_diskio.c` and of the glue layer `diskio.c`, and the tasks that reach
them: calls of FatFs, and the driver calls that the flash task makes directly.

A FatFs call is any program over the disk functions; what FatFs computes in between is not part
of the model. Which disk function a task is in is recorded by the marks `enter` and `leave`,
which stand for no code.

`w25qxx_status` returns 0 whatever has happened, and `w25qxx_initialize` configures the chip and
compares its id. `disk_initialize` of the glue layer calls it once: it sets `disk.is_initialized`
before the call, and returns 0 without a call from then on. The functions that read and write turn a
sector number into an address by a multiplication that wraps at 32 bits, and ignore what the driver
returns.

The loop of `w25qxx_write` counts its sectors in a byte, so it takes a bound on its rounds.
-/

set_option autoImplicit false

namespace NucleoH743.Diskio

open NucleoH743.Flash Coop

/-- `DRESULT`, and the status codes of the driver. -/
inductive DResult where
  | ok | error | parerr
  deriving DecidableEq, Repr

/-- `FLASH_SUBSECTOR_SIZE` -/
def flashSubsectorSize : UInt32 := 4096

/-! ### `w25qxx_diskio.c` -/

/-- `w25qxx_initialize`. `idCode` is what the array for the id holds before it is read. -/
def w25qxxInitialize (idCode : Nat → UInt8) : Drv DResult := do
  let _ ← bspQspiInit
  let _ ← bspQspiConfigFlash .qpi
  let (_, id) ← bspQspiReadId
  let id := id.getD idCode
  if id 0 = 0xEF ∧ id 1 = 0x40 ∧ id 2 = 0x18 then return .ok else return .error

/-- `w25qxx_status` -/
def w25qxxStatus : DResult := .ok

/-- The loop of `w25qxx_read` over `count` sectors. A read that fails leaves its part of the
buffer as it was. -/
def readSectors : Nat → List UInt8 → UInt32 → Drv (List UInt8)
  | 0, _, _ => return []
  | count + 1, buff, sector => do
    let (_, data) ← bspQspiRead (sector * flashSubsectorSize) flashSubsectorSize.toNat
    let rest ← readSectors count (buff.drop flashSubsectorSize.toNat) (sector + 1)
    return (if data = [] then buff.take flashSubsectorSize.toNat else data) ++ rest

/-- `w25qxx_read`, with the buffer afterwards. -/
def w25qxxRead (buff : List UInt8) (sector : UInt32) (count : Nat) :
    Drv (DResult × List UInt8) := do
  let buff ← readSectors count buff sector
  return (.ok, buff)

/-- The loop of `w25qxx_write`, for at most `fuel` sectors. Its counter is a byte. -/
def writeSectors (count : UInt32) : Nat → UInt8 → List UInt8 → UInt32 → Drv Unit
  | 0, _, _, _ => return ()
  | fuel + 1, i, buff, sector => do
    if i.toUInt32 < count then
      let _ ← bspQspiEraseBlock (sector * flashSubsectorSize) .erase4K
      let _ ← bspQspiWrite (buff.take flashSubsectorSize.toNat) (sector * flashSubsectorSize)
      writeSectors count fuel (i + 1) (buff.drop flashSubsectorSize.toNat) (sector + 1)
    else return ()

/-- `w25qxx_write`. The loop ends within 256 rounds where `count` fits a byte. -/
def w25qxxWrite (fuel : Nat) (buff : List UInt8) (sector count : UInt32) : Drv DResult := do
  writeSectors count fuel 0 buff sector
  return .ok

/-- Store 16 bits in the low half of a 32-bit variable. -/
def storeLow (buff value : UInt32) : UInt32 := buff &&& 0xFFFF0000 ||| value

/-- `w25qxx_ioctl` on the variable `buff`. -/
def w25qxxIoctl (cmd : UInt8) (buff : UInt32) : DResult × UInt32 :=
  if cmd = 0 then (.ok, buff)
  else if cmd = 1 then (.ok, storeLow buff 4096)
  else if cmd = 2 then (.ok, storeLow buff flashSubsectorSize)
  else if cmd = 3 then (.ok, storeLow buff 1)
  else (.parerr, buff)

/-! ### `diskio.c` -/

/-- What FatFs calls. -/
inductive DiskOp where
  | init
  | status
  | read (buff : List UInt8) (sector : UInt32) (count : Nat)
  | write (buff : List UInt8) (sector count : UInt32)
  | ioctl (cmd : UInt8) (buff : UInt32)

/-- What the disk functions return. -/
def DiskOp.Res : DiskOp → Type
  | init | status | write _ _ _ => DResult
  | read _ _ _ => DResult × List UInt8
  | ioctl _ _ => DResult × UInt32

/-- The disk functions; `init` is `disk_initialize`. -/
inductive DiskFn where
  | init | status | read | write | ioctl
  deriving DecidableEq, Repr

/-- The function that FatFs calls. -/
def DiskOp.fn : DiskOp → DiskFn
  | init => .init
  | status => .status
  | read _ _ _ => .read
  | write _ _ _ => .write
  | ioctl _ _ => .ioctl

/-- What a task does below FatFs: HAL calls, and accesses to `disk.is_initialized`. -/
inductive TaskOp where
  | hal (o : HalOp)
  | loadIsInitialized
  | storeIsInitialized (b : Bool)
  /-- mark: the task enters a disk function -/
  | enter (fn : DiskFn)
  /-- mark: it leaves the function -/
  | leave

/-- What these answer. -/
def TaskOp.Res : TaskOp → Type
  | hal o => o.Res
  | loadIsInitialized => Bool
  | storeIsInitialized _ | enter _ | leave => Unit

/-- What a task runs. -/
abbrev TaskProg (α : Type) := Prog TaskOp TaskOp.Res α

/-- A driver function in a task. -/
def liftDrv {α : Type} (p : Drv α) : TaskProg α := p.interp fun o => Prog.call (TaskOp.hal o)

section Disk
variable (fuel : Nat) (idCode : Nat → UInt8)

/-- `disk_initialize` -/
def diskInitialize : TaskProg DResult := do
  let isInitialized : Bool ← Prog.call TaskOp.loadIsInitialized
  if isInitialized then return .ok
  else
    let _ : Unit ← Prog.call (TaskOp.storeIsInitialized true)
    liftDrv (w25qxxInitialize idCode)

/-- The disk functions; the others hand their arguments on. -/
def diskFn : (d : DiskOp) → TaskProg d.Res
  | .init => diskInitialize idCode
  | .status => (return w25qxxStatus : TaskProg DResult)
  | .read buff sector count => liftDrv (w25qxxRead buff sector count)
  | .write buff sector count => liftDrv (w25qxxWrite fuel buff sector count)
  | .ioctl cmd buff => (return w25qxxIoctl cmd buff : TaskProg (DResult × UInt32))

/-- A disk function between its marks. -/
def markedDiskFn (d : DiskOp) : TaskProg d.Res := do
  let _ : Unit ← Prog.call (TaskOp.enter d.fn)
  let r ← diskFn fuel idCode d
  let _ : Unit ← Prog.call TaskOp.leave
  return r

end Disk

/-! ### Tasks -/

/-- What a task calls: a function of FatFs, or the flash driver. -/
inductive TaskCall where
  | fatFs (p : Prog DiskOp DiskOp.Res Unit)
  | flash (c : FlashCall)

/-- It is a function of FatFs. -/
def TaskCall.isFatFs : TaskCall → Bool
  | .fatFs _ => true
  | .flash _ => false

/-- The flash, the variable of the glue layer, and where the tasks are. -/
structure DiskWorld (T : Type) where
  flash : World
  isInitialized : Bool
  /-- the tasks that are inside a FatFs call -/
  inFatFs : T → Bool
  /-- the disk function that a task is in -/
  inDisk : T → Option DiskFn

variable {T : Type} [DecidableEq T]

/-- The operation `o` of the task `t`. -/
def taskHandle (i : Caller T) (x : Outcome) (w : DiskWorld T) : (o : TaskOp) → o.Res × DiskWorld T
  | .hal o =>
    ((halHandle i.call x w.flash o).1, { w with flash := (halHandle i.call x w.flash o).2 })
  | .loadIsInitialized => (w.isInitialized, w)
  | .storeIsInitialized b => ((), { w with isInitialized := b })
  | .enter fn => ((), { w with inDisk := Function.update w.inDisk i.task (some fn) })
  | .leave => ((), { w with inDisk := Function.update w.inDisk i.task none })

/-- The program of a task's call. -/
def TaskCall.body (fuel : Nat) (idCode : Nat → UInt8) : TaskCall → TaskProg Unit
  | .fatFs p => p.interp (markedDiskFn fuel idCode)
  | .flash c => do
    let _ ← liftDrv c.body
    return ()

/-- Tasks that call FatFs and the flash driver, with a switch at each `vTaskDelay`. -/
def diskSched (T : Type) [DecidableEq T] (fuel : Nat) (idCode : Nat → UInt8) :
    Sched T TaskOp TaskOp.Res TaskCall Unit (DiskWorld T) Outcome Unit where
  body := TaskCall.body fuel idCode
  start i c w := { w with inFatFs := Function.update w.inFatFs i.task c.isFatFs }
  handle i x o w := taskHandle i x w o
  yields
    | .hal (.delay _) => true
    | _ => false
  finish i _ w := { w with inFatFs := Function.update w.inFatFs i.task false }
  env _ w := { w with flash := { w.flash with chip := w.flash.chip.done } }

end NucleoH743.Diskio
