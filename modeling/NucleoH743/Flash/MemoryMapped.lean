import NucleoH743.Flash.Device

/-!
# `Flash.MemoryMapped`: the access and interface modes of the driver

The functions of `drv_qspi_w25q128.c` that change `pqspi`: set-up, interface mode, and
memory-mapped access. They use HAL calls that the data functions do not.

The driver keeps in `pqspi` what it believes of the chip: whether it is initialized, how it is
accessed, and the interface mode. Each of these functions changes the chip and the variable, in two
steps with a HAL call between, and the result of some HAL calls is not looked at. So the two can
differ after a failure; the theorems on these functions say when they do not.
-/

set_option autoImplicit false

namespace NucleoH743.Flash

/-- What these functions call. -/
inductive QspiOp where
  | hal (o : HalOp)
  /-- `HAL_QSPI_Abort` -/
  | abort
  /-- `HAL_QSPI_DeInit` -/
  | deInit
  /-- `HAL_QSPI_MemoryMapped` -/
  | memoryMapped (c : QspiCommand)

/-- What the calls answer. -/
def QspiOp.Res : QspiOp → Type
  | hal o => o.Res
  | abort | deInit | memoryMapped _ => Bool

/-- A function that changes the access mode. -/
abbrev Qspi (α : Type) := Prog QspiOp QspiOp.Res α

/-- A driver function among them. -/
def Drv.qspi {α : Type} (p : Drv α) : Qspi α := p.interp fun o => Prog.call (QspiOp.hal o)

/-- `HAL_QSPI_Abort` -/
def halAbort : Qspi Bool := Prog.call QspiOp.abort

/-- `HAL_QSPI_DeInit` -/
def halDeInit : Qspi Bool := Prog.call QspiOp.deInit

/-- `HAL_QSPI_MemoryMapped` -/
def halMemoryMapped (c : QspiCommand) : Qspi Bool := Prog.call (QspiOp.memoryMapped c)

/-! ### The functions -/

/-- `W25Q128FV_EnableMemoryMappedMode` -/
def enableMemoryMappedMode (mode : Interface) : Qspi Status := do
  if ← halMemoryMapped
    { mode, instruction := fastReadCmd, address := some 0
      dummyCycles := if mode = .qpi then 2 else 8 }
  then return .ok
  else return .errorMemorymapped

/-- Assign `pqspi.IsInitialized`. -/
def setIsInitialized (access : Access) : Drv Unit := do
  let mode ← interfaceMode
  setPqspi access mode

/-- `BSP_QSPI_EnableMemoryMappedMode` -/
def bspQspiEnableMemoryMappedMode : Qspi BspStatus := do
  let mode ← interfaceMode.qspi
  if (← enableMemoryMappedMode mode) ≠ .ok then return .componentFailure
  else
    (setIsInitialized .mmp).qspi
    return .none

/-- "Dummy read for exit from Performance Enhance mode" -/
def dummyRead : Drv Status := do
  let (status, _) ← inMode fun mode => read mode 0 1
  return status

/-- `BSP_QSPI_DisableMemoryMappedMode` -/
def bspQspiDisableMemoryMappedMode : Qspi BspStatus := do
  if (← isInitialized.qspi) ≠ .mmp then return .mmpUnlockFailure
  else if ¬ (← halAbort) then return .periphFailure
  else if ¬ (← halInit.qspi) then return .periphFailure
  else if (← dummyRead.qspi) ≠ .ok then return .componentFailure
  else
    (setIsInitialized .indirect).qspi
    return .none

/-- The first part of `BSP_QSPI_DeInit`: leave memory-mapped access. -/
def leaveMemoryMapped : Qspi BspStatus := do
  if (← isInitialized.qspi) = .mmp then
    if (← bspQspiDisableMemoryMappedMode) ≠ .none then return .componentFailure
    else return .none
  else return .none

/-- `BSP_QSPI_DeInit` -/
def bspQspiDeInit : Qspi BspStatus := do
  let ret ← leaveMemoryMapped
  if ret = .none then
    (setPqspi .none .spi).qspi
    if ¬ (← halDeInit) then return .periphFailure
    else return .none
  else return ret

/-- The functions that change `pqspi`. -/
inductive QspiFn where
  | init
  | deInit
  | configFlash (mode : Interface)
  | enableMemoryMappedMode
  | disableMemoryMappedMode
  deriving DecidableEq, Repr

/-- The program of a function. -/
def QspiFn.body : QspiFn → Qspi BspStatus
  | init => bspQspiInit.qspi
  | deInit => bspQspiDeInit
  | configFlash mode => (bspQspiConfigFlash mode).qspi
  | enableMemoryMappedMode => bspQspiEnableMemoryMappedMode
  | disableMemoryMappedMode => bspQspiDisableMemoryMappedMode

/-! ### Calls on the device -/

namespace Device

/-- The operation `o` on the device. -/
def handleQspi (x : Answer) : (o : QspiOp) → Device → o.Res × Device
  | .hal o, d => d.handle x o
  | .abort, d => (x.ok, d)
  | .deInit, d => (x.ok, d)
  | .memoryMapped _, d => (x.ok, d)

/-- The device and the driver when the program starts, with the chip in any mode. -/
def boot (mode : Interface) (resetEnabled wel : Bool) (mem : Nat → UInt8) : Device where
  chip := { busyBy := none, wel, mem }
  mode := mode
  resetEnabled := resetEnabled
  pqspi := { isInitialized := .none, interfaceMode := .spi }

end Device

/-- A call, with the answer that each of its operations gets. -/
structure QspiEvent where
  fn : QspiFn
  answers : Nat → Answer := fun _ => {}

/-- The device after a call. A command that fails does not reach the chip. -/
def qspiStep (d : Device) (e : QspiEvent) : Device :=
  (e.fn.body.runWith Device.handleQspi (fun n => (e.answers n).lost) d).2

end NucleoH743.Flash
