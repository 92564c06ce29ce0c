import NucleoH743.Lib.Prog

/-!
# `Flash.W25q128fv`: the flash component driver

The functions of `w25q128fv.c` as programs over the HAL: a command, its data phase, automatic
polling, and `vTaskDelay`. The variable `pqspi` of the driver above is shared by all tasks, so
its reads and writes are operations as well.

The fields of a command that are the same in all of them (address size, no alternate bytes, no
double rate) are left out.

A function of the component driver looks at the results of its HAL calls and returns early, or does
not look at them; the model has this branch by branch, as the difference decides what a caller
learns of a failure. The loop of `SoftPollingCheckLoMask` counts the milliseconds that it has waited
for in a variable that can overflow, so it takes a bound on its rounds.
-/

set_option autoImplicit false

namespace NucleoH743.Flash

/-- `W25Q128FV_Interface_t` -/
inductive Interface where
  | spi | qpi
  deriving DecidableEq, Repr

/-- `W25Q128FV_Erase_t` -/
inductive Erase where
  | erase4K | erase32K | erase64K | eraseChip
  deriving DecidableEq, Repr

/-- The status codes of the component. -/
inductive Status where
  | ok | errorInit | errorCommand | errorTransmit | errorReceive | errorAutopolling
  | errorMemorymapped
  deriving DecidableEq, Repr

/-- `QSPI_CommandTypeDef`. All phases of a command use the same lines. -/
structure QspiCommand where
  mode : Interface
  instruction : UInt8
  address : Option UInt32 := none
  /-- the bytes of the data phase; `none` is `QSPI_DATA_NONE` -/
  nbData : Option Nat := none
  dummyCycles : Nat := 0
  deriving DecidableEq, Repr

/-- `BSP_QSPI_Access_t` -/
inductive Access where
  | none | indirect | mmp
  deriving DecidableEq, Repr

/-- The fields of `pqspi` that the driver looks at. -/
structure Pqspi where
  isInitialized : Access
  interfaceMode : Interface
  deriving DecidableEq, Repr

/-- What the driver calls. -/
inductive HalOp where
  /-- `HAL_QSPI_Command` -/
  | command (c : QspiCommand)
  /-- `HAL_QSPI_Receive` -/
  | receive
  /-- `HAL_QSPI_FastReceive` -/
  | fastReceive
  /-- `HAL_QSPI_Transmit` -/
  | transmit (data : List UInt8)
  /-- `HAL_QSPI_AutoPolling` until the status masked with `mask` is `target` -/
  | autoPolling (c : QspiCommand) (mask target : UInt8)
  /-- `vTaskDelay` -/
  | delay (ms : UInt32)
  /-- `HAL_QSPI_Init` -/
  | init
  | loadPqspi
  | storePqspi (p : Pqspi)

/-- What the calls answer. A transfer that succeeds gives the received bytes. The other calls
tell whether the HAL reports `HAL_OK`. -/
def HalOp.Res : HalOp → Type
  | command _ | transmit _ | autoPolling _ _ _ | init => Bool
  | receive | fastReceive => Option (Nat → UInt8)
  | delay _ | storePqspi _ => Unit
  | loadPqspi => Pqspi

/-- A driver function. -/
abbrev Drv (α : Type) := Prog HalOp HalOp.Res α

/-! ### Calls of the HAL -/

/-- `HAL_QSPI_Command` -/
def halCommand (c : QspiCommand) : Drv Bool := Prog.call (HalOp.command c)

/-- `HAL_QSPI_Receive` -/
def halReceive : Drv (Option (Nat → UInt8)) := Prog.call HalOp.receive

/-- `HAL_QSPI_FastReceive` -/
def halFastReceive : Drv (Option (Nat → UInt8)) := Prog.call HalOp.fastReceive

/-- `HAL_QSPI_Transmit` -/
def halTransmit (data : List UInt8) : Drv Bool := Prog.call (HalOp.transmit data)

/-- `HAL_QSPI_AutoPolling` -/
def halAutoPolling (c : QspiCommand) (mask target : UInt8) : Drv Bool :=
  Prog.call (HalOp.autoPolling c mask target)

/-- `HAL_QSPI_Init` -/
def halInit : Drv Bool := Prog.call HalOp.init

/-- `W25Q128FV_delay_ms` -/
def delayMs (ms : UInt32) : Drv Unit := Prog.call (HalOp.delay ms)

/-! ### Constants -/

/-- `W25Q128FV_READ_STATUS_REG_1_CMD` -/
def readStatusReg1Cmd : UInt8 := 0x05
/-- `W25Q128FV_WRITE_ENABLE_CMD` -/
def writeEnableCmd : UInt8 := 0x06
/-- `W25Q128FV_PAGE_PROG_CMD` -/
def pageProgCmd : UInt8 := 0x02
/-- `W25Q128FV_FAST_READ_CMD` -/
def fastReadCmd : UInt8 := 0x0B
/-- `W25Q128FV_SUBSECTOR_ERASE_CMD_4K` -/
def subsectorEraseCmd4K : UInt8 := 0x20
/-- `W25Q128FV_SUBSECTOR_ERASE_CMD_32K` -/
def subsectorEraseCmd32K : UInt8 := 0x52
/-- `W25Q128FV_SUBSECTOR_ERASE_CMD_64K` -/
def subsectorEraseCmd64K : UInt8 := 0xD8
/-- `W25Q128FV_CHIP_ERASE_CMD` -/
def chipEraseCmd : UInt8 := 0xC7
/-- `W25Q128FV_RESET_ENABLE_CMD` -/
def resetEnableCmd : UInt8 := 0x66
/-- `W25Q128FV_RESET_MEMORY_CMD` -/
def resetMemoryCmd : UInt8 := 0x99
/-- `W25Q128FV_READ_ID_CMD` -/
def readIdCmd : UInt8 := 0x9F
/-- `W25Q128FV_ENTER_QUAD_CMD` -/
def enterQuadCmd : UInt8 := 0x38
/-- `W25Q128FV_EXIT_QUAD_CMD` -/
def exitQuadCmd : UInt8 := 0xFF

/-- `W25Q128FV_SR_BUSY` -/
def srBusy : UInt32 := 0x00000001
/-- `W25Q128FV_SR1_WEL` -/
def sr1Wel : UInt8 := 0x02

/-- `W25Q128FV_PAGE_SIZE` -/
def pageSize : UInt32 := 0x100

/-- `W25Q128FV_BUSY_CHECK_TIME` and `W25Q128FV_BUSY_TIMEOUT` -/
def busyTimes : UInt32 × UInt32 := (1, 5000)
/-- `W25Q128FV_PAGE_PROGRAM_CHECK_TIME` and `W25Q128FV_PAGE_PROGRAM_TIMEOUT` -/
def pageProgramTimes : UInt32 × UInt32 := (1, 3)
/-- `W25Q128FV_SECTOR_ERASE_CHECK_TIME` and `W25Q128FV_SECTOR_ERASE_TIMEOUT` -/
def sectorEraseTimes : UInt32 × UInt32 := (10, 400)
/-- `W25Q128FV_BLOCK_ERASE_CHECK_TIME` and `W25Q128FV_BLOCK_ERASE_TIMEOUT` -/
def blockEraseTimes : UInt32 × UInt32 := (50, 2000)
/-- `W25Q128FV_CHIP_ERASE_CHECK_TIME` and `W25Q128FV_CHIP_ERASE_TIMEOUT` -/
def chipEraseTimes : UInt32 × UInt32 := (1000, 200000)

/-! ### Functions -/

section Functions
variable (mode : Interface)

/-- The status read of `W25Q128FV_SoftPollingCheckLoMask`. -/
def statusCommand : QspiCommand :=
  { mode, instruction := readStatusReg1Cmd, nbData := some 3 }

/-- `temp_status_reg`: the operators in its expression are logical, so it is 0 or 1, and
`buf_read[2]` does not enter it. -/
def tempStatusReg (buf : Nat → UInt8) : UInt32 := if buf 0 ≠ 0 ∨ buf 1 ≠ 0 then 1 else 0

/-- The loop of `W25Q128FV_SoftPollingCheckLoMask`, for at most `fuel` rounds. The value is
`none` while it would go on. -/
def pollLoop (mask timeCheck timeOut : UInt32) : Nat → UInt32 → Drv (Option Status)
  | 0, _ => return none
  | fuel + 1, cntTime => do
    if cntTime < timeOut then
      if ← halCommand (statusCommand mode) then
        match ← halReceive with
        | none => return some .errorReceive
        | some buf =>
          if tempStatusReg buf &&& mask = 0 then return some .ok
          else
            delayMs timeCheck
            pollLoop mask timeCheck timeOut fuel (cntTime + timeCheck)
      else return some .errorCommand
    else return some .errorCommand

/-- `W25Q128FV_SoftPollingCheckLoMask`. The loop ends within `time_out + 1` rounds where
`time_check` is positive and `cnt_time` does not overflow. -/
def softPollingCheckLoMask (mask : UInt32) (times : UInt32 × UInt32) : Drv Status := do
  let status ← pollLoop mode mask times.1 times.2 (times.2.toNat + 1) 0
  return status.getD .errorCommand

/-- `W25Q128FV_WriteEnable` -/
def writeEnable : Drv Status := do
  if ← halCommand { mode, instruction := writeEnableCmd } then
    if ← halAutoPolling { mode, instruction := readStatusReg1Cmd, nbData := some 1 }
      sr1Wel sr1Wel then return .ok
    else return .errorAutopolling
  else return .errorCommand

/-- `W25Q128FV_PageProgram` -/
def pageProgram (data : List UInt8) (writeAddr : UInt32) : Drv Status := do
  if ← halCommand
    { mode, instruction := pageProgCmd, address := some writeAddr, nbData := some data.length }
  then
    if ← halTransmit data then return .ok else return .errorTransmit
  else return .errorCommand

/-- `W25Q128FV_Read`, with the bytes it stores in `pData`. -/
def read (readAddr : UInt32) (size : Nat) : Drv (Status × List UInt8) := do
  if ← halCommand
    { mode, instruction := fastReadCmd, address := some readAddr, nbData := some size
      dummyCycles := if mode = .qpi then 2 else 8 }
  then
    match ← halFastReceive with
    | none => return (.errorReceive, [])
    | some buf => return (.ok, (List.range size).map buf)
  else return (.errorCommand, [])

/-- `W25Q128FV_ChipErase` -/
def chipErase : Drv Status := do
  if ← halCommand { mode, instruction := chipEraseCmd } then
    softPollingCheckLoMask mode srBusy chipEraseTimes
  else return .errorCommand

/-- The instruction and the polling times for a block. -/
def Erase.block : Erase → UInt8 × UInt32 × UInt32
  | .erase32K => (subsectorEraseCmd32K, blockEraseTimes)
  | .erase64K => (subsectorEraseCmd64K, blockEraseTimes)
  | .erase4K | .eraseChip => (subsectorEraseCmd4K, sectorEraseTimes)

/-- `W25Q128FV_BlockErase`. The result of its `W25Q128FV_WriteEnable` is not looked at. -/
def blockErase (blockAddress : UInt32) (blockSize : Erase) : Drv Status :=
  if blockSize = .eraseChip then chipErase mode
  else do
    let _ ← writeEnable mode
    if ← halCommand { mode, instruction := blockSize.block.1, address := some blockAddress } then
      softPollingCheckLoMask mode srBusy blockSize.block.2
    else return .errorCommand

/-- A command without address and data. -/
def simpleCommand (instruction : UInt8) : Drv Status := do
  if ← halCommand { mode, instruction } then return .ok else return .errorCommand

/-- `W25Q128FV_ResetEnable` -/
def resetEnable : Drv Status := simpleCommand mode resetEnableCmd

/-- `W25Q128FV_ResetMemory` -/
def resetMemory : Drv Status := simpleCommand mode resetMemoryCmd

/-- `W25Q128FV_EnterQPIMode` -/
def enterQpiMode : Drv Status := simpleCommand .spi enterQuadCmd

/-- `W25Q128FV_ExitQPIMode` -/
def exitQpiMode : Drv Status := simpleCommand .qpi exitQuadCmd

/-- `W25Q128FV_ReadID`, with the three bytes of the id. -/
def readId : Drv (Status × Option (Nat → UInt8)) := do
  if ← halCommand { mode, instruction := readIdCmd, nbData := some 3 } then
    match ← halReceive with
    | none => return (.errorReceive, none)
    | some id => return (.ok, some id)
  else return (.errorCommand, none)

end Functions

end NucleoH743.Flash
