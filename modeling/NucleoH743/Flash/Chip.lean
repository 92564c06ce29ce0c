import Mathlib.Algebra.Group.Nat.Defs
import NucleoH743.Flash.Driver
import NucleoH743.Lib.Coop

/-!
# `Flash.Chip`: the flash chip, and tasks that share it

What the driver relies on, not code of the repository: the chip answers status reads always,
and ignores every other command while it is busy with a program or an erase. A program or an
erase needs the write enable latch. It changes the array when it is accepted, and the chip
stays busy until the environment ends it.

The controller keeps the command that `HAL_QSPI_Command` has set up until its data phase. A
command without data goes out at once. A HAL call can fail before or after the command has
reached the chip.

`flashSched` runs the driver calls of any number of cooperative tasks on one chip. Chip and
controller use the same lines throughout, so the interface mode of a command plays no part
here.

Two things decide what a driver call finds: the commands of other tasks that reach the chip between
its own, and what the hardware does with each of its HAL calls. The first come from the schedule of
`flashSched`, the second from the `Outcome` that comes with each step. Both are arbitrary, so a
theorem about all runs covers every order of the tasks and every failure of the HAL.

`World` also records what has happened: the commands that have reached the chip, each with what the
chip was busy with then, and the reads that have returned, each with what the array held.
-/

set_option autoImplicit false

namespace NucleoH743.Flash

open Coop (Caller Sched)

/-- The chip. The other bits of its status register 1 are zero. -/
structure Chip where
  /-- the call that has started the program or erase in progress -/
  busyBy : Option Nat
  /-- the write enable latch -/
  wel : Bool
  /-- the array, by 24-bit address -/
  mem : Nat → UInt8

namespace Chip

/-- Status register 1. -/
def sr1 (chip : Chip) : UInt8 :=
  (if chip.busyBy.isSome then 1 else 0) ||| (if chip.wel then 2 else 0)

/-- The bytes of the array from `addr` on. -/
def array (chip : Chip) (addr : UInt32) (j : Nat) : UInt8 := chip.mem ((addr.toNat + j) % 2 ^ 24)

/-- Erase the aligned block of `size` bytes around `addr`. -/
def eraseBlock (chip : Chip) (call size : Nat) (addr : UInt32) : Chip :=
  if chip.wel then
    { chip with
      busyBy := some call
      mem := fun a => if a / size = addr.toNat % 2 ^ 24 / size then 0xFF else chip.mem a }
  else chip

/-- Program bytes: the address wraps within its page, and bits go from one to zero only. -/
def program (chip : Chip) (call : Nat) (addr : UInt32) (data : List UInt8) : Chip :=
  if chip.wel then
    { chip with
      busyBy := some call
      mem := data.zipIdx.foldl (fun mem b =>
        let a := addr.toNat % 2 ^ 24 / 256 * 256 + (addr.toNat + b.2) % 256
        Function.update mem a (mem a &&& b.1)) chip.mem }
  else chip

/-- The chip takes a command of the call `call`, with the data that goes out with it. -/
def accept (chip : Chip) (call : Nat) (c : QspiCommand) (data : List UInt8) : Chip :=
  if chip.busyBy.isSome then chip
  else
    let addr := c.address.getD 0
    if c.instruction = writeEnableCmd then { chip with wel := true }
    else if c.instruction = pageProgCmd then chip.program call addr data
    else if c.instruction = subsectorEraseCmd4K then chip.eraseBlock call (2 ^ 12) addr
    else if c.instruction = subsectorEraseCmd32K then chip.eraseBlock call (2 ^ 15) addr
    else if c.instruction = subsectorEraseCmd64K then chip.eraseBlock call (2 ^ 16) addr
    else if c.instruction = chipEraseCmd then chip.eraseBlock call (2 ^ 24) 0
    else chip

/-- The bytes that come in with a command; `noise` is what the lines show where the chip does
not answer. -/
def answer (chip : Chip) (c : QspiCommand) (noise : Nat → UInt8) : Nat → UInt8 :=
  if c.instruction = readStatusReg1Cmd then fun _ => chip.sr1
  else if chip.busyBy.isSome then noise
  else if c.instruction = fastReadCmd then chip.array (c.address.getD 0)
  else noise

/-- The program or erase in progress ends. -/
def done (chip : Chip) : Chip :=
  if chip.busyBy.isSome then { chip with busyBy := none, wel := false } else chip

end Chip

/-- A command that has reached the chip. -/
structure Sent where
  call : Nat
  instruction : UInt8
  /-- what the chip was busy with -/
  busyBy : Option Nat
  deriving DecidableEq, Repr

/-- A `BSP_QSPI_Read` that has returned. -/
structure ReadRecord where
  status : BspStatus
  data : List UInt8
  /-- what the array held -/
  stored : List UInt8
  deriving DecidableEq, Repr

/-- The chip, the controller, the variable of the driver, and what has happened. -/
structure World where
  chip : Chip
  /-- the command that waits for its data phase -/
  ccr : Option QspiCommand
  pqspi : Pqspi
  sent : List Sent
  reads : List ReadRecord

/-- What the hardware does with one HAL call. -/
structure Outcome where
  /-- the HAL reports success, if the call can succeed at all -/
  ok : Bool := true
  /-- the command reaches the chip although the HAL reports a failure -/
  reaches : Bool := false
  noise : Nat → UInt8 := fun _ => 0xFF

namespace World

/-- A command reaches the chip. -/
def send (w : World) (call : Nat) (c : QspiCommand) (data : List UInt8) : World :=
  { w with
    chip := w.chip.accept call c data
    sent := w.sent ++ [⟨call, c.instruction, w.chip.busyBy⟩] }

/-- The data phase of the command that waits for it. -/
def transfer (w : World) (call : Nat) (x : Outcome) (data : List UInt8) :
    Option (Nat → UInt8) × World :=
  match w.ccr with
  | none => (none, w)
  | some c =>
    let w := { w with ccr := none }
    if x.ok then (some (w.chip.answer c x.noise), w.send call c data)
    else if x.reaches then (none, w.send call c data)
    else (none, w)

end World

/-- The HAL call `o` of the call `call`. -/
def halHandle (call : Nat) (x : Outcome) (w : World) : (o : HalOp) → o.Res × World
  | .command c =>
    match c.nbData with
    | none => (x.ok, if x.ok ∨ x.reaches then w.send call c [] else w)
    | some _ => (x.ok, if x.ok then { w with ccr := some c } else w)
  | .receive => w.transfer call x []
  | .fastReceive => w.transfer call x []
  | .transmit data => ((w.transfer call x data).1.isSome, (w.transfer call x data).2)
  | .autoPolling c mask target =>
    (x.ok && w.chip.sr1 &&& mask = target, { w.send call c [] with ccr := none })
  | .delay _ => ((), w)
  | .init => (x.ok, w)
  | .loadPqspi => (w.pqspi, w)
  | .storePqspi p => ((), { w with pqspi := p })

/-- A driver call. -/
inductive FlashCall where
  | read (readAddr : UInt32) (size : Nat)
  | write (data : List UInt8) (writeAddr : UInt32)
  | eraseBlock (blockAddress : UInt32) (blockSize : Erase)
  | eraseChip

/-- What a driver call returns. -/
inductive FlashResult where
  | read (readAddr : UInt32) (size : Nat) (status : BspStatus) (data : List UInt8)
  | other (status : BspStatus)

/-- The program of a driver call. -/
def FlashCall.body : FlashCall → Drv FlashResult
  | .read readAddr size => do
    let (status, data) ← bspQspiRead readAddr size
    return .read readAddr size status data
  | .write data writeAddr => FlashResult.other <$> bspQspiWrite data writeAddr
  | .eraseBlock blockAddress blockSize =>
    FlashResult.other <$> bspQspiEraseBlock blockAddress blockSize
  | .eraseChip => FlashResult.other <$> bspQspiEraseChip

/-- Record what a `BSP_QSPI_Read` has returned. -/
def record (w : World) : FlashResult → World
  | .read readAddr size status data =>
    { w with reads := w.reads ++ [⟨status, data, (List.range size).map (w.chip.array readAddr)⟩] }
  | .other _ => w

/-- Tasks `T` that make driver calls, with a switch at each `vTaskDelay`. -/
def flashSched (T : Type) :
    Sched T HalOp HalOp.Res FlashCall FlashResult World Outcome Unit where
  body := FlashCall.body
  start _ _ w := w
  handle i x o w := halHandle i.call x w o
  yields
    | .delay _ => true
    | _ => false
  finish _ r w := record w r
  env _ w := { w with chip := w.chip.done }

end NucleoH743.Flash
