import NucleoH743.Flash.Chip
import NucleoH743.Lib.Choice

/-!
# `Flash.Device`: the flash device under one caller

The chip of `Flash.Chip` with what matters to a single caller: the lines on which it takes
commands, the time that a program or erase takes, and the page programs it has been sent. A
command on other lines than the chip listens to does nothing, and its answer is noise.

The time passes in `vTaskDelay` only. What a HAL call meets is its `Answer`, a choice of the
environment.

`Flash.Chip` has the tasks, and no lines and no time; here is one caller, with both. Whether a
command is understood depends on the interface mode of the chip and on that of the command, and
whether the chip is still busy depends on the time that `vTaskDelay` has let pass. These are what
set-up, erase and write rest on.

An `Answer` says for one HAL call whether it succeeds, which noise the lines show, and how long a
program or erase that starts with it takes.
-/

set_option autoImplicit false

namespace NucleoH743.Flash

/-- What the hardware does with one HAL call. -/
structure Answer extends Outcome where
  /-- the bytes that have gone out when a transfer that fails reaches the chip -/
  cut : Nat := 0
  /-- how many milliseconds the program or erase takes that this instruction starts -/
  busyMs : UInt8 → Nat := fun _ => 0

/-- The answer of a HAL call that does not reach the chip when it fails. -/
def Answer.lost (x : Answer) : Answer := { x with reaches := false }

/-- The chip, the controller and the variable of the driver. -/
structure Device where
  chip : Chip
  /-- the milliseconds until the program or erase in progress ends -/
  busyMs : Nat := 0
  /-- the lines on which the chip takes commands -/
  mode : Interface
  /-- the last command was RESET ENABLE -/
  resetEnabled : Bool := false
  /-- the command that waits for its data phase -/
  ccr : Option QspiCommand := none
  pqspi : Pqspi
  /-- the address and the data of each PAGE PROGRAM, oldest first -/
  programs : List (UInt32 × List UInt8) := []

namespace Device

/-- Time passes. -/
def pass (d : Device) (ms : Nat) : Device :=
  { d with
    chip := if d.busyMs ≤ ms then d.chip.done else d.chip
    busyMs := d.busyMs - ms }

/-- What a command does to the interface. RESET needs RESET ENABLE right before it. -/
def interface (d : Device) (instruction : UInt8) : Device :=
  if instruction = resetEnableCmd then { d with resetEnabled := true }
  else if instruction = enterQuadCmd then { d with mode := .qpi, resetEnabled := false }
  else if instruction = exitQuadCmd then { d with mode := .spi, resetEnabled := false }
  else if instruction = resetMemoryCmd ∧ d.resetEnabled then
    { d with chip := { d.chip with wel := false }, mode := .spi, resetEnabled := false }
  else { d with resetEnabled := false }

/-- If the chip is busy now, it stays so for `ms` milliseconds. -/
def busyFor (d : Device) (ms : Nat) : Device :=
  if d.chip.busyBy = none then d else ({ d with busyMs := ms }).pass 0

/-- A command goes out, with its data. -/
def send (d : Device) (x : Answer) (c : QspiCommand) (data : List UInt8) : Device :=
  if c.mode = d.mode ∧ d.chip.busyBy = none then
    let d := d.interface c.instruction
    ({ d with chip := d.chip.accept 0 c data }).busyFor (x.busyMs c.instruction)
  else d

/-- The bytes that come in with a command. -/
def answer (d : Device) (c : QspiCommand) (noise : Nat → UInt8) : Nat → UInt8 :=
  if c.mode = d.mode then d.chip.answer c noise else noise

/-- The data phase of the command that waits for it. -/
def transfer (d : Device) (x : Answer) (data : List UInt8) : Option (Nat → UInt8) × Device :=
  match d.ccr with
  | none => (none, d)
  | some c =>
    let d := { d with ccr := none }
    if x.ok then (some (d.answer c x.noise), d.send x c data)
    else if x.reaches then (none, d.send x c (data.take x.cut))
    else (none, d)

/-- Note a PAGE PROGRAM whose data goes out. -/
def note (d : Device) (data : List UInt8) : Device :=
  match d.ccr with
  | none => d
  | some c =>
    if c.instruction = pageProgCmd then
      { d with programs := d.programs ++ [(c.address.getD 0, data)] }
    else d

/-- The HAL call `o`. -/
def handle (x : Answer) : (o : HalOp) → Device → o.Res × Device
  | .command c, d =>
    match c.nbData with
    | none => (x.ok, if x.ok ∨ x.reaches then d.send x c [] else d)
    | some _ => (x.ok, if x.ok then { d with ccr := some c } else d)
  | .receive, d => d.transfer x []
  | .fastReceive, d => d.transfer x []
  | .transmit data, d =>
    (((d.note data).transfer x data).1.isSome, ((d.note data).transfer x data).2)
  | .autoPolling c mask target, d =>
    (x.ok && d.answer c x.noise 0 &&& mask = target, { d.send x c [] with ccr := none })
  | .delay ms, d => ((), d.pass ms.toNat)
  | .init, d => (x.ok, d)
  | .loadPqspi, d => (d.pqspi, d)
  | .storePqspi p, d => ((), { d with pqspi := p })

end Device

end NucleoH743.Flash
