import NucleoH743.Eth.Ethernetif
import NucleoH743.Lib.Run

/-!
# `Eth.InputTask`: the task that takes the frames

The loops of `ethernetif_input`. The task waits in `ulTaskNotifyTake`, which clears the count of
its notifications, and then calls `low_level_input` until that returns no pbuf. A frame that the
DMA stores gives a notification from `HAL_ETH_RxCpltCallback`; one that finds no descriptor is
lost in the MAC.

The notification is a count that is cleared when the task takes it, so any number of frames since
then wakes the task once. The task relies on its inner loop to take all of them: a frame that is
left in the ring is found when the next one wakes the task, and not before.

The inner loop ends at the first call of `low_level_input` that returns no pbuf. That is so with an
empty ring, and also with an empty pool, where the frame has been taken off the ring already. The
two look alike to the task.
-/

set_option autoImplicit false

namespace NucleoH743.Eth

/-- Where the task is. -/
inductive InputPc where
  /-- in `ulTaskNotifyTake` -/
  | take
  /-- before `low_level_input` -/
  | input
  deriving DecidableEq, Repr

/-- The interface, and the task with its notification count. -/
structure InputTask where
  eth : EthIf
  pc : InputPc
  notified : Nat

/-- What happens. -/
inductive InputEvent where
  /-- a frame comes in -/
  | frame (f : Frame)
  /-- `ulTaskNotifyTake` looks at the count -/
  | take
  /-- one turn of the inner loop; `ok` says whether `netif->input` takes the pbuf -/
  | input (ok : Bool)
  /-- the stack frees the pbuf at place `i` of those it holds -/
  | free (i : Nat)

namespace InputTask

/-- The task when it starts. -/
def init : InputTask := ⟨EthIf.init, .take, 0⟩

/-- A frame that is stored raises the interrupt. -/
def frame (s : InputTask) (f : Frame) : InputTask :=
  { s with
    eth := s.eth.receive f
    notified := if (s.eth.rxDesc s.eth.dmaDesc).own then s.notified + 1 else s.notified }

/-- `ulTaskNotifyTake(pdTRUE, TIME_WAITING_FOR_INPUT)`. A call that times out is made again. -/
def take (s : InputTask) : InputTask :=
  if s.notified = 0 then s else { s with pc := .input, notified := 0 }

/-- The body of the inner loop and its test. -/
def input (s : InputTask) (ok : Bool) : InputTask :=
  match s.eth.lowLevelInput with
  | (none, eth) => { s with eth, pc := .take }
  | (some _, eth) =>
    -- `pbuf_free` of the pbuf that was just made
    { s with eth := if ok then eth else eth.pbufFreeCustom (eth.pbufs.length - 1) }

/-- One step. The task makes a step where it is. -/
def step (s : InputTask) : InputEvent → InputTask
  | .frame f => s.frame f
  | .take => if s.pc = .take then s.take else s
  | .input ok => if s.pc = .input then s.input ok else s
  | .free i => { s with eth := s.eth.pbufFreeCustom i }

end InputTask

end NucleoH743.Eth
