import NucleoH743.Uart.Debug

/-!
# `Uart.Receive`: from the UART to the terminal

`terminal_cntrl` takes the bytes out of the ring `buf_cmd` that `DBG_UART_IRQHandler` puts into
it. The handler interrupts the loop between any two of its steps; `CntrlPc` says where the loop
stands. The state also records the bytes that the handler received and those that
`terminal_data_processing` was called with.

The ring `buf_cmd` is filled by the interrupt and emptied by the task, without a test whether it is
full: the write index goes on over the bytes that the task has not taken yet, and when it has come
around to the read index the ring looks empty. The state keeps what has come in and what the
terminal has got, so that the two can be compared.
-/

set_option autoImplicit false

namespace NucleoH743.Uart

/-- Where `terminal_task` stands. -/
inductive CntrlPc
  /-- in `vTaskDelay` -/
  | delay
  /-- at the test of the loop -/
  | test
  /-- the test found a byte, which is read and processed next -/
  | process
  /-- at `index_rd_buf_cmd++` -/
  | increment
  /-- at the check for the end of the buffer -/
  | wrap
  deriving DecidableEq, Repr

/-- The driver and the task that reads from it. -/
structure Receiver where
  dbg : Dbg
  indexRdBufCmd : Nat
  pc : CntrlPc
  /-- the bytes that the handler took from `RDR`, oldest first -/
  received : List UInt8
  /-- the bytes given to `terminal_data_processing`, oldest first -/
  processed : List UInt8

/-- What the task does, or the driver under it. -/
inductive ReceiverEvent
  /-- the task makes its next step -/
  | task
  /-- a step of the driver: an interrupt, or a step of `_write` -/
  | driver (e : DbgEvent)
  deriving DecidableEq, Repr

namespace Receiver

/-- After `DBG_UART_Setup`. -/
def setup : Receiver where
  dbg := Dbg.setup
  indexRdBufCmd := 0
  pc := .delay
  received := []
  processed := []

/-- The byte that an interrupt receives. -/
def arrival (s : Receiver) : ReceiverEvent → Option UInt8
  | .driver (.irq rdr _) => if s.dbg.rxneie then rdr else none
  | .driver (.write _) | .driver .next | .task => none

/-- The next step of `terminal_task`, which calls `terminal_cntrl` after every delay. -/
def taskNext (s : Receiver) : Receiver :=
  match s.pc with
  | .delay => { s with pc := .test }
  | .test =>
    { s with pc := if s.dbg.indexWrBufCmd ≠ s.indexRdBufCmd then .process else .delay }
  | .process =>
    { s with processed := s.processed ++ [s.dbg.bufCmd s.indexRdBufCmd], pc := .increment }
  | .increment => { s with indexRdBufCmd := s.indexRdBufCmd + 1, pc := .wrap }
  | .wrap =>
    { s with
      indexRdBufCmd := if s.indexRdBufCmd ≥ dbgUartMaxSizeCmdBuff then 0 else s.indexRdBufCmd
      pc := .test }

/-- One step. -/
def step (s : Receiver) (e : ReceiverEvent) : Receiver :=
  match e with
  | .task => s.taskNext
  | .driver d =>
    { s with dbg := s.dbg.step d, received := s.received ++ (s.arrival e).toList }

end Receiver

end NucleoH743.Uart
