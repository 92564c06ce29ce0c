import Mathlib.Logic.Function.Basic

/-!
# `Uart.Debug`: the debug UART

`_write` of `printf_dbg.c` puts one byte into the ring `buf_dbg`, and `DBG_UART_IRQHandler` of
`uart_dbg.c` takes one out for each transmit interrupt. The handler interrupts `_write` between
any two of its steps; `WritePc` says where the call in progress stands. Equal indices mean an
empty ring, so the ring of 8000 bytes holds 7999 at most.

`CR3` never gets its FIFO threshold interrupts enabled, so only the enable bits of `CR1` are
state here. `UART_IT_TXE` and `UART_IT_TXFNF` are one bit.

One step of the model is one access of the code to a variable that the other side uses as well: the
test of the indices, the store of the byte, the step of the index, the setting of the interrupt
enable bit. What can come between two of them is the interrupt.

The registers are those that the interrupt depends on. A byte is sent when the UART has room and the
transmit interrupt is enabled, and the handler disables the interrupt when it finds the ring empty.
-/

set_option autoImplicit false

namespace NucleoH743.Uart

def dbgUartMaxSizeBuff : Nat := 8000
def dbgUartMaxSizeCmdBuff : Nat := 50

/-- Where the `_write` call in progress stands. -/
inductive WritePc
  | idle
  /-- the ring was empty at the test, the byte is not stored yet -/
  | emptyStore (data : UInt8)
  | emptyAdvance
  | emptyEnable
  /-- the ring was not empty at the test, the byte is not stored yet -/
  | moreStore (data : UInt8)
  | moreAdvance
  deriving DecidableEq, Repr

/-- The variables of the driver, the registers of the UART, and the bytes it has sent. -/
structure Dbg where
  bufDbg : Nat → UInt8
  indexWrBufMes : Nat
  indexRdBufMes : Nat
  bufCmd : Nat → UInt8
  indexWrBufCmd : Nat
  /-- `USART_CR1_TXEIE_TXFNFIE` -/
  txeie : Bool
  /-- `USART_CR1_RXNEIE_RXFNEIE` -/
  rxneie : Bool
  /-- the bytes written to `TDR`, oldest first -/
  tdr : List UInt8
  pc : WritePc

/-- What the program does, or the UART to it. -/
inductive DbgEvent
  /-- a `_write` call begins and makes its test -/
  | write (data : UInt8)
  /-- the `_write` call in progress makes its next step -/
  | next
  /-- the interrupt handler runs; `rdr` is the byte received, `txfnf` the transmit flag -/
  | irq (rdr : Option UInt8) (txfnf : Bool)
  deriving DecidableEq, Repr

namespace Dbg

/-- After `DBG_UART_Setup`. -/
def setup : Dbg where
  bufDbg := fun _ => 0
  indexWrBufMes := 0
  indexRdBufMes := 0
  bufCmd := fun _ => 0
  indexWrBufCmd := 0
  txeie := false
  rxneie := true
  tdr := []
  pc := .idle

/-- Nothing is left to send. -/
def RingEmpty (s : Dbg) : Prop := s.indexRdBufMes = s.indexWrBufMes

instance (s : Dbg) : Decidable s.RingEmpty :=
  inferInstanceAs (Decidable (s.indexRdBufMes = s.indexWrBufMes))

/-- `uart_irq_txe_en`. -/
def uartIrqTxeEn (s : Dbg) : Dbg := { s with txeie := true }

/-- Store the byte at the write index. -/
def store (s : Dbg) (data : UInt8) : Dbg :=
  { s with bufDbg := Function.update s.bufDbg s.indexWrBufMes data }

/-- Move the write index on. -/
def advance (s : Dbg) : Dbg :=
  if s.indexWrBufMes < dbgUartMaxSizeBuff - 1 then
    { s with indexWrBufMes := s.indexWrBufMes + 1 }
  else { s with indexWrBufMes := 0 }

/-- The test at the top of `_write`. -/
def writeTest (s : Dbg) (data : UInt8) : Dbg :=
  match s.pc with
  | .idle => { s with pc := if s.RingEmpty then .emptyStore data else .moreStore data }
  | _ => s

/-- The next step of the `_write` call in progress. -/
def writeNext (s : Dbg) : Dbg :=
  match s.pc with
  | .idle => s
  | .emptyStore data => { s.store data with pc := .emptyAdvance }
  | .emptyAdvance => { s.advance with pc := .emptyEnable }
  | .emptyEnable => { s.uartIrqTxeEn with pc := .idle }
  | .moreStore data => { s.store data with pc := .moreAdvance }
  | .moreAdvance => { s.advance with pc := .idle }

/-- The receive part of `DBG_UART_IRQHandler`. -/
def irqReceive (s : Dbg) (rdr : Option UInt8) : Dbg :=
  match rdr, s.rxneie with
  | some data, true =>
    { s with
      bufCmd := Function.update s.bufCmd s.indexWrBufCmd data
      indexWrBufCmd :=
        if s.indexWrBufCmd + 1 ≥ dbgUartMaxSizeCmdBuff then 0 else s.indexWrBufCmd + 1 }
  | _, _ => s

/-- The transmit part of `DBG_UART_IRQHandler`. -/
def irqTransmit (s : Dbg) (txfnf : Bool) : Dbg :=
  if txfnf ∧ s.txeie then
    if s.RingEmpty then { s with txeie := false }
    else
      { s with
        tdr := s.tdr ++ [s.bufDbg s.indexRdBufMes]
        indexRdBufMes :=
          if s.indexRdBufMes + 1 ≥ dbgUartMaxSizeBuff then 0 else s.indexRdBufMes + 1 }
  else s

/-- `DBG_UART_IRQHandler`. -/
def dbgUartIrqHandler (s : Dbg) (rdr : Option UInt8) (txfnf : Bool) : Dbg :=
  (s.irqReceive rdr).irqTransmit txfnf

/-- One step. A `_write` call does not begin while another is in progress. -/
def step (s : Dbg) : DbgEvent → Dbg
  | .write data => s.writeTest data
  | .next => s.writeNext
  | .irq rdr txfnf => s.dbgUartIrqHandler rdr txfnf

end Dbg

end NucleoH743.Uart
