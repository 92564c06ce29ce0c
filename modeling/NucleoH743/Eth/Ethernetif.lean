import Mathlib.Logic.Function.Basic

/-!
# `Eth.Ethernetif`: receiving frames without copying them

`low_level_input` of `ethernetif.c` hands the buffer of a received frame to the stack in a pbuf
of `RX_POOL`, and the HAL gives the descriptor of the frame back to the DMA. A frame fits one
buffer, so it takes one descriptor: the HAL functions are written for that case, in which
`AppDescNbr` is 0 or 1. No descriptor is a context descriptor.

A descriptor belongs to the DMA or to the CPU. The DMA fills the buffer of a descriptor that it owns
and hands it over; `HAL_ETH_BuildRxDescriptors` gives the descriptor back. The buffer itself stays
where it is: a pbuf of the stack refers to it, and nothing copies the bytes.

The model keeps the pbufs that the stack has not freed yet, each with the buffer that it refers to,
so that it can be said who else works on this buffer. `RX_POOL` has a fixed number of entries, and
an allocation fails when all are in use.

The events are a frame that comes in, a call of `low_level_input`, and the end of a pbuf's use, in
any order.
-/

set_option autoImplicit false

namespace NucleoH743.Eth

abbrev ethRxDescCnt : Nat := 4
def ethRxBufferSize : Nat := 1536

/-- The number of entries of `RX_POOL`. -/
def rxPoolSize : Nat := 10

/-- A descriptor of `DMARxDscrTab`. -/
structure RxDesc where
  /-- `OWN`: the DMA may write to the buffer -/
  own : Bool
  /-- the packet length the DMA has written back -/
  pl : Nat
  /-- the buffer of `Rx_Buff` that `HAL_ETH_DescAssignMemory` has given it -/
  backupAddr0 : Fin ethRxDescCnt
  deriving DecidableEq, Repr

/-- A pbuf of `RX_POOL` that refers to a receive buffer. -/
structure PbufCustom where
  payload : Fin ethRxDescCnt
  len : Nat
  deriving DecidableEq, Repr

/-- A frame on the wire. -/
structure Frame where
  bytes : List UInt8
  fits : bytes.length ≤ ethRxBufferSize

/-- The descriptors and buffers, the receive list of `EthHandle`, and the pbufs in use. -/
structure EthIf where
  rxDesc : Fin ethRxDescCnt → RxDesc
  rxBuff : Fin ethRxDescCnt → List UInt8
  /-- the descriptor the DMA uses next -/
  dmaDesc : Fin ethRxDescCnt
  curRxDesc : Fin ethRxDescCnt
  firstAppDesc : Fin ethRxDescCnt
  appDescNbr : Nat
  /-- the entries of `RX_POOL` that the stack holds -/
  pbufs : List PbufCustom

/-- What happens to the interface. -/
inductive EthEvent
  /-- a frame comes in -/
  | frame (f : Frame)
  /-- the input task calls `low_level_input` -/
  | input
  /-- the stack frees the pbuf at place `i` of those it holds -/
  | free (i : Nat)

namespace EthIf

/-- After `low_level_init`: every descriptor has its buffer, and the DMA owns it. -/
def init : EthIf where
  rxDesc := fun idx => { own := true, pl := 0, backupAddr0 := idx }
  rxBuff := fun _ => []
  dmaDesc := 0
  curRxDesc := 0
  firstAppDesc := 0
  appDescNbr := 0
  pbufs := []

/-- The DMA fills the buffer of its next descriptor, if it owns it. -/
def receive (s : EthIf) (f : Frame) : EthIf :=
  let d := s.rxDesc s.dmaDesc
  if d.own then
    { s with
      rxDesc := Function.update s.rxDesc s.dmaDesc { d with own := false, pl := f.bytes.length }
      rxBuff := Function.update s.rxBuff d.backupAddr0 f.bytes
      dmaDesc := s.dmaDesc + 1 }
  else s

/-- `HAL_ETH_IsRxDataAvailable`. -/
def halEthIsRxDataAvailable (s : EthIf) : Bool × EthIf :=
  if s.appDescNbr ≠ 0 then (false, s)
  else if (s.rxDesc s.curRxDesc).own then (false, s)
  else (true, { s with
    curRxDesc := s.curRxDesc + 1, firstAppDesc := s.curRxDesc, appDescNbr := 1 })

/-- `INCR_RX_DESC_INDEX(inx, 1)`: the index of the next descriptor. -/
abbrev incrRxDescIndex (inx : Fin ethRxDescCnt) : Fin ethRxDescCnt := inx + 1

/-- `HAL_ETH_GetRxDataBuffer`: the buffer of the frame, `none` for `HAL_ERROR`. -/
def halEthGetRxDataBuffer (s : EthIf) : Option (Fin ethRxDescCnt) × EthIf :=
  if s.appDescNbr = 0 then
    match s.halEthIsRxDataAvailable with
    | (false, s) => (none, s)
    | (true, s) => (some (s.rxDesc s.firstAppDesc).backupAddr0, s)
  else (some (s.rxDesc s.firstAppDesc).backupAddr0, s)

/-- `HAL_ETH_GetRxDataLength`: the length of the frame, `none` for `HAL_ERROR`. The index of the
descriptor is read before the list is searched. -/
def halEthGetRxDataLength (s : EthIf) : Option Nat × EthIf :=
  let descidx := s.firstAppDesc
  if s.appDescNbr = 0 then
    match s.halEthIsRxDataAvailable with
    | (false, s) => (none, s)
    | (true, s) => (some (s.rxDesc descidx).pl, s)
  else (some (s.rxDesc descidx).pl, s)

/-- `HAL_ETH_BuildRxDescriptors`. -/
def halEthBuildRxDescriptors (s : EthIf) : EthIf :=
  if s.appDescNbr = 0 then s
  else
    { s with
      rxDesc := Function.update s.rxDesc s.firstAppDesc
        { s.rxDesc s.firstAppDesc with own := true }
      appDescNbr := 0 }

/-- `LWIP_MEMPOOL_ALLOC` and `pbuf_alloced_custom`. The buffer is as long as the frame, so the
second one does not fail. -/
def pbufAlloc (s : EthIf) (buffer : Fin ethRxDescCnt) (length : Nat) : Option PbufCustom × EthIf :=
  if s.pbufs.length < rxPoolSize then
    let p : PbufCustom := { payload := buffer, len := length }
    (some p, { s with pbufs := s.pbufs ++ [p] })
  else (none, s)

/-- `low_level_input`. -/
def lowLevelInput (s : EthIf) : Option PbufCustom × EthIf :=
  match s.halEthGetRxDataBuffer with
  | (none, s) => (none, s)
  | (some buffer, s) =>
    let (length, s) := s.halEthGetRxDataLength
    let s := s.halEthBuildRxDescriptors
    s.pbufAlloc buffer (length.getD 0)

/-- `pbuf_free_custom` of the pbuf at place `i`. -/
def pbufFreeCustom (s : EthIf) (i : Nat) : EthIf := { s with pbufs := s.pbufs.eraseIdx i }

/-- One step. -/
def step (s : EthIf) : EthEvent → EthIf
  | .frame f => s.receive f
  | .input => s.lowLevelInput.2
  | .free i => s.pbufFreeCustom i

end EthIf

end NucleoH743.Eth
