import Mathlib.Algebra.GroupWithZero.Nat
import NucleoH743.Lib.LinkedList

/-!
# `Eth.Transmit`: sending a frame

`low_level_output` of `ethernetif.c`, and what it calls: `HAL_ETH_Transmit`, which fills the
descriptors with `ETH_Prepare_Tx_Descriptors` and waits until the DMA has released the last one.

`low_level_init` sets the attributes of `TxConfig` to `CSUM` and `CRCPAD`, so a frame takes no
context descriptor, and `ItMode` is 0. A pointer to an entry of `Txbuffer` or of the descriptor
table is its index. The DMA changes the descriptors while the driver waits: what a round of the
wait finds is an input, and so is the number of rounds for which the call is watched.

The HAL waits in a loop for the descriptor of the frame, and leaves it when the DMA has released the
descriptor, when the DMA reports a fatal bus error, or after a time that is measured in ticks.
`TxWait` says what each round reads of these, and a bound on the rounds makes the loop a function. A
wait that finds none of them has no result: this is the loop that does not end.

The handle `EthHandle` keeps what a later call sees: the descriptors, the current index, the state
`gState` and the error code. `EthOutput` has what the caller sees, which is less than what the HAL
has returned.
-/

set_option autoImplicit false

namespace NucleoH743.Eth

abbrev ethTxDescCnt : Nat := 4
def ethDmaTransmitTimeout : UInt32 := 20
def halMaxDelay : UInt32 := 0xFFFFFFFF

local instance ethTxDescCnt_neZero : NeZero ethTxDescCnt := ⟨by decide⟩

def errOk : Int := 0
def errIf : Int := -12

def halEthStateReady : UInt32 := 0x00000010
def halEthStateError : UInt32 := 0x000000E0

def halEthErrorParam : UInt32 := 0x00000001
def halEthErrorBusy : UInt32 := 0x00000002
def halEthErrorTimeout : UInt32 := 0x00000004
def halEthErrorDma : UInt32 := 0x00000008

def ethDmatxndescrfIoc : UInt32 := 0x80000000
def ethDmatxndescrfB2l : UInt32 := 0x3FFF0000
def ethDmatxndescrfB1l : UInt32 := 0x00003FFF
def ethDmatxndescrfOwn : UInt32 := 0x80000000
def ethDmatxndescrfCtxt : UInt32 := 0x40000000
def ethDmatxndescrfFd : UInt32 := 0x20000000
def ethDmatxndescrfLd : UInt32 := 0x10000000
def ethDmatxndescrfCpc : UInt32 := 0x0C000000
def ethDmatxndescrfCic : UInt32 := 0x00030000
def ethDmatxndescrfFl : UInt32 := 0x00007FFF
def ethDmacsrFbe : UInt32 := 0x00001000

/-- `MODIFY_REG`, which does not mask the bits it sets. -/
def modifyReg (reg clearmask setmask : UInt32) : UInt32 := reg &&& ~~~clearmask ||| setmask

/-- `CLEAR_BIT` -/
def clearBit (reg bit : UInt32) : UInt32 := reg &&& ~~~bit

inductive HalStatus where
  | ok
  | error
  deriving DecidableEq, Repr

/-! ### The chain and the buffer list -/

/-- A pbuf of a chain. -/
structure Pbuf where
  payload : UInt32
  len : UInt16
  deriving DecidableEq, Repr

/-- The pbufs of a frame. The head has their total in `tot_len`. -/
structure PbufChain where
  pbufs : List Pbuf
  nonempty : pbufs ≠ []
  totLen : UInt16
  total : (pbufs.map fun q => q.len.toNat).sum = totLen.toNat

/-- `ETH_BufferTypeDef` -/
structure EthBuffer where
  buffer : UInt32 := 0
  len : UInt32 := 0
  next : Option (Fin ethTxDescCnt) := none
  deriving DecidableEq, Repr

/-- `Txbuffer[ETH_TX_DESC_CNT]` -/
abbrev TxBuffer := Fin ethTxDescCnt → EthBuffer

/-- The index of `Txbuffer[i]`. -/
def txEntry (i : Nat) : Fin ethTxDescCnt := Fin.ofNat ethTxDescCnt i

/-- `Txbuffer` after `memset`. -/
def txBufferZero : TxBuffer := fun _ => {}

/-- The body of the `for` loop for a pbuf and entry `i`; `isLast` says that `q->next` is NULL. -/
def fillEntry (i : Nat) (q : Pbuf) (isLast : Bool) (tx : TxBuffer) : TxBuffer :=
  let cur := txEntry i
  let tx := Function.update tx cur { tx cur with buffer := q.payload, len := q.len.toUInt32 }
  let tx :=
    if 0 < i then
      let prev := txEntry (i - 1)
      Function.update tx prev { tx prev with next := some cur }
    else tx
  if isLast then Function.update tx cur { tx cur with next := none } else tx

/-- The `for` loop, `none` for its `return ERR_IF`. -/
def fillTxbuffer (i : Nat) (tx : TxBuffer) : List Pbuf → Option TxBuffer
  | [] => some tx
  | q :: rest =>
    if ethTxDescCnt ≤ i then none
    else fillTxbuffer (i + 1) (fillEntry i q rest.isEmpty tx) rest

/-- The entries of `Txbuffer` as the cells of a linked list. -/
def txCells (tx : TxBuffer) : LinkedList.Heap (Fin ethTxDescCnt) (UInt32 × UInt32) :=
  fun a => some ⟨(tx a).next, ((tx a).buffer, (tx a).len)⟩

/-- The buffers that the HAL comes by when it follows `next` from the first entry. -/
def txList (tx : TxBuffer) : List EthBuffer :=
  (LinkedList.walk (txCells tx) ethTxDescCnt (some 0)).map tx

/-! ### `stm32h7xx_hal_eth.c` -/

/-- `ETH_DMADescTypeDef` -/
structure TxDesc where
  desc0 : UInt32
  desc1 : UInt32
  desc2 : UInt32
  desc3 : UInt32
  deriving DecidableEq, Repr

/-- The DMA owns the descriptor. -/
def TxDesc.owned (d : TxDesc) : Prop := d.desc3 &&& ethDmatxndescrfOwn = ethDmatxndescrfOwn

instance (d : TxDesc) : Decidable d.owned := inferInstanceAs (Decidable (_ = _))

/-- The descriptors of `DMATxDscrTab`. -/
abbrev TxDescs := Fin ethTxDescCnt → TxDesc

/-- `ETH_TxPacketConfig` -/
structure EthTxPacketConfig where
  length : UInt32
  txBuffer : TxBuffer
  crcPadCtrl : UInt32
  checksumCtrl : UInt32

/-- `ETH_HandleTypeDef`. The tail pointer `DMACTDTPR` of its instance is the index of the
descriptor it points to. -/
structure EthHandle where
  gState : UInt32
  errorCode : UInt32
  dmaErrorCode : UInt32
  txDesc : TxDescs
  curTxDesc : Fin ethTxDescCnt
  dmactdtpr : Fin ethTxDescCnt

/-- `INCR_TX_DESC_INDEX(inx, 1)` -/
abbrev incrTxDescIndex (inx : Fin ethTxDescCnt) : Fin ethTxDescCnt := inx + 1

/-- A new `DESC3` of the descriptor `idx`. -/
def TxDescs.setDesc3 (t : TxDescs) (idx : Fin ethTxDescCnt) (f : UInt32 → UInt32) : TxDescs :=
  Function.update t idx { t idx with desc3 := f (t idx).desc3 }

/-- The buffers of a descriptor, one or two of them. -/
def TxDesc.setBuffers (d : TxDesc) (b1 : EthBuffer) (b2 : Option EthBuffer) : TxDesc :=
  let d := { d with desc0 := b1.buffer, desc2 := modifyReg d.desc2 ethDmatxndescrfB1l b1.len }
  match b2 with
  | some b2 =>
    { d with
      desc1 := b2.buffer
      desc2 := modifyReg d.desc2 ethDmatxndescrfB2l (b2.len <<< 16) }
  | none => { d with desc1 := 0, desc2 := modifyReg d.desc2 ethDmatxndescrfB2l 0 }

/-- The first descriptor of a frame. -/
def TxDesc.setFirst (d : TxDesc) (cfg : EthTxPacketConfig) (b1 : EthBuffer)
    (b2 : Option EthBuffer) : TxDesc :=
  let d := d.setBuffers b1 b2
  let desc3 := modifyReg d.desc3 ethDmatxndescrfFl cfg.length
  let desc3 := modifyReg desc3 ethDmatxndescrfCic cfg.checksumCtrl
  let desc3 := modifyReg desc3 ethDmatxndescrfCpc cfg.crcPadCtrl
  let desc3 := clearBit (desc3 ||| ethDmatxndescrfFd) ethDmatxndescrfCtxt
  { d with desc3 := desc3 ||| ethDmatxndescrfOwn }

/-- A later descriptor of a frame. -/
def TxDesc.setNext (d : TxDesc) (cfg : EthTxPacketConfig) (b1 : EthBuffer)
    (b2 : Option EthBuffer) : TxDesc :=
  let d := d.setBuffers b1 b2
  let desc3 := modifyReg d.desc3 ethDmatxndescrfFl cfg.length
  let desc3 := modifyReg desc3 ethDmatxndescrfCic cfg.checksumCtrl
  { d with desc3 := clearBit (desc3 ||| ethDmatxndescrfOwn) ethDmatxndescrfCtxt }

/-- The last descriptor of a frame, without an interrupt on completion. -/
def TxDesc.setLast (d : TxDesc) : TxDesc :=
  { d with
    desc2 := clearBit d.desc2 ethDmatxndescrfIoc
    desc3 := d.desc3 ||| ethDmatxndescrfLd }

/-- Clear the `OWN` bit of the `n` descriptors from `idx` on. -/
def clearPrevious (t : TxDescs) (idx : Fin ethTxDescCnt) : Nat → TxDescs
  | 0 => t
  | n + 1 =>
    clearPrevious (t.setDesc3 idx (clearBit · ethDmatxndescrfOwn)) (incrTxDescIndex idx) n

/-- The start of a round of the `while` loop: the descriptor loses its `LD` bit, and the next one
its `FD` bit. -/
def startRound (t : TxDescs) (descidx : Fin ethTxDescCnt) : TxDescs :=
  let t := t.setDesc3 descidx (clearBit · ethDmatxndescrfLd)
  t.setDesc3 (incrTxDescIndex descidx) (clearBit · ethDmatxndescrfFd)

/-- The `while` loop of `ETH_Prepare_Tx_Descriptors` and what follows it, for the buffers behind
those of the descriptor `descidx`. The result is the last descriptor, `none` for
`HAL_ETH_ERROR_BUSY`. -/
def prepareRest (cfg : EthTxPacketConfig) (firstdescidx : Fin ethTxDescCnt) :
    TxDescs → Fin ethTxDescCnt → Nat → List EthBuffer → Option (Fin ethTxDescCnt) × TxDescs
  | t, descidx, _, [] => (some descidx, Function.update t descidx (t descidx).setLast)
  | t, descidx, descnbr, [b1] =>
    let t := startRound t descidx
    let descidx := incrTxDescIndex descidx
    if (t descidx).owned then (none, clearPrevious t firstdescidx descnbr)
    else
      prepareRest cfg firstdescidx (Function.update t descidx ((t descidx).setNext cfg b1 none))
        descidx (descnbr + 1) []
  | t, descidx, descnbr, b1 :: b2 :: rest =>
    let t := startRound t descidx
    let descidx := incrTxDescIndex descidx
    if (t descidx).owned then (none, clearPrevious t firstdescidx descnbr)
    else
      prepareRest cfg firstdescidx
        (Function.update t descidx ((t descidx).setNext cfg b1 (some b2))) descidx
        (descnbr + 1) rest

/-- `ETH_Prepare_Tx_Descriptors`. The result is the last descriptor, `none` for
`HAL_ETH_ERROR_BUSY`. `TxBuffer` has at least one entry, the first. -/
def ethPrepareTxDescriptors (t : TxDescs) (curTxDesc : Fin ethTxDescCnt)
    (cfg : EthTxPacketConfig) : Option (Fin ethTxDescCnt) × TxDescs :=
  if (t curTxDesc).owned then (none, t)
  else
    match txList cfg.txBuffer with
    | [] => (none, t)
    | [b1] =>
      prepareRest cfg curTxDesc
        (Function.update t curTxDesc ((t curTxDesc).setFirst cfg b1 none)) curTxDesc 1 []
    | b1 :: b2 :: rest =>
      prepareRest cfg curTxDesc
        (Function.update t curTxDesc ((t curTxDesc).setFirst cfg b1 (some b2))) curTxDesc 1 rest

/-- What a round of the wait reads. -/
structure TxPoll where
  txDesc : TxDescs
  dmacsr : UInt32
  tick : UInt32

/-- The hardware during a call: the tick at which the wait starts, and what its rounds read. -/
structure TxWait where
  tickstart : UInt32
  poll : Nat → TxPoll

/-- The `while` loop of `HAL_ETH_Transmit` from round `n` on, for at most `fuel` rounds. The
result is `none` while it goes on. -/
def waitLoop (timeout : UInt32) (desc : Fin ethTxDescCnt) (w : TxWait) :
    Nat → Nat → EthHandle → Option (HalStatus × EthHandle)
  | 0, _, _ => none
  | fuel + 1, n, heth =>
    let poll := w.poll n
    let heth := { heth with txDesc := poll.txDesc }
    if (poll.txDesc desc).desc3 &&& ethDmatxndescrfOwn = 0 then some (.ok, heth)
    else if poll.dmacsr &&& ethDmacsrFbe ≠ 0 then
      some (.error, { heth with
        errorCode := heth.errorCode ||| halEthErrorDma
        dmaErrorCode := poll.dmacsr
        gState := halEthStateError })
    else if timeout ≠ halMaxDelay ∧ (poll.tick - w.tickstart > timeout ∨ timeout = 0) then
      some (.error, { heth with
        errorCode := heth.errorCode ||| halEthErrorTimeout
        gState := halEthStateError })
    else waitLoop timeout desc w fuel (n + 1) heth

/-- `HAL_ETH_Transmit`, with at most `fuel` rounds of its wait. -/
def halEthTransmit (heth : EthHandle) (pTxConfig : Option EthTxPacketConfig) (timeout : UInt32)
    (w : TxWait) (fuel : Nat) : Option (HalStatus × EthHandle) :=
  match pTxConfig with
  | none => some (.error, { heth with errorCode := heth.errorCode ||| halEthErrorParam })
  | some cfg =>
    if heth.gState = halEthStateReady then
      match ethPrepareTxDescriptors heth.txDesc heth.curTxDesc cfg with
      | (none, t) =>
        some (.error, { heth with txDesc := t, errorCode := heth.errorCode ||| halEthErrorBusy })
      | (some desc, t) =>
        let curTxDesc := incrTxDescIndex desc
        waitLoop timeout desc w fuel 0
          { heth with txDesc := t, curTxDesc := curTxDesc, dmactdtpr := curTxDesc }
    else some (.error, heth)

/-! ### `ethernetif.c` -/

/-- `EthHandle` and `TxConfig` -/
structure EthTx where
  ethHandle : EthHandle
  txConfig : EthTxPacketConfig

/-- What a call of `low_level_output` does: the configuration it passes to the MAC, what
`HAL_ETH_Transmit` returns, what the call returns, and the state behind it. -/
structure EthOutput where
  handed : Option EthTxPacketConfig
  halStatus : Option HalStatus
  errval : Option Int
  state : EthTx

/-- `low_level_output`. -/
def lowLevelOutput (s : EthTx) (p : PbufChain) (w : TxWait) (fuel : Nat) : EthOutput :=
  match fillTxbuffer 0 txBufferZero p.pbufs with
  | none => { handed := none, halStatus := none, errval := some errIf, state := s }
  | some txbuffer =>
    let txConfig := { s.txConfig with length := p.totLen.toUInt32, txBuffer := txbuffer }
    let s := { s with txConfig }
    match halEthTransmit s.ethHandle (some txConfig) ethDmaTransmitTimeout w fuel with
    | none => { handed := some txConfig, halStatus := none, errval := none, state := s }
    | some (status, heth) =>
      { handed := some txConfig
        halStatus := some status
        errval := some errOk
        state := { s with ethHandle := heth } }

end NucleoH743.Eth
