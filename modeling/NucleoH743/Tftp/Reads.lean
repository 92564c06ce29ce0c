import NucleoH743.Lib.Prog
import NucleoH743.Tftp.Server

/-!
# `Tftp.Reads`: the memory that the TFTP callbacks touch

The reads of `tftputils.c` as programs over the bytes they load from the received payload and
store in `FileName`. No function gets the length of what it reads, so what a program touches
depends on the bytes it finds.

`Tftp.Utils` reads a message as a value and keeps the bytes behind it, so that a read past the end
has a result. Here each byte is loaded by an operation of its own, so that a theorem can say which
bytes are loaded.

The target of the file name has 30 bytes, and `strcpy` stores as many as the message has.
-/

set_option autoImplicit false

namespace NucleoH743.Tftp.Reads

/-- An access of a callback to the payload or to `FileName`. -/
inductive Access where
  /-- load `payload[i]` -/
  | load (i : Nat)
  /-- store a byte in `FileName[i]` -/
  | store (i : Nat) (b : UInt8)
  deriving DecidableEq, Repr

/-- What an access gives. -/
def Access.Res : Access → Type
  | load _ => UInt8
  | store _ _ => Unit

/-- A function that reads a message. -/
abbrev Reader (α : Type) := Prog Access Access.Res α

/-- Load a byte of the payload. -/
def load (i : Nat) : Reader UInt8 := Prog.call (Access.load i)

/-- Store a byte of `FileName`. -/
def store (i : Nat) (b : UInt8) : Reader Unit := Prog.call (Access.store i b)

/-- The size of `FileName` -/
def fileNameSize : Nat := 30

/-! ### `tftputils.c` -/

/-- `tftp_decode_op` -/
def tftpDecodeOp : Reader TftpOpcode := do
  let b ← load 1
  return TftpOpcode.ofByte b

/-- `tftp_extract_block` -/
def tftpExtractBlock : Reader Nat := do
  let hi ← load 2
  let lo ← load 3
  return hi.toNat * 256 + lo.toNat

/-- `strcpy(fname, buf + 2)` from the byte `i` on, which returns what it copied before the NUL.
The memory holds a NUL within `turns` bytes. -/
def strcpy : (turns i : Nat) → Reader (List UInt8)
  | 0, _ => return []
  | turns + 1, i => do
    let b ← load (2 + i)
    store i b
    if b = 0 then return []
    else
      let bs ← strcpy turns (i + 1)
      return b :: bs

/-- `tftp_extract_filename` -/
def tftpExtractFilename (turns : Nat) : Reader (List UInt8) := strcpy turns 0

/-- `tftp_is_correct_ack` -/
def tftpIsCorrectAck (block : Nat) : Reader Bool := do
  let op ← tftpDecodeOp
  if op ≠ .ack then return false
  else
    let b ← tftpExtractBlock
    return block = b

/-! ### The callbacks -/

/-- The loads of `f_write`: the payload from byte `i` on. -/
def loadFrom (i : Nat) : Nat → Reader (List UInt8)
  | 0 => return []
  | n + 1 => do
    let b ← load i
    let bs ← loadFrom (i + 1) n
    return b :: bs

/-- What `rrq_recv_callback` reads of a datagram. -/
def rrqRecvCallback (args : Args) : Reader Bool := tftpIsCorrectAck args.block

/-- `tftp_extract_block(pkt_buf->payload) == (args->block + 1)` -/
def isNextBlock (args : Args) : Reader Bool := do
  let block ← tftpExtractBlock
  return block = args.block + 1

/-- The first test of `wrq_recv_callback`: the datagram has data, and it is the expected
block. -/
def takesData (args : Args) (len : Nat) : Reader Bool :=
  if tftpDataPktHdrLen < len then isNextBlock args else return false

/-- What `wrq_recv_callback` reads of a datagram: the data it writes, if any, and whether the
block is the expected one. -/
def wrqRecvCallback (args : Args) (len totLen : Nat) : Reader (Option (List UInt8) × Bool) :=
  if len ≠ totLen then return (none, false)
  else do
    let hit ← takesData args len
    if hit then
      let data ← loadFrom tftpDataPktHdrLen (len - tftpDataPktHdrLen)
      return (some data, true)
    else
      let next ← isNextBlock args
      return (none, next)

/-- What `process_tftp_request` reads of a datagram: the opcode, and the file name if it gets
that far. -/
def processTftpRequest (o : Outcome) (turns : Nat) : Reader (TftpOpcode × Option (List UInt8)) := do
  let op ← tftpDecodeOp
  if !o.udpNew then return (op, none)
  else if !o.udpBind then return (op, none)
  else
    match op with
    | .rrq | .wrq =>
      let name ← tftpExtractFilename turns
      return (op, some name)
    | _ => return (op, none)

/-! ### The accesses to a datagram -/

/-- What the memory of a datagram gives. -/
def answer (p : Pbuf) : (a : Access) → a.Res
  | .load i => p.byte i
  | .store _ _ => ()

/-- The payload and the memory behind it, which ends in a NUL. -/
def memory (p : Pbuf) : List UInt8 := p.payload ++ p.beyond

/-- The access stays inside the payload, or inside `FileName`. -/
def InBounds (p : Pbuf) : Access → Prop
  | .load i => i < p.len
  | .store i _ => i < fileNameSize

instance (p : Pbuf) : DecidablePred (InBounds p) := fun a =>
  match a with
  | .load i => inferInstanceAs (Decidable (i < p.len))
  | .store i _ => inferInstanceAs (Decidable (i < fileNameSize))

/-- Every access that the server makes for the datagram stays in bounds. -/
def StepInBounds (w : World) : Event → Prop
  | .request o d =>
    (processTftpRequest o ((memory d.p).length + 1)).Uses (answer d.p) (InBounds d.p)
  | .datagram upcb _ d =>
    match w.pcbs upcb with
    | some (some (.rrqRecvCallback args)) =>
      (rrqRecvCallback args).Uses (answer d.p) (InBounds d.p)
    | some (some (.wrqRecvCallback args)) =>
      (wrqRecvCallback args d.p.len d.p.totLen).Uses (answer d.p) (InBounds d.p)
    | _ => True

end NucleoH743.Tftp.Reads
