import NucleoH743.FatFs.Volume
import NucleoH743.Lib.Run
import NucleoH743.Tftp.Utils

/-!
# `Tftp.Server`: the TFTP server

The functions of `tftpserver.c` on a `World`: the volume, the two global file objects
`file_SD` and `file_CR`, the UDP control blocks with their receive callbacks, and the trace of
what the server hands to the network and the allocators.

A session is a control block whose callback carries the `tftp_connection_args` of the session.
The code frees the arguments and the control block together, so the model keeps the arguments
in the callback. After `wrqRecvCallback` has cleaned up, the source still works on the freed
`args` and `upcb`; the model carries on with the old contents, and the trace shows the second
release.

A datagram that finds no buffer for its answer behaves like one whose answer the network
loses, since every caller of `tftpSendMessage` ignores its result.

A datagram for port 69 starts a session, with a control block and arguments of its own; the
datagrams of the session go to that control block. The files are another matter: all sessions that
read use `file_SD`, and all that write use `file_CR`. A session that starts opens its file in an
object that another may be using.

`step` delivers one datagram, for any control block and in any order, with the `Outcome` of the
calls that it makes. The trace lists what the server sends and releases, so that the properties of a
session are properties of the trace.
-/

set_option autoImplicit false

namespace NucleoH743.Tftp

open NucleoH743.FatFs
open CStr (textBytes)

/-- The global file objects of the server. -/
inductive FileVar where
  /-- `file_SD`, read by RRQ sessions -/
  | fileSD
  /-- `file_CR`, written by WRQ sessions -/
  | fileCR
  deriving DecidableEq, Repr

/-- `tftp_connection_args`. The field `last_time` is never used. -/
structure Args where
  op : TftpOpcode
  /-- the first `data_len` bytes of `data` -/
  data : List UInt8 := []
  toIp : UInt32
  toPort : UInt16
  block : Nat
  totBytes : Nat := 0
  deriving DecidableEq, Repr

/-- `args->data_len` -/
def Args.dataLen (args : Args) : Nat := args.data.length

/-- A receive callback with its argument. -/
inductive RecvFn where
  | rrqRecvCallback (args : Args)
  | wrqRecvCallback (args : Args)
  deriving DecidableEq, Repr

/-- What the server hands to the network and to the allocators. -/
inductive Effect where
  /-- `udp_sendto` -/
  | sendto (upcb : Nat) (toIp : UInt32) (toPort : UInt16) (msg : List UInt8)
  /-- `mem_free` of the arguments of the session on `upcb` -/
  | memFree (upcb : Nat)
  /-- `udp_disconnect` and `udp_remove` -/
  | udpRemove (upcb : Nat)
  /-- `pbuf_free` of the received datagram -/
  | pbufFree
  deriving DecidableEq, Repr

/-- The state of the TFTP server. -/
structure World where
  vol : Volume
  file : FileVar → Fil
  /-- the allocated UDP control blocks, each with its receive callback if it has one -/
  pcbs : Nat → Option (Option RecvFn)
  /-- the handle of the next control block -/
  nextPcb : Nat
  /-- oldest effect first -/
  trace : List Effect

/-- What the calls outside the server answer while it handles one datagram. -/
structure Outcome where
  /-- `udp_new` finds a control block -/
  udpNew : Bool := true
  /-- `udp_bind` succeeds -/
  udpBind : Bool := true
  /-- `mem_malloc` finds memory for the session -/
  memMalloc : Bool := true
  /-- the root directory has room for a new entry -/
  slot : Bool := true
  /-- the number of bytes that the disk still has clusters for -/
  room : Nat := 0
  deriving DecidableEq, Repr

namespace World

/-- Add an effect to the trace. -/
def emit (w : World) (e : Effect) : World := { w with trace := w.trace ++ [e] }

/-- Assign a global file object. -/
def setFile (w : World) (f : FileVar) (fp : Fil) : World :=
  { w with file := Function.update w.file f fp }

/-- `udp_recv(upcb, recv, args)`. -/
def udpRecv (w : World) (upcb : Nat) (recv : RecvFn) : World :=
  { w with pcbs := Function.update w.pcbs upcb (some (some recv)) }

/-- Store the arguments of a session that still owns its control block. -/
def storeArgs (w : World) (upcb : Nat) (recv : RecvFn) : World :=
  if (w.pcbs upcb).isSome then w.udpRecv upcb recv else w

end World

/-! ### Sending -/

section Send
variable (w : World) (upcb : Nat) (toIp : UInt32) (toPort : UInt16)

/-- `tftp_send_message` -/
def tftpSendMessage (msg : List UInt8) : World := w.emit (.sendto upcb toIp toPort msg)

/-- `tftp_send_error_message` -/
def tftpSendErrorMessage (err : TftpErrorcode) : World :=
  tftpSendMessage w upcb toIp toPort (tftpErrorPacket err)

/-- `tftp_send_data_packet` -/
def tftpSendDataPacket (block : Nat) (buf : List UInt8) : World :=
  tftpSendMessage w upcb toIp toPort (tftpDataPacket block buf)

/-- `tftp_send_ack_packet` -/
def tftpSendAckPacket (block : Nat) : World :=
  tftpSendMessage w upcb toIp toPort (tftpAckPacket block)

/-- `tftp_send_next_block`: read the next 512 bytes of `file_SD` and send them under the
current block number. -/
def tftpSendNextBlock (args : Args) : World × Args :=
  let (_, buf, fp) := fRead w.vol (w.file .fileSD) tftpDataLenMax
  let args := { args with data := buf }
  (tftpSendDataPacket (w.setFile .fileSD fp) upcb toIp toPort args.block args.data, args)

end Send

/-! ### Cleanup -/

/-- The two cleanup functions differ in the file object they close. `args` says whether the
session has its arguments; `mem_free` of a null pointer does nothing. -/
def tftpCleanup (f : FileVar) (w : World) (upcb : Nat) (args : Bool) : World :=
  let (_, fp, vol) := fClose w.vol (w.file f)
  let w := { w.setFile f fp with vol := fMount vol none }
  let w := if args then w.emit (.memFree upcb) else w
  let w := w.emit (.udpRemove upcb)
  { w with pcbs := Function.update w.pcbs upcb none }

/-- `tftp_cleanup_rd` -/
def tftpCleanupRd (w : World) (upcb : Nat) (args : Bool) : World :=
  tftpCleanup .fileSD w upcb args

/-- `tftp_cleanup_wr` -/
def tftpCleanupWr (w : World) (upcb : Nat) (args : Bool) : World :=
  tftpCleanup .fileCR w upcb args

/-! ### Session callbacks -/

section Callbacks
variable (w : World) (args : Args) (upcb : Nat) (p : Pbuf) (addr : UInt32) (port : UInt16)

/-- `rrq_recv_callback` -/
def rrqRecvCallback : World :=
  let args := if tftpIsCorrectAck p args.block then { args with block := args.block + 1 }
    else args
  if args.dataLen < tftpDataLenMax then
    (tftpCleanupRd w upcb true).emit .pbufFree
  else
    let (w, args) := tftpSendNextBlock w upcb addr port args
    (w.storeArgs upcb (.rrqRecvCallback args)).emit .pbufFree

/-- The part of `wrq_recv_callback` before the acknowledgement: write the payload of the
expected block, or only count a block without payload. -/
def wrqAccept (o : Outcome) : World × Args :=
  if tftpDataPktHdrLen < p.len ∧ tftpExtractBlock p = args.block + 1 then
    let (_, n, fp) := fWrite w.vol (w.file .fileCR) (p.payload.drop tftpDataPktHdrLen) o.room
    let w := w.setFile .fileCR fp
    let w := if n = 0 then
        tftpCleanupWr (tftpSendErrorMessage w upcb addr port .fileNotFound) upcb true
      else w
    (w, { args with
          block := args.block + 1
          totBytes := args.totBytes + (p.len - tftpDataPktHdrLen) })
  else if tftpExtractBlock p = args.block + 1 then (w, { args with block := args.block + 1 })
  else (w, args)

/-- `wrq_recv_callback` -/
def wrqRecvCallback (o : Outcome) : World :=
  -- the early return does not free the pbuf
  if p.len ≠ p.totLen then w
  else
    let (w, args) := wrqAccept w args upcb p addr port o
    let w := tftpSendAckPacket w upcb addr port args.block
    if p.len < tftpDataPktLenMax then (tftpCleanupWr w upcb true).emit .pbufFree
    else (w.storeArgs upcb (.wrqRecvCallback args)).emit .pbufFree

end Callbacks

/-! ### Requests -/

section Requests
variable (o : Outcome) (w : World)

/-- `tftp_process_read` -/
def tftpProcessRead (upcb : Nat) (toIp : UInt32) (toPort : UInt16) (name : List UInt8) : World :=
  let (res, fp, vol) := fOpen w.vol (w.file .fileSD) name { faRead := true } o.slot
  let w := { w.setFile .fileSD fp with vol }
  if res ≠ .ok then
    tftpCleanupRd (tftpSendErrorMessage w upcb toIp toPort .fileNotFound) upcb false
  else if !o.memMalloc then
    tftpCleanupRd (tftpSendErrorMessage w upcb toIp toPort .notDefined) upcb false
  else
    let args : Args := { op := .rrq, toIp, toPort, block := 1 }
    let w := w.udpRecv upcb (.rrqRecvCallback args)
    let (w, args) := tftpSendNextBlock w upcb toIp toPort args
    w.storeArgs upcb (.rrqRecvCallback args)

/-- `tftp_process_write` -/
def tftpProcessWrite (upcb : Nat) (toIp : UInt32) (toPort : UInt16) (name : List UInt8) : World :=
  let (res, fp, vol) := fOpen w.vol (w.file .fileCR) name
    { faCreateAlways := true, faWrite := true } o.slot
  let w := { w.setFile .fileCR fp with vol }
  if res ≠ .ok then
    tftpCleanupWr (tftpSendErrorMessage w upcb toIp toPort .notDefined) upcb false
  else if !o.memMalloc then
    tftpCleanupWr (tftpSendErrorMessage w upcb toIp toPort .notDefined) upcb false
  else
    let args : Args := { op := .wrq, toIp, toPort, block := 0 }
    let w := w.udpRecv upcb (.wrqRecvCallback args)
    tftpSendAckPacket w upcb toIp toPort args.block

/-- The path name of the root directory. -/
def rootPath : Path := textBytes "/"

/-- `process_tftp_request`. The early returns leave the control block allocated. -/
def processTftpRequest (p : Pbuf) (addr : UInt32) (port : UInt16) : World :=
  let op := tftpDecodeOp p
  if !o.udpNew then w
  else
    let upcb := w.nextPcb
    let w := { w with
      pcbs := Function.update w.pcbs upcb (some none)
      nextPcb := w.nextPcb + 1 }
    if !o.udpBind then w
    else
      match op with
      | .rrq =>
        let vol := fMount w.vol (some .filesystem)
        let (res, _, vol) := fOpendir vol rootPath
        let w := { w with vol }
        if res ≠ .ok then w
        else tftpProcessRead o w upcb addr port (tftpExtractFilename p)
      | .wrq =>
        let vol := fMount w.vol (some .filesystem)
        let (res, _, vol) := fOpendir vol rootPath
        let w := { w with vol }
        if res ≠ .ok then w
        else tftpProcessWrite o w upcb addr port (tftpExtractFilename p)
      | _ =>
        let w := tftpSendErrorMessage w upcb addr port .accessViolation
        let w := w.emit (.udpRemove upcb)
        { w with pcbs := Function.update w.pcbs upcb none }

/-- `recv_callback_tftp`, the callback of port 69. -/
def recvCallbackTftp (p : Pbuf) (addr : UInt32) (port : UInt16) : World :=
  (processTftpRequest o w p addr port).emit .pbufFree

end Requests

/-! ### Events -/

/-- A received datagram and its sender. -/
structure Datagram where
  p : Pbuf
  addr : UInt32 := 0
  port : UInt16 := 0
  deriving DecidableEq, Repr

/-- A datagram that the stack delivers to the server. -/
inductive Event where
  /-- to port 69 -/
  | request (o : Outcome) (d : Datagram)
  /-- to the port of the control block `upcb` -/
  | datagram (upcb : Nat) (o : Outcome) (d : Datagram)
  deriving DecidableEq, Repr

/-- The server handles one datagram. The stack drops a datagram for a control block that is
not allocated or has no callback. -/
def step (w : World) : Event → World
  | .request o d => recvCallbackTftp o w d.p d.addr d.port
  | .datagram upcb o d =>
    match w.pcbs upcb with
    | some (some (.rrqRecvCallback args)) => rrqRecvCallback w args upcb d.p d.addr d.port
    | some (some (.wrqRecvCallback args)) => wrqRecvCallback w args upcb d.p d.addr d.port o
    | _ => w

/-- What happens to the server: a datagram, or another service that works on the volume and
leaves it as `vol`. -/
inductive SharedEvent where
  | server (ev : Event)
  | disk (vol : Volume)

/-- The server among the other services that use the volume. -/
def sharedStep (w : World) : SharedEvent → World
  | .server ev => step w ev
  | .disk vol => { w with vol }

/-- The server after `tftpd_init`, on a volume of any state. -/
def World.init (vol : Volume) : World :=
  { vol, file := fun _ => .null, pcbs := fun _ => none, nextPcb := 0, trace := [] }

end NucleoH743.Tftp
