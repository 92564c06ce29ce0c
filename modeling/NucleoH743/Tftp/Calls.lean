import NucleoH743.FatFs.Api
import NucleoH743.Tftp.Server

/-!
# `Tftp.Calls`: the FatFs calls of the TFTP server

The functions of `tftpserver.c` as programs of FatFs calls, without what they hand to the
network and the allocators. The file objects are the two global ones.

`Tftp.Server` computes the volume that a datagram leaves. Here are the calls with which it does so,
for the interleaving with the FTP server, which runs in another thread. `Proofs.Tftp.Calls` compares
the two where nothing comes in between.
-/

set_option autoImplicit false

namespace NucleoH743.Tftp.Calls

open NucleoH743.FatFs

/-- `tftp_cleanup_rd` and `tftp_cleanup_wr` -/
def tftpCleanup (f : FileVar) : Caller FileVar Unit := do
  let _ ← Caller.fClose f
  Caller.fMount none

/-- `tftp_send_next_block` -/
def tftpSendNextBlock : Caller FileVar Unit := do
  let _ ← Caller.fRead .fileSD tftpDataLenMax
  pure ()

/-- `rrq_recv_callback` -/
def rrqRecvCallback (args : Args) : Caller FileVar Unit :=
  if args.dataLen < tftpDataLenMax then tftpCleanup .fileSD else tftpSendNextBlock

section Wrq
variable (args : Args) (p : Pbuf) (o : Outcome)

/-- The write of `wrq_recv_callback`. -/
def wrqAccept : Caller FileVar Unit :=
  if tftpDataPktHdrLen < p.len ∧ tftpExtractBlock p = args.block + 1 then do
    let (_, n) ← Caller.fWrite .fileCR (p.payload.drop tftpDataPktHdrLen) o.room
    if n = 0 then tftpCleanup .fileCR else pure ()
  else pure ()

/-- `wrq_recv_callback` -/
def wrqRecvCallback : Caller FileVar Unit :=
  if p.len ≠ p.totLen then pure ()
  else do
    wrqAccept args p o
    if p.len < tftpDataPktLenMax then tftpCleanup .fileCR else pure ()

end Wrq

section Requests
variable (o : Outcome)

/-- `tftp_process_read` -/
def tftpProcessRead (name : List UInt8) : Caller FileVar Unit := do
  let res ← Caller.fOpen .fileSD name { faRead := true } o.slot
  if res ≠ .ok then tftpCleanup .fileSD
  else if !o.memMalloc then tftpCleanup .fileSD
  else tftpSendNextBlock

/-- `tftp_process_write` -/
def tftpProcessWrite (name : List UInt8) : Caller FileVar Unit := do
  let res ← Caller.fOpen .fileCR name { faCreateAlways := true, faWrite := true } o.slot
  if res ≠ .ok then tftpCleanup .fileCR
  else if !o.memMalloc then tftpCleanup .fileCR
  else pure ()

/-- `process_tftp_request` -/
def processTftpRequest (p : Pbuf) : Caller FileVar Unit :=
  if !o.udpNew then pure ()
  else if !o.udpBind then pure ()
  else
    match tftpDecodeOp p with
    | .rrq => do
      Caller.fMount (some .filesystem)
      let res ← Caller.fOpendir rootPath
      if res ≠ .ok then pure () else tftpProcessRead o (tftpExtractFilename p)
    | .wrq => do
      Caller.fMount (some .filesystem)
      let res ← Caller.fOpendir rootPath
      if res ≠ .ok then pure () else tftpProcessWrite o (tftpExtractFilename p)
    | _ => pure ()

end Requests

/-- The calls of the server for a datagram. -/
def step (w : World) : Event → Caller FileVar Unit
  | .request o d => processTftpRequest o d.p
  | .datagram upcb o d =>
    match w.pcbs upcb with
    | some (some (.rrqRecvCallback args)) => rrqRecvCallback args
    | some (some (.wrqRecvCallback args)) => wrqRecvCallback args d.p o
    | _ => pure ()

end NucleoH743.Tftp.Calls
