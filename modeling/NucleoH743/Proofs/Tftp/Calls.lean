import NucleoH743.Proofs.Tftp.Session
import NucleoH743.Tftp.Calls

/-!
# `Proofs.Tftp.Calls`: the calls of the TFTP server are those of its functions

Run without interruption, the program of FatFs calls of a datagram leaves the volume and the
global file objects as the function that handles the datagram leaves them.

`Tftp.Calls` keeps the handling of a datagram as a program whose calls of FatFs are separate steps.
What it does to the network is left out there, so the comparison is of the volume and of the two
global file objects.

Each function of the server has its program and a lemma, and the lemma of a caller uses those of the
functions that it calls. The file objects are global here, unlike in the FTP server, and what they
held before a request does matter: an `f_open` that fails clears the pointer to the filesystem and
leaves the other fields.

- `run_step`: the program of a datagram.
-/

set_option autoImplicit false

namespace NucleoH743.Tftp.Calls

open NucleoH743.FatFs

/-- What FatFs has of the world. -/
def diskOf (w : World) : Disk FileVar := { vol := w.vol, fil := w.file }

section Run
variable (w : World) (upcb : Nat)

/-- `tftp_cleanup` as its calls: the volume and the file objects are those of the server's own
account. -/
theorem run_tftpCleanup (f : FileVar) (args : Bool) :
    ((tftpCleanup f).run Call.handle (diskOf w)).2 =
      diskOf (Tftp.tftpCleanup f w upcb args) := by
  cases args <;> rfl

section Callbacks
variable (args : Args) (p : Pbuf) (addr : UInt32) (port : UInt16) (o : Outcome)

/-- So are those of the callback of a read session. -/
theorem run_rrqRecvCallback :
    ((rrqRecvCallback args).run Call.handle (diskOf w)).2 =
      diskOf (Tftp.rrqRecvCallback w args upcb p addr port) := by
  by_cases hlast : args.dataLen < tftpDataLenMax
  · rw [rrqRecvCallback_last _ _ _ _ _ _ hlast, rrqRecvCallback, if_pos hlast]
    exact run_tftpCleanup w upcb .fileSD true
  · rw [rrqRecvCallback_next _ _ _ _ _ _ hlast, rrqRecvCallback, if_neg hlast]
    simp only [diskOf, World.emit_vol, World.emit_file, World.storeArgs_vol, World.storeArgs_file]
    rfl

/-- So are those behind a block that is written. A write that is rejected closes the file and
unmounts the volume in both. -/
theorem run_wrqAccept :
    ((wrqAccept args p o).run Call.handle (diskOf w)).2 =
      diskOf (Tftp.wrqAccept w args upcb p addr port o).1 := by
  unfold wrqAccept Tftp.wrqAccept
  by_cases hwrite : tftpDataPktHdrLen < p.len ∧ tftpExtractBlock p = args.block + 1
  · rcases hfw : fWrite w.vol (w.file .fileCR) (p.payload.drop tftpDataPktHdrLen) o.room
      with ⟨res, n, fp⟩
    rw [if_pos hwrite, if_pos hwrite, Caller.run_fWrite hfw]
    dsimp only
    split_ifs
    · -- a write without room ends the session
      exact run_tftpCleanup (tftpSendErrorMessage (w.setFile .fileCR fp) upcb addr port
        .fileNotFound) upcb .fileCR true
    · rfl
  · rw [if_neg hwrite, if_neg hwrite]
    split_ifs <;> rfl

/-- So are those of the callback of a write session. By whether the packet is chained, and whether
it is short. -/
theorem run_wrqRecvCallback :
    ((wrqRecvCallback args p o).run Call.handle (diskOf w)).2 =
      diskOf (Tftp.wrqRecvCallback w args upcb p addr port o) := by
  unfold wrqRecvCallback Tftp.wrqRecvCallback
  by_cases hone : p.len ≠ p.totLen
  · rw [if_pos hone, if_pos hone]
    rfl
  · rw [if_neg hone, if_neg hone, Prog.run_bind, run_wrqAccept w upcb args p addr port o]
    rcases Tftp.wrqAccept w args upcb p addr port o with ⟨w₁, args₁⟩
    dsimp only
    split_ifs
    · exact run_tftpCleanup w₁ upcb .fileCR true
    · simp only [diskOf, World.emit_vol, World.emit_file, World.storeArgs_vol,
        World.storeArgs_file]
      rfl

end Callbacks

section Requests
variable (o : Outcome) (name : List UInt8) (ip : UInt32) (port : UInt16)

/-- So are those of a read request. -/
theorem run_tftpProcessRead :
    ((tftpProcessRead o name).run Call.handle (diskOf w)).2 =
      diskOf (Tftp.tftpProcessRead o w upcb ip port name) := by
  unfold tftpProcessRead Tftp.tftpProcessRead
  rcases hopen : fOpen w.vol (w.file .fileSD) name { faRead := true } o.slot with ⟨res, fp, vol⟩
  rw [Caller.run_fOpen hopen]
  dsimp only
  split_ifs
  · exact run_tftpCleanup (tftpSendErrorMessage { w.setFile .fileSD fp with vol } upcb ip port
      .fileNotFound) upcb .fileSD false
  · exact run_tftpCleanup (tftpSendErrorMessage { w.setFile .fileSD fp with vol } upcb ip port
      .notDefined) upcb .fileSD false
  · simp only [diskOf, World.storeArgs_vol, World.storeArgs_file]
    rfl

/-- So are those of a write request. -/
theorem run_tftpProcessWrite :
    ((tftpProcessWrite o name).run Call.handle (diskOf w)).2 =
      diskOf (Tftp.tftpProcessWrite o w upcb ip port name) := by
  unfold tftpProcessWrite Tftp.tftpProcessWrite
  rcases hopen : fOpen w.vol (w.file .fileCR) name { faCreateAlways := true, faWrite := true }
    o.slot with ⟨res, fp, vol⟩
  rw [Caller.run_fOpen hopen]
  dsimp only
  split_ifs
  · exact run_tftpCleanup (tftpSendErrorMessage { w.setFile .fileCR fp with vol } upcb ip port
      .notDefined) upcb .fileCR false
  · exact run_tftpCleanup (tftpSendErrorMessage { w.setFile .fileCR fp with vol } upcb ip port
      .notDefined) upcb .fileCR false
  · rfl

/-- So are those of every request, which mounts the volume first. By the outcomes of the calls in
front of the session: without a control block or a port nothing is mounted. -/
theorem run_processTftpRequest (p : Pbuf) :
    ((processTftpRequest o p).run Call.handle (diskOf w)).2 =
      diskOf (Tftp.processTftpRequest o w p ip port) := by
  unfold processTftpRequest Tftp.processTftpRequest
  by_cases hnew : (!o.udpNew) = true
  · rw [if_pos hnew, if_pos hnew]
    rfl
  by_cases hbind : (!o.udpBind) = true
  · rw [if_neg hnew, if_neg hnew, if_pos hbind, if_pos hbind]
    rfl
  rw [if_neg hnew, if_neg hnew, if_neg hbind, if_neg hbind]
  -- both sides have mounted the volume and opened the root behind these two checks
  rcases hdir : fOpendir (fMount w.vol (some .filesystem)) rootPath with ⟨res, dir, vol⟩
  have hrun : ∀ k : FResult → Caller FileVar Unit,
      ((Caller.fMount (some .filesystem) >>= fun _ => Caller.fOpendir rootPath >>= k).run
        Call.handle (diskOf w)).2 = ((k res).run Call.handle (diskOf { w with vol })).2 := by
    intro k
    rw [Caller.run_fMount, Caller.run_fOpendir hdir]
    rfl
  let w₁ : World :=
    { w with
      vol := vol
      pcbs := Function.update w.pcbs w.nextPcb (some none)
      nextPcb := w.nextPcb + 1 }
  cases tftpDecodeOp p with
  | rrq =>
    rw [hrun]
    simp only [hdir]
    split_ifs
    · rfl
    · exact run_tftpProcessRead w₁ w.nextPcb o _ ip port
  | wrq =>
    rw [hrun]
    simp only [hdir]
    split_ifs
    · rfl
    · exact run_tftpProcessWrite w₁ w.nextPcb o _ ip port
  | _ => rfl

end Requests

/-- The calls of the server for a datagram, run one after the other, do to the volume and to the
global file objects what the server does to them. -/
theorem run_step (ev : Event) :
    ((step w ev).run Call.handle (diskOf w)).2 = diskOf (Tftp.step w ev) := by
  cases ev with
  | request o d => exact run_processTftpRequest w o d.addr d.port d.p
  | datagram upcb o d =>
    dsimp only [step, Tftp.step]
    cases hpcb : w.pcbs upcb with
    | none => rfl
    | some recv =>
      cases recv with
      | none => rfl
      | some fn =>
        cases fn with
        | rrqRecvCallback args => exact run_rrqRecvCallback w upcb args d.p d.addr d.port
        | wrqRecvCallback args => exact run_wrqRecvCallback w upcb args d.p d.addr d.port o

end Run

end NucleoH743.Tftp.Calls
