import NucleoH743.Proofs.FatFs.Calls
import NucleoH743.Tftp.Server

/-!
# `Proofs.Tftp.Session`: what each server function does to the world

The spec lemmas of the TFTP server: which fields a helper leaves alone, what a cleanup does,
and when a request starts a session.

The functions of the server change a record of the world: the volume, the two global file objects,
the control blocks and the trace. The small lemmas of the first part say for each update which of
these it touches, and `simp` uses them.

A session has its arguments in its control block and its file in a global object. `Reading` and
`Storing` say what that object is in terms of the file: its content and the position of a read
session, and the bytes that a write session has stored. They depend on the volume and the object
only, so the other fields may change.

The last two parts are the frames: which control blocks a function touches, and that those which
have not been handed out are not allocated in any reachable state.

- `tftpCleanup_file`, `tftpCleanup_pcbs`: a cleanup closes one global file object, unmounts the
  volume and drops one control block.
- `tftpProcessRead_session`, `tftpProcessWrite_session`: a request that leaves a receive
  callback has opened its file, and the state after it.
- `request_rrq_session`, `request_wrq_session`: the same for the datagram on port 69.
-/

set_option autoImplicit false

namespace NucleoH743.Tftp

open NucleoH743.FatFs

/-! ### World updates -/

section Update
variable (w : World) (upcb : Nat) (recv : RecvFn) (e : Effect) (f : FileVar) (fp : Fil)

/-- Recording an effect leaves the volume alone. -/
@[simp] theorem World.emit_vol : (w.emit e).vol = w.vol := rfl

/-- It leaves the file objects alone. -/
@[simp] theorem World.emit_file : (w.emit e).file = w.file := rfl

/-- It leaves the control blocks alone. -/
@[simp] theorem World.emit_pcbs : (w.emit e).pcbs = w.pcbs := rfl

/-- It takes no control block. -/
@[simp] theorem World.emit_nextPcb : (w.emit e).nextPcb = w.nextPcb := rfl

/-- The record is kept in order. -/
@[simp] theorem World.emit_trace : (w.emit e).trace = w.trace ++ [e] := rfl

/-- A store to a file object leaves the volume alone. -/
@[simp] theorem World.setFile_vol : (w.setFile f fp).vol = w.vol := rfl

/-- It is a store to this object only. -/
@[simp] theorem World.setFile_file : (w.setFile f fp).file = Function.update w.file f fp := rfl

/-- The control blocks are not concerned. -/
@[simp] theorem World.setFile_pcbs : (w.setFile f fp).pcbs = w.pcbs := rfl

/-- Nor is the next one. -/
@[simp] theorem World.setFile_nextPcb : (w.setFile f fp).nextPcb = w.nextPcb := rfl

/-- A store is no effect. -/
@[simp] theorem World.setFile_trace : (w.setFile f fp).trace = w.trace := rfl

/-- `udp_recv` sets the callback of a block and leaves the volume alone. -/
@[simp] theorem World.udpRecv_vol : (w.udpRecv upcb recv).vol = w.vol := rfl

/-- It leaves the file objects alone. -/
@[simp] theorem World.udpRecv_file : (w.udpRecv upcb recv).file = w.file := rfl

/-- It takes no new block. -/
@[simp] theorem World.udpRecv_nextPcb : (w.udpRecv upcb recv).nextPcb = w.nextPcb := rfl

/-- It is no effect that a client could see. -/
@[simp] theorem World.udpRecv_trace : (w.udpRecv upcb recv).trace = w.trace := rfl

/-- The block has the callback afterwards, and the others are as before. -/
@[simp] theorem World.udpRecv_pcbs :
    (w.udpRecv upcb recv).pcbs = Function.update w.pcbs upcb (some (some recv)) := rfl

/-- A callback stores its arguments back and leaves the volume alone. -/
@[simp] theorem World.storeArgs_vol : (w.storeArgs upcb recv).vol = w.vol := by
  unfold storeArgs; split_ifs <;> rfl

/-- It leaves the file objects alone. -/
@[simp] theorem World.storeArgs_file : (w.storeArgs upcb recv).file = w.file := by
  unfold storeArgs; split_ifs <;> rfl

/-- It takes no control block. -/
@[simp] theorem World.storeArgs_nextPcb : (w.storeArgs upcb recv).nextPcb = w.nextPcb := by
  unfold storeArgs; split_ifs <;> rfl

/-- It is no effect on the network. -/
@[simp] theorem World.storeArgs_trace : (w.storeArgs upcb recv).trace = w.trace := by
  unfold storeArgs; split_ifs <;> rfl

/-- Arguments are stored where the control block is still allocated. -/
theorem World.storeArgs_pcbs {w : World} {upcb : Nat} (h : (w.pcbs upcb).isSome) :
    (w.storeArgs upcb recv).pcbs = Function.update w.pcbs upcb (some (some recv)) := by
  simp [storeArgs, h]

/-- Storing arguments touches no other control block. -/
@[simp] theorem World.storeArgs_pcbs_of_ne {n : Nat} (hn : n ≠ upcb) :
    (w.storeArgs upcb recv).pcbs n = w.pcbs n := by
  unfold storeArgs
  split_ifs
  · simp [hn]
  · rfl

/-- Nothing is stored in a session that has been cleaned up. -/
theorem World.storeArgs_none {w : World} {upcb : Nat} (h : w.pcbs upcb = none) :
    w.storeArgs upcb recv = w := by
  simp [storeArgs, h]

end Update

/-! ### Sending the next block -/

/-- `tftp_send_next_block` reads `file_SD` and sends what it read under the current number. -/
theorem tftpSendNextBlock_eq (w : World) (upcb : Nat) (ip : UInt32) (port : UInt16)
    (args : Args) :
    tftpSendNextBlock w upcb ip port args =
      let r := fRead w.vol (w.file .fileSD) tftpDataLenMax
      (tftpSendMessage (w.setFile .fileSD r.2.2) upcb ip port (tftpDataPacket args.block r.2.1),
        { args with data := r.2.1 }) := rfl

/-! ### Cleanup -/

section Cleanup
variable (f : FileVar) (w : World) (upcb : Nat) (args : Bool)

/-- A cleanup drops the control block. -/
@[simp] theorem tftpCleanup_pcbs :
    (tftpCleanup f w upcb args).pcbs = Function.update w.pcbs upcb none := by
  cases args <;> rfl

/-- `tftp_cleanup_rd` and `tftp_cleanup_wr` remove a block and take none. -/
@[simp] theorem tftpCleanup_nextPcb : (tftpCleanup f w upcb args).nextPcb = w.nextPcb := by
  cases args <;> rfl

/-- A cleanup closes its global file object only. -/
@[simp] theorem tftpCleanup_file :
    (tftpCleanup f w upcb args).file =
      Function.update w.file f (fClose w.vol (w.file f)).2.1 := by
  cases args <;> rfl

/-- A cleanup closes the file and unmounts the volume. -/
@[simp] theorem tftpCleanup_vol :
    (tftpCleanup f w upcb args).vol = fMount (fClose w.vol (w.file f)).2.2 none := by
  cases args <;> rfl

/-- What a cleanup releases. -/
@[simp] theorem tftpCleanup_trace :
    (tftpCleanup f w upcb args).trace =
      w.trace ++ (if args then [.memFree upcb] else []) ++ [.udpRemove upcb] := by
  cases args <;> simp [tftpCleanup]

end Cleanup

/-! ### Session datagrams -/

section SessionDatagram
variable (w : World) (args : Args) (upcb : Nat) (p : Pbuf) (addr : UInt32) (port : UInt16)

/-- The block counter of a read session after a datagram. -/
def rrqCount : Nat := if tftpIsCorrectAck p args.block then args.block + 1 else args.block

/-- A datagram after a short block ends the read session. -/
theorem rrqRecvCallback_last (h : args.dataLen < tftpDataLenMax) :
    rrqRecvCallback w args upcb p addr port = (tftpCleanupRd w upcb true).emit .pbufFree := by
  unfold rrqRecvCallback
  split_ifs <;> simp_all [Args.dataLen]

/-- Any other datagram makes the server read on and send what it read. -/
theorem rrqRecvCallback_next (h : ¬ args.dataLen < tftpDataLenMax) :
    rrqRecvCallback w args upcb p addr port =
      let r := fRead w.vol (w.file .fileSD) tftpDataLenMax
      ((tftpSendMessage (w.setFile .fileSD r.2.2) upcb addr port
          (tftpDataPacket (rrqCount args p) r.2.1)).storeArgs upcb
        (.rrqRecvCallback { args with block := rrqCount args p, data := r.2.1 })).emit
          .pbufFree := by
  have h' : ∀ b, ¬ ({ args with block := b } : Args).dataLen < tftpDataLenMax := fun _ => h
  by_cases hack : tftpIsCorrectAck p args.block = true
  · simp only [rrqRecvCallback, rrqCount, hack, if_true, h', if_false, tftpSendNextBlock_eq]
  · simp only [rrqRecvCallback, rrqCount, hack, h, if_false, Bool.false_eq_true,
      tftpSendNextBlock_eq]

end SessionDatagram

/-! ### Requests -/

section Requests
variable {o : Outcome} {w : World} {upcb : Nat} {ip : UInt32} {port : UInt16}
  {name : List UInt8} {recv : RecvFn}

/-- An RRQ that leaves a callback on its control block has opened the file and sent its first
block. -/
theorem tftpProcessRead_session
    (h : (tftpProcessRead o w upcb ip port name).pcbs upcb = some (some recv)) :
    ∃ fp vol, fOpen w.vol (w.file .fileSD) name { faRead := true } o.slot = (.ok, fp, vol) ∧
      let r := fRead vol fp tftpDataLenMax
      recv = .rrqRecvCallback
        { op := .rrq, data := r.2.1, toIp := ip, toPort := port, block := 1 } ∧
      tftpProcessRead o w upcb ip port name =
        { w with
          vol := vol
          file := Function.update w.file .fileSD r.2.2
          pcbs := Function.update w.pcbs upcb (some (some recv))
          trace := w.trace ++ [.sendto upcb ip port (tftpDataPacket 1 r.2.1)] } := by
  rcases hopen : fOpen w.vol (w.file .fileSD) name { faRead := true } o.slot with ⟨res, fp, vol⟩
  unfold tftpProcessRead at h ⊢
  simp only [hopen] at h ⊢
  by_cases hres : res = .ok
  · subst hres
    by_cases hm : o.memMalloc
    · simp only [hm, tftpSendNextBlock_eq, ne_eq, not_true_eq_false, if_false, Bool.not_true,
        Bool.false_eq_true] at h ⊢
      rw [World.storeArgs_pcbs _ (by simp [tftpSendMessage])] at h
      obtain rfl := by simpa using h
      refine ⟨fp, vol, rfl, by simp, ?_⟩
      simp [World.storeArgs, tftpSendMessage, World.emit, World.setFile, World.udpRecv]
    · simp [hm, tftpCleanupRd] at h
  · simp [hres, tftpCleanupRd] at h

/-- A WRQ that leaves a callback on its control block has opened the file and acknowledged
block 0. -/
theorem tftpProcessWrite_session
    (h : (tftpProcessWrite o w upcb ip port name).pcbs upcb = some (some recv)) :
    ∃ fp vol, fOpen w.vol (w.file .fileCR) name { faCreateAlways := true, faWrite := true } o.slot
        = (.ok, fp, vol) ∧
      recv = .wrqRecvCallback { op := .wrq, toIp := ip, toPort := port, block := 0 } ∧
      tftpProcessWrite o w upcb ip port name =
        { w with
          vol := vol
          file := Function.update w.file .fileCR fp
          pcbs := Function.update w.pcbs upcb (some (some recv))
          trace := w.trace ++ [.sendto upcb ip port (tftpAckPacket 0)] } := by
  rcases hopen : fOpen w.vol (w.file .fileCR) name { faCreateAlways := true, faWrite := true }
    o.slot with ⟨res, fp, vol⟩
  unfold tftpProcessWrite at h ⊢
  simp only [hopen] at h ⊢
  by_cases hres : res = .ok
  · subst hres
    by_cases hm : o.memMalloc
    · simp only [hm, ne_eq, not_true_eq_false, if_false, Bool.not_true,
        Bool.false_eq_true] at h ⊢
      obtain rfl := by simpa [tftpSendAckPacket, tftpSendMessage] using h
      exact ⟨fp, vol, rfl, rfl, rfl⟩
    · simp [hm, tftpCleanupWr] at h
  · simp [hres, tftpCleanupWr] at h

end Requests

section Port69
variable (o : Outcome) (w : World) (d : Datagram)

/-- The volume a request works on: mounted on `filesystem`, with the root directory opened. -/
def requestVol : Volume := (fOpendir (fMount w.vol (some .filesystem)) rootPath).2.2

/-- The request that opens a file mounts the volume first, and a mount leaves the entries alone. -/
@[simp] theorem requestVol_nodes : (requestVol w).nodes = w.vol.nodes := by
  simp [requestVol]

/-- It leaves alone which entry a path denotes. -/
@[simp] theorem requestVol_follow : (requestVol w).follow = w.vol.follow := by
  simp [requestVol]

/-- The world in which `tftp_process_read` and `tftp_process_write` run. -/
def requestWorld : World :=
  { w with
    vol := requestVol w
    pcbs := Function.update w.pcbs w.nextPcb (some none)
    nextPcb := w.nextPcb + 1 }

/-- What `process_tftp_request` can do: leave the control block without a callback, drop it
after an error message, or hand the request to one of the two session starts. -/
theorem processTftpRequest_cases :
    (processTftpRequest o w d.p d.addr d.port = w) ∨
    (∃ vol, processTftpRequest o w d.p d.addr d.port = { requestWorld w with vol }) ∨
    (∃ err, processTftpRequest o w d.p d.addr d.port =
      { requestWorld w with
        vol := w.vol
        pcbs := Function.update (requestWorld w).pcbs w.nextPcb none
        trace := w.trace ++ [.sendto w.nextPcb d.addr d.port (tftpErrorPacket err),
          .udpRemove w.nextPcb] }) ∨
    (tftpDecodeOp d.p = .rrq ∧ processTftpRequest o w d.p d.addr d.port =
      tftpProcessRead o (requestWorld w) w.nextPcb d.addr d.port (tftpExtractFilename d.p)) ∨
    (tftpDecodeOp d.p = .wrq ∧ processTftpRequest o w d.p d.addr d.port =
      tftpProcessWrite o (requestWorld w) w.nextPcb d.addr d.port (tftpExtractFilename d.p)) := by
  -- the case split follows the checks of the code from the top
  by_cases hnew : o.udpNew
  swap
  · left; simp [processTftpRequest, hnew]
  by_cases hbind : o.udpBind
  swap
  · right; left; exact ⟨w.vol, by simp [processTftpRequest, hnew, hbind, requestWorld]⟩
  right
  by_cases hdir : (fOpendir (fMount w.vol (some .filesystem)) rootPath).1 = .ok
  · cases hop : tftpDecodeOp d.p with
    | rrq =>
      right; right; left
      exact ⟨rfl, by simp [processTftpRequest, hnew, hbind, hop, hdir, requestWorld, requestVol]⟩
    | wrq =>
      right; right; right
      exact ⟨rfl, by simp [processTftpRequest, hnew, hbind, hop, hdir, requestWorld, requestVol]⟩
    | _ =>
      right; left
      exact ⟨_, by
        simp [processTftpRequest, hnew, hbind, hop, requestWorld, tftpSendErrorMessage,
          tftpSendMessage, World.emit]; rfl⟩
  · cases hop : tftpDecodeOp d.p with
    | rrq | wrq =>
      left
      exact ⟨requestVol w, by
        simp [processTftpRequest, hnew, hbind, hop, hdir, requestWorld, requestVol]⟩
    | _ =>
      right; left
      exact ⟨_, by
        simp [processTftpRequest, hnew, hbind, hop, requestWorld, tftpSendErrorMessage,
          tftpSendMessage, World.emit]; rfl⟩

/-- A request that leaves a callback on the new control block has started a session: an RRQ has
opened its file and sent the first block, a WRQ has created its file and acknowledged block 0. -/
theorem request_session {o : Outcome} {w : World} {d : Datagram} {recv : RecvFn}
    (hfresh : w.pcbs w.nextPcb = none)
    (h : (step w (.request o d)).pcbs w.nextPcb = some (some recv)) :
    (tftpDecodeOp d.p = .rrq ∧ ∃ fp vol,
      Opened (requestVol w) (tftpExtractFilename d.p) { faRead := true } fp vol ∧
      let r := fRead vol fp tftpDataLenMax
      recv = .rrqRecvCallback
        { op := .rrq, data := r.2.1, toIp := d.addr, toPort := d.port, block := 1 } ∧
      step w (.request o d) =
        { vol := vol
          file := Function.update w.file .fileSD r.2.2
          pcbs := Function.update w.pcbs w.nextPcb (some (some recv))
          nextPcb := w.nextPcb + 1
          trace := w.trace ++
            [.sendto w.nextPcb d.addr d.port (tftpDataPacket 1 r.2.1), .pbufFree] }) ∨
    (tftpDecodeOp d.p = .wrq ∧ ∃ fp vol,
      Opened (requestVol w) (tftpExtractFilename d.p)
        { faCreateAlways := true, faWrite := true } fp vol ∧
      recv = .wrqRecvCallback { op := .wrq, toIp := d.addr, toPort := d.port, block := 0 } ∧
      step w (.request o d) =
        { vol := vol
          file := Function.update w.file .fileCR fp
          pcbs := Function.update w.pcbs w.nextPcb (some (some recv))
          nextPcb := w.nextPcb + 1
          trace := w.trace ++
            [.sendto w.nextPcb d.addr d.port (tftpAckPacket 0), .pbufFree] }) := by
  simp only [step, recvCallbackTftp, World.emit_pcbs] at h
  -- three of the five outcomes leave no callback on the new control block
  rcases processTftpRequest_cases o w d with hc | ⟨vol, hc⟩ | ⟨err, hc⟩ | ⟨hop, hc⟩ | ⟨hop, hc⟩
  · rw [hc, hfresh] at h
    cases h
  · rw [hc] at h
    simp [requestWorld] at h
  · rw [hc] at h
    simp at h
  · left
    rw [hc] at h
    obtain ⟨fp, vol, hopen, hrecv, heq⟩ := tftpProcessRead_session h
    refine ⟨hop, fp, vol, fOpen_spec hopen, hrecv, ?_⟩
    simp only [step, recvCallbackTftp, hc, heq]
    simp [requestWorld, World.emit]
  · right
    rw [hc] at h
    obtain ⟨fp, vol, hopen, hrecv, heq⟩ := tftpProcessWrite_session h
    refine ⟨hop, fp, vol, fOpen_spec hopen, hrecv, ?_⟩
    simp only [step, recvCallbackTftp, hc, heq]
    simp [requestWorld, World.emit]

end Port69

/-! ### The open file of a session -/

/-- `file_SD` is open on the file `name`, which holds `content`, at position `pos`. -/
structure Reading (name : Path) (content : List UInt8) (pos : Nat) (w : World) : Prop where
  valid : (w.file .fileSD).valid w.vol = true
  faRead : (w.file .fileSD).faRead = true
  data : (w.file .fileSD).data = content
  fptr : (w.file .fileSD).fptr = pos
  entry : w.vol.follow name = .entry (w.file .fileSD).entry

/-- `file_CR` is open on the file `name` and has stored `bytes`. -/
structure Storing (name : Path) (bytes : List UInt8) (w : World) : Prop where
  valid : (w.file .fileCR).valid w.vol = true
  faWrite : (w.file .fileCR).faWrite = true
  faModified : (w.file .fileCR).faModified = true
  data : (w.file .fileCR).data = bytes
  fptr : (w.file .fileCR).fptr = bytes.length
  entry : w.vol.follow name = .entry (w.file .fileCR).entry

section OpenFile
variable {name : Path} {content bytes : List UInt8} {pos : Nat} {w w' : World}

/-- The next read of the session. -/
theorem Reading.fRead (h : Reading name content pos w) (btr : Nat) :
    FatFs.fRead w.vol (w.file .fileSD) btr = (.ok, (content.drop pos).take btr,
      { w.file .fileSD with fptr := pos + ((content.drop pos).take btr).length }) := by
  have hbytes : ((w.file .fileSD).data.drop pos).take btr = (content.drop pos).take btr := by
    rw [h.data]
  rw [fRead_eq h.valid h.faRead, h.fptr, hbytes]

/-- Reading moves the position and nothing else. -/
theorem Reading.moved (h : Reading name content pos w) {pos' : Nat} (hvol : w'.vol = w.vol)
    (hfile : w'.file .fileSD = { w.file .fileSD with fptr := pos' }) :
    Reading name content pos' w' where
  valid := by simpa [Fil.valid, hvol, hfile] using h.valid
  faRead := by simpa [hfile] using h.faRead
  data := by simpa [hfile] using h.data
  fptr := by simp [hfile]
  entry := by simpa [hvol, hfile] using h.entry

/-- The open file of a read session depends on the volume and `file_SD` only. -/
theorem Reading.congr (h : Reading name content pos w) (hvol : w'.vol = w.vol)
    (hfile : w'.file .fileSD = w.file .fileSD) : Reading name content pos w' := by
  refine h.moved hvol ?_
  rw [hfile, ← h.fptr]

/-- The open file of a write session depends on the volume and `file_CR` only. -/
theorem Storing.congr (h : Storing name bytes w) (hvol : w'.vol = w.vol)
    (hfile : w'.file .fileCR = w.file .fileCR) : Storing name bytes w' where
  valid := by simpa [hvol, hfile] using h.valid
  faWrite := by simpa [hfile] using h.faWrite
  faModified := by simpa [hfile] using h.faModified
  data := by simpa [hfile] using h.data
  fptr := by simpa [hfile] using h.fptr
  entry := by simpa [hvol, hfile] using h.entry

/-- The next write of the session appends what the disk has room for. -/
theorem Storing.fWrite (h : Storing name bytes w) (buff : List UInt8) (room : Nat) :
    ∃ fp, FatFs.fWrite w.vol (w.file .fileCR) buff room = (.ok, (buff.take room).length, fp) ∧
      Storing name (bytes ++ buff.take room) (w.setFile .fileCR fp) := by
  have hend : (w.file .fileCR).fptr = (w.file .fileCR).data.length := by rw [h.fptr, h.data]
  refine ⟨_, fWrite_eq h.valid h.faWrite hend buff room, ?_⟩
  exact {
    valid := by simpa [Fil.valid] using h.valid
    faWrite := by simpa using h.faWrite
    faModified := by simp
    data := by simp [h.data]
    fptr := by simp [h.fptr]
    entry := by simpa using h.entry }

/-- Closing the file of the session leaves the stored bytes under its name. -/
theorem Storing.cleanup (h : Storing name bytes w) (upcb : Nat) (args : Bool) :
    fileContent (tftpCleanupWr w upcb args).vol name = some bytes := by
  simp [fileContent, tftpCleanupWr, h.entry, fClose_nodes h.valid, h.faModified, h.data]

end OpenFile

section Started
variable {o : Outcome} {w : World} {d : Datagram} {recv : RecvFn}

/-- A read session starts with the first bytes of its file read and sent. The read that sends them
has moved the position, so the next datagram finds the file behind the first block. -/
theorem request_reading (hfresh : w.pcbs w.nextPcb = none) (hop : tftpDecodeOp d.p = .rrq)
    (hs : (step w (.request o d)).pcbs w.nextPcb = some (some recv)) :
    ∃ content, fileContent w.vol (tftpExtractFilename d.p) = some content ∧
      recv = .rrqRecvCallback
        { op := .rrq, data := content.take tftpDataLenMax, toIp := d.addr, toPort := d.port,
          block := 1 } ∧
      Reading (tftpExtractFilename d.p) content (content.take tftpDataLenMax).length
        (step w (.request o d)) ∧
      (step w (.request o d)).pcbs = Function.update w.pcbs w.nextPcb (some (some recv)) ∧
      (step w (.request o d)).nextPcb = w.nextPcb + 1 ∧
      (step w (.request o d)).trace = w.trace ++ [.sendto w.nextPcb d.addr d.port
        (tftpDataPacket 1 (content.take tftpDataLenMax)), .pbufFree] := by
  rcases request_session hfresh hs with ⟨-, fp, vol, hopen, hrecv, heq⟩ | ⟨hop', -⟩
  swap
  · rw [hop] at hop'
    cases hop'
  have hent := hopen.entry
  have hfol := hopen.follow
  rw [requestVol_follow] at hent hfol
  have hread := fRead_eq hopen.valid hopen.faRead tftpDataLenMax
  simp only [hopen.fptr, List.drop_zero, Nat.zero_add] at hread
  simp only [hread] at hrecv heq
  refine ⟨fp.data, ?_, hrecv, ?_, by rw [heq], by rw [heq], by rw [heq]⟩
  · have hnode := hopen.existed rfl
    rw [requestVol_nodes] at hnode
    simp [fileContent, hent, hnode]
  · rw [heq]
    exact {
      valid := by simpa [Fil.valid] using hopen.valid
      faRead := by simpa using hopen.faRead
      data := by simp
      fptr := by simp
      entry := by simpa [hfol] using hent }

/-- A write session starts with its file created or emptied. Its counter is 0 and its client is the
sender of the request. -/
theorem request_storing (hfresh : w.pcbs w.nextPcb = none) (hop : tftpDecodeOp d.p = .wrq)
    (hs : (step w (.request o d)).pcbs w.nextPcb = some (some recv)) :
    recv = .wrqRecvCallback { op := .wrq, toIp := d.addr, toPort := d.port, block := 0 } ∧
      Storing (tftpExtractFilename d.p) [] (step w (.request o d)) ∧
      (step w (.request o d)).pcbs = Function.update w.pcbs w.nextPcb (some (some recv)) ∧
      (step w (.request o d)).nextPcb = w.nextPcb + 1 ∧
      (step w (.request o d)).trace =
        w.trace ++ [.sendto w.nextPcb d.addr d.port (tftpAckPacket 0), .pbufFree] := by
  rcases request_session hfresh hs with ⟨hop', -⟩ | ⟨-, fp, vol, hopen, hrecv, heq⟩
  · rw [hop] at hop'
    cases hop'
  have hdata : fp.data = [] := hopen.emptied rfl
  have hent := hopen.entry
  have hfol := hopen.follow
  rw [requestVol_follow] at hent hfol
  refine ⟨hrecv, ?_, by rw [heq], by rw [heq], by rw [heq]⟩
  rw [heq]
  exact {
    valid := by simpa [Fil.valid] using hopen.valid
    faWrite := by simpa using hopen.faWrite
    faModified := by simpa using hopen.modified rfl
    data := by simpa using hdata
    fptr := by simpa using hopen.fptr
    entry := by simpa [hfol] using hent }

end Started

/-! ### Frames -/

section Frame
variable {o : Outcome} {w : World} {args : Args} {upcb n : Nat} {p : Pbuf}
  {ip : UInt32} {port : UInt16} {name : List UInt8}

/-- A read request touches the block that it was given and no other. -/
theorem tftpProcessRead_pcbs (hn : n ≠ upcb) :
    (tftpProcessRead o w upcb ip port name).pcbs n = w.pcbs n := by
  unfold tftpProcessRead
  rcases fOpen w.vol (w.file .fileSD) name { faRead := true } o.slot with ⟨res, fp, vol⟩
  simp only
  split_ifs
  · simp [tftpCleanupRd, tftpSendErrorMessage, tftpSendMessage, hn]
  · simp [tftpCleanupRd, tftpSendErrorMessage, tftpSendMessage, hn]
  · rw [tftpSendNextBlock_eq]
    simp [tftpSendMessage, hn]

/-- It takes no block: the dispatcher did. -/
theorem tftpProcessRead_nextPcb :
    (tftpProcessRead o w upcb ip port name).nextPcb = w.nextPcb := by
  unfold tftpProcessRead
  rcases fOpen w.vol (w.file .fileSD) name { faRead := true } o.slot with ⟨res, fp, vol⟩
  simp only
  split_ifs
  · simp [tftpCleanupRd, tftpSendErrorMessage, tftpSendMessage]
  · simp [tftpCleanupRd, tftpSendErrorMessage, tftpSendMessage]
  · rw [tftpSendNextBlock_eq]
    simp [tftpSendMessage]

/-- A write request touches the block that it was given and no other. -/
theorem tftpProcessWrite_pcbs (hn : n ≠ upcb) :
    (tftpProcessWrite o w upcb ip port name).pcbs n = w.pcbs n := by
  unfold tftpProcessWrite
  rcases fOpen w.vol (w.file .fileCR) name { faCreateAlways := true, faWrite := true } o.slot
    with ⟨res, fp, vol⟩
  simp only
  split_ifs <;>
    simp [tftpCleanupWr, tftpSendErrorMessage, tftpSendAckPacket, tftpSendMessage, hn]

/-- It takes no block either. -/
theorem tftpProcessWrite_nextPcb :
    (tftpProcessWrite o w upcb ip port name).nextPcb = w.nextPcb := by
  unfold tftpProcessWrite
  rcases fOpen w.vol (w.file .fileCR) name { faCreateAlways := true, faWrite := true } o.slot
    with ⟨res, fp, vol⟩
  simp only
  split_ifs <;> simp [tftpCleanupWr, tftpSendErrorMessage, tftpSendAckPacket, tftpSendMessage]

/-- A datagram for a read session touches no other control block. -/
theorem rrqRecvCallback_pcbs (hn : n ≠ upcb) :
    (rrqRecvCallback w args upcb p ip port).pcbs n = w.pcbs n := by
  by_cases h : args.dataLen < tftpDataLenMax
  · simp [rrqRecvCallback_last _ _ _ _ _ _ h, tftpCleanupRd, hn]
  · simp [rrqRecvCallback_next _ _ _ _ _ _ h, tftpSendMessage, hn]

/-- A datagram in a read session takes no block. -/
theorem rrqRecvCallback_nextPcb :
    (rrqRecvCallback w args upcb p ip port).nextPcb = w.nextPcb := by
  by_cases h : args.dataLen < tftpDataLenMax
  · simp [rrqRecvCallback_last _ _ _ _ _ _ h, tftpCleanupRd]
  · simp [rrqRecvCallback_next _ _ _ _ _ _ h, tftpSendMessage]

/-- The write session stores its arguments in its own block. -/
theorem wrqAccept_pcbs (hn : n ≠ upcb) :
    (wrqAccept w args upcb p ip port o).1.pcbs n = w.pcbs n := by
  unfold wrqAccept
  split_ifs
  · rcases fWrite w.vol (w.file .fileCR) (p.payload.drop tftpDataPktHdrLen) o.room
      with ⟨res, k, fp⟩
    simp only
    split_ifs <;> simp [tftpCleanupWr, tftpSendErrorMessage, tftpSendMessage, hn]
  · rfl
  · rfl

/-- It takes no block for a datagram that it accepts. -/
theorem wrqAccept_nextPcb :
    (wrqAccept w args upcb p ip port o).1.nextPcb = w.nextPcb := by
  unfold wrqAccept
  split_ifs
  · rcases fWrite w.vol (w.file .fileCR) (p.payload.drop tftpDataPktHdrLen) o.room
      with ⟨res, k, fp⟩
    simp only
    split_ifs <;> simp [tftpCleanupWr, tftpSendErrorMessage, tftpSendMessage]
  · rfl
  · rfl

/-- A datagram for a write session touches no other control block. -/
theorem wrqRecvCallback_pcbs (hn : n ≠ upcb) :
    (wrqRecvCallback w args upcb p ip port o).pcbs n = w.pcbs n := by
  have hacc : (wrqAccept w args upcb p ip port o).1.pcbs n = w.pcbs n := wrqAccept_pcbs hn
  unfold wrqRecvCallback
  split_ifs
  · rfl
  · simpa [tftpCleanupWr, tftpSendAckPacket, tftpSendMessage, hn] using hacc
  · simpa [tftpSendAckPacket, tftpSendMessage, hn] using hacc

/-- A write session takes no block for any datagram. -/
theorem wrqRecvCallback_nextPcb :
    (wrqRecvCallback w args upcb p ip port o).nextPcb = w.nextPcb := by
  have hacc : (wrqAccept w args upcb p ip port o).1.nextPcb = w.nextPcb := wrqAccept_nextPcb
  unfold wrqRecvCallback
  split_ifs
  · rfl
  · simpa [tftpCleanupWr, tftpSendAckPacket, tftpSendMessage] using hacc
  · simpa [tftpSendAckPacket, tftpSendMessage] using hacc

/-- A datagram for one session leaves the control blocks of the others alone. -/
theorem datagram_pcbs_of_ne {d : Datagram} (hn : n ≠ upcb) :
    (step w (.datagram upcb o d)).pcbs n = w.pcbs n := by
  simp only [step]
  split
  · exact rrqRecvCallback_pcbs hn
  · exact wrqRecvCallback_pcbs hn
  · rfl

end Frame

/-! ### Control blocks over a run -/

/-- The control blocks that have not been handed out are not allocated. -/
def Fresh (w : World) : Prop := ∀ n, w.nextPcb ≤ n → w.pcbs n = none

/-- At the start no block is in use, so the next one is free. -/
theorem fresh_init (vol : Volume) : Fresh (World.init vol) := fun _ _ => rfl

/-- An allocated control block has been handed out. -/
theorem Fresh.lt {w : World} (h : Fresh w) {n : Nat} {recv : Option RecvFn}
    (hs : w.pcbs n = some recv) : n < w.nextPcb := by
  by_contra hge
  rw [h n (Nat.le_of_not_lt hge)] at hs
  cases hs

/-- A request changes no control block but the next one. -/
theorem request_pcbs_of_ne {o : Outcome} {w : World} {d : Datagram} {n : Nat}
    (hn : n ≠ w.nextPcb) : (step w (.request o d)).pcbs n = w.pcbs n := by
  simp only [step, recvCallbackTftp, World.emit_pcbs]
  have hreq : (requestWorld w).pcbs n = w.pcbs n := Function.update_of_ne hn _ _
  rcases processTftpRequest_cases o w d with hc | ⟨vol, hc⟩ | ⟨err, hc⟩ | ⟨-, hc⟩ | ⟨-, hc⟩
  · rw [hc]
  · rw [hc]
    exact hreq
  · rw [hc]
    exact (Function.update_of_ne hn _ _).trans hreq
  · rw [hc, tftpProcessRead_pcbs hn, hreq]
  · rw [hc, tftpProcessWrite_pcbs hn, hreq]

/-- A request hands out at most one control block. -/
theorem request_nextPcb {o : Outcome} {w : World} {d : Datagram} :
    (step w (.request o d)).pcbs = w.pcbs ∧ (step w (.request o d)).nextPcb = w.nextPcb ∨
      (step w (.request o d)).nextPcb = w.nextPcb + 1 := by
  simp only [step, recvCallbackTftp, World.emit_pcbs, World.emit_nextPcb]
  rcases processTftpRequest_cases o w d with hc | ⟨vol, hc⟩ | ⟨err, hc⟩ | ⟨-, hc⟩ | ⟨-, hc⟩
  · exact Or.inl ⟨by rw [hc], by rw [hc]⟩
  · exact Or.inr (by rw [hc]; rfl)
  · exact Or.inr (by rw [hc]; rfl)
  · exact Or.inr (by rw [hc, tftpProcessRead_nextPcb]; rfl)
  · exact Or.inr (by rw [hc, tftpProcessWrite_nextPcb]; rfl)

/-- A request takes the next block, and the one after it is free, since all blocks from there on
are. -/
theorem fresh_request {o : Outcome} {w : World} {d : Datagram} (h : Fresh w) :
    Fresh (step w (.request o d)) := by
  intro n hn
  rcases request_nextPcb with ⟨hpcbs, hnext⟩ | hnext
  · rw [hpcbs]
    exact h n (hnext ▸ hn)
  · rw [request_pcbs_of_ne (by omega)]
    exact h n (by omega)

/-- Every event keeps the next block free. A datagram works in the block of its session, which is an
older one. -/
theorem fresh_step {w : World} (h : Fresh w) (ev : Event) : Fresh (step w ev) := by
  cases ev with
  | request o d => exact fresh_request h
  | datagram upcb o d =>
    simp only [step]
    split
    · rename_i args hrecv
      have hup := h.lt hrecv
      intro n hn
      rw [rrqRecvCallback_nextPcb] at hn
      rw [rrqRecvCallback_pcbs (by omega)]
      exact h n hn
    · rename_i args hrecv
      have hup := h.lt hrecv
      intro n hn
      rw [wrqRecvCallback_nextPcb] at hn
      rw [wrqRecvCallback_pcbs (by omega)]
      exact h n hn
    · exact h

/-- After any history the next control block is not allocated. -/
theorem fresh_run (vol : Volume) (es : List Event) :
    Fresh (EventRun.run step (World.init vol) es) := by
  have hstep : ∀ w ev, Fresh w → True → Fresh (step w ev) := fun _ ev h _ => fresh_step h ev
  exact EventRun.run_inv hstep (fresh_init vol) (EventRun.along_true _ _ _)

end NucleoH743.Tftp
