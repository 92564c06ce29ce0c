import NucleoH743.Proofs.Tftp.Rrq
import NucleoH743.Proofs.Tftp.Wrq

/-!
# `Proofs.Tftp.Isolation`: sessions of several clients

Every client has its own control block, block counter and buffer, but all read sessions share
`file_SD`, all write sessions share `file_CR`, and every start and every end of a session
mounts or unmounts the one volume.

`History` records, per control block, which file its request named, what the session stored of
its own datagrams, and what the file held when a write session ended. `Isolated` says that the
sessions do not disturb each other: each read session has sent a prefix of its own file, each
running session still has its own file open and valid, and each ended write session has left
its own payloads.

Under the condition there is at most one session at a time, and the invariant `Sound` says this
beside the isolation. A session that starts finds no other one, so it has the global file object and
the volume to itself; a session that ends leaves its record, and its file is looked at in that
moment, since a later session may write the same file again.

The step lemma has a case for each kind of event and session. A read session extends what was sent
by the next bytes of its file, a write session extends what is stored by the payload that it takes,
and a datagram without a session does nothing. A request without the volume, or one that fails,
changes no record.

- `sound_step`: a datagram under `NoOverlap`, which lets a request reach the volume only while
  no session runs, keeps the sessions isolated.
- `sessions_isolated`: over every interleaving of requests and datagrams under `NoOverlap` the
  sessions are isolated.
-/

set_option autoImplicit false

namespace NucleoH743.Proofs.Tftp

open NucleoH743.FatFs
open CStr (textBytes)
open NucleoH743.Tftp
open EventRun (run Along run_inv)

/-! ### What a session sent and stored -/

/-- The file bytes in an effect of the session on `upcb`: the payload of a DATA packet. -/
def dataBytes (upcb : Nat) : Effect → List UInt8
  | .sendto u _ _ msg =>
    if u = upcb ∧ tftpDecodeOp (.single msg) = .data then msg.drop tftpDataPktHdrLen else []
  | _ => []

/-- The file bytes that the session on `upcb` has sent, in order. -/
def sentBytes (upcb : Nat) (trace : List Effect) : List UInt8 := trace.flatMap (dataBytes upcb)

/-- What a write session takes of a datagram: the payload of the block it expects, as far as the
disk has room. -/
def taken (args : Args) (o : Outcome) (p : Pbuf) : List UInt8 :=
  if p.len = p.totLen ∧ tftpDataPktHdrLen < p.len ∧ tftpExtractBlock p = args.block + 1 then
    (dataPayload p).take o.room
  else []

/-- The record of a session. -/
structure Session where
  /-- the file its request named -/
  name : Path
  /-- what that file held at the request -/
  source : List UInt8
  /-- what a write session took of its own datagrams -/
  stored : List UInt8 := []
  /-- what the file of a write session held when the session had ended -/
  result : Option (List UInt8) := none
  deriving DecidableEq, Repr

/-- The sessions so far, by control block. -/
abbrev History := Nat → Option Session

/-- The history after an event. -/
def record (w : World) (h : History) (ev : Event) : History :=
  match ev with
  | .request _ d =>
    match (step w ev).pcbs w.nextPcb with
    | some (some _) => Function.update h w.nextPcb (some
        { name := tftpExtractFilename d.p
          source := (fileContent w.vol (tftpExtractFilename d.p)).getD [] })
    | _ => h
  | .datagram upcb o d =>
    match wrqArgs w upcb with
    | some args => Function.update h upcb ((h upcb).map fun s =>
        { s with
          stored := s.stored ++ taken args o d.p
          result := if ((step w ev).pcbs upcb).isNone then fileContent (step w ev).vol s.name
            else s.result })
    | none => h

/-- The server beside its history. -/
def recordStep (x : World × History) (ev : Event) : World × History :=
  (step x.1 ev, record x.1 x.2 ev)

/-- The sessions do not disturb each other. -/
structure Isolated (w : World) (h : History) : Prop where
  read : ∀ n s, h n = some s → sentBytes n w.trace <+: s.source
  openRead : ∀ n args, w.pcbs n = some (some (.rrqRecvCallback args)) →
    ∃ s, h n = some s ∧ Reading s.name s.source (sentBytes n w.trace).length w
  openWrite : ∀ n args, w.pcbs n = some (some (.wrqRecvCallback args)) →
    ∃ s, h n = some s ∧ s.result = none ∧ Storing s.name s.stored w
  result : ∀ n s bytes, h n = some s → s.result = some bytes → bytes = s.stored

/-! ### The condition -/

/-- There is a session on the control block. -/
def hasSession (w : World) (n : Nat) : Bool :=
  match w.pcbs n with
  | some (some _) => true
  | _ => false

/-- The request gets as far as the volume: it has a bound control block and is an RRQ or WRQ. -/
def ReachesVolume (o : Outcome) (d : Datagram) : Prop :=
  o.udpNew = true ∧ o.udpBind = true ∧ (tftpDecodeOp d.p = .rrq ∨ tftpDecodeOp d.p = .wrq)

instance (o : Outcome) (d : Datagram) : Decidable (ReachesVolume o d) :=
  inferInstanceAs (Decidable (_ ∧ _ ∧ _))

/-- A request reaches the volume only while no session runs. -/
def NoOverlap (w : World) : Event → Prop
  | .request o d => ReachesVolume o d → ∀ n < w.nextPcb, hasSession w n = false
  | .datagram .. => True

instance (w : World) (ev : Event) : Decidable (NoOverlap w ev) :=
  match ev with
  | .request o d => inferInstanceAs (Decidable (ReachesVolume o d →
      ∀ n < w.nextPcb, hasSession w n = false))
  | .datagram .. => isTrue trivial

/-! ### Sent bytes -/

section Sent
variable (upcb : Nat) (trace es : List Effect)

/-- The bytes that a session has sent are found part by part. -/
@[simp] theorem sentBytes_append :
    sentBytes upcb (trace ++ es) = sentBytes upcb trace ++ sentBytes upcb es :=
  List.flatMap_append

/-- Nothing was sent at first. -/
@[simp] theorem sentBytes_nil : sentBytes upcb [] = [] := rfl

/-- The first effect may hold bytes of the file, and then the others. -/
@[simp] theorem sentBytes_cons (e : Effect) :
    sentBytes upcb (e :: es) = dataBytes upcb e ++ sentBytes upcb es := rfl

/-- An error message holds none. -/
@[simp] theorem dataBytes_error (u : Nat) (ip : UInt32) (port : UInt16) (err : TftpErrorcode) :
    dataBytes upcb (.sendto u ip port (tftpErrorPacket err)) = [] := by
  have hop : tftpDecodeOp (.single (tftpErrorPacket err)) = .error := rfl
  simp [dataBytes, hop]

/-- Neither does an acknowledgement. -/
@[simp] theorem dataBytes_ack (u : Nat) (ip : UInt32) (port : UInt16) (block : Nat) :
    dataBytes upcb (.sendto u ip port (tftpAckPacket block)) = [] := by
  have hop : tftpDecodeOp (.single (tftpAckPacket block)) = .ack := rfl
  simp [dataBytes, hop]

/-- A data packet holds its payload, for the session that sends it. -/
@[simp] theorem dataBytes_data (u : Nat) (ip : UInt32) (port : UInt16) (block : Nat)
    (buf : List UInt8) :
    dataBytes upcb (.sendto u ip port (tftpDataPacket block buf)) =
      if u = upcb then buf else [] := by
  by_cases h : u = upcb
  · simp [dataBytes, h]
    rfl
  · simp [dataBytes, h]

/-- To free the arguments sends nothing. -/
@[simp] theorem dataBytes_memFree (u : Nat) : dataBytes upcb (.memFree u) = [] := rfl

/-- To remove the control block sends nothing. -/
@[simp] theorem dataBytes_udpRemove (u : Nat) : dataBytes upcb (.udpRemove u) = [] := rfl

/-- To free the pbuf sends nothing. -/
@[simp] theorem dataBytes_pbufFree : dataBytes upcb .pbufFree = [] := rfl

end Sent

/-! ### Datagrams for a write session -/

section WriteSession
variable {name : Path} {bytes : List UInt8} {w : World} {args : Args} {upcb : Nat} {d : Datagram}

/-- Before the acknowledgement the session has taken its part of the datagram, or a write without
room has ended it with the file closed. -/
theorem wrqAccept_cases (hst : Storing name bytes w) (o : Outcome)
    (hone : d.p.len = d.p.totLen) {w₁ : World} {args₁ : Args}
    (hacc : wrqAccept w args upcb d.p d.addr d.port o = (w₁, args₁)) :
    (∀ n, sentBytes n w₁.trace = sentBytes n w.trace) ∧
    ((w₁.pcbs = w.pcbs ∧ Storing name (bytes ++ taken args o d.p) w₁) ∨
      (w₁.pcbs upcb = none ∧ (w₁.file .fileCR).fs = none ∧
        fileContent w₁.vol name = some (bytes ++ taken args o d.p))) := by
  by_cases hwrite : tftpDataPktHdrLen < d.p.len ∧ tftpExtractBlock d.p = args.block + 1
  · have htaken : taken args o d.p = (dataPayload d.p).take o.room := by
      rw [taken, if_pos ⟨hone, hwrite⟩]
    obtain ⟨fp, hfw, hst'⟩ := hst.fWrite (dataPayload d.p) o.room
    rw [wrqAccept, if_pos hwrite, ← dataPayload, hfw] at hacc
    rw [htaken]
    simp only at hacc
    split_ifs at hacc with hzero <;> obtain ⟨rfl, -⟩ := Prod.mk.inj hacc
    · -- nothing was written: the session is cleaned up before the acknowledgement
      refine ⟨fun n => ?_, Or.inr ⟨?_, ?_, ?_⟩⟩
      · simp [tftpCleanupWr, tftpSendErrorMessage, tftpSendMessage]
      · simp [tftpCleanupWr]
      · have hvalid : fp.valid w.vol = true := by simpa using hst'.valid
        simp [tftpCleanupWr, tftpSendErrorMessage, tftpSendMessage, fClose_fs hvalid]
      · exact (hst'.congr rfl rfl : Storing name _
          (tftpSendErrorMessage (w.setFile .fileCR fp) upcb d.addr d.port .fileNotFound)).cleanup
            upcb true
    · exact ⟨fun n => rfl, Or.inl ⟨rfl, hst'⟩⟩
  · have htaken : taken args o d.p = [] := by
      rw [taken, if_neg fun h => hwrite h.2]
    rw [wrqAccept, if_neg hwrite] at hacc
    rw [htaken, List.append_nil]
    split_ifs at hacc <;> obtain ⟨rfl, -⟩ := Prod.mk.inj hacc <;>
      exact ⟨fun n => rfl, Or.inl ⟨rfl, hst⟩⟩

/-- A second cleanup of the session leaves the files as the first one left them. -/
theorem fileContent_cleanup_again (u : Nat) (h : (w.file .fileCR).fs = none) (b : Bool) :
    fileContent (tftpCleanupWr w u b).vol name = fileContent w.vol name := by
  simp [tftpCleanupWr, fClose_invalid (valid_of_fs_none h)]

/-- A datagram for a write session sends no file bytes. The session goes on with its part of the
datagram stored, or it has ended and left it in its file. -/
theorem wrqRecvCallback_storing (hs : w.pcbs upcb = some (some (.wrqRecvCallback args)))
    (hst : Storing name bytes w) (o : Outcome) :
    (∀ n, sentBytes n (wrqRecvCallback w args upcb d.p d.addr d.port o).trace =
        sentBytes n w.trace) ∧
    ((∃ args', (wrqRecvCallback w args upcb d.p d.addr d.port o).pcbs upcb =
          some (some (.wrqRecvCallback args')) ∧
        Storing name (bytes ++ taken args o d.p)
          (wrqRecvCallback w args upcb d.p d.addr d.port o)) ∨
      ((wrqRecvCallback w args upcb d.p d.addr d.port o).pcbs upcb = none ∧
        fileContent (wrqRecvCallback w args upcb d.p d.addr d.port o).vol name =
          some (bytes ++ taken args o d.p))) := by
  by_cases hone : d.p.len = d.p.totLen
  -- a datagram in several buffers is dropped
  swap
  · have htaken : taken args o d.p = [] := by rw [taken, if_neg fun h => hone h.1]
    rw [wrqRecvCallback, if_pos hone, htaken, List.append_nil]
    exact ⟨fun n => rfl, Or.inl ⟨args, hs, hst⟩⟩
  rcases hacc : wrqAccept w args upcb d.p d.addr d.port o with ⟨w₁, args₁⟩
  obtain ⟨hsent, hcases⟩ := wrqAccept_cases hst o hone hacc
  rw [wrqRecvCallback, if_neg (not_not_intro hone), hacc]
  simp only
  split_ifs with hshort
  · -- the packet is taken for the last one
    refine ⟨fun n => ?_, Or.inr ⟨by simp [tftpCleanupWr], ?_⟩⟩
    · simp [tftpCleanupWr, tftpSendAckPacket, tftpSendMessage, hsent]
    · rcases hcases with ⟨-, hst'⟩ | ⟨-, hclosed, hfile⟩
      · exact (hst'.congr rfl rfl : Storing name _
          (tftpSendAckPacket w₁ upcb d.addr d.port args₁.block)).cleanup upcb true
      · have hclosed' : ((tftpSendAckPacket w₁ upcb d.addr d.port args₁.block).file
            .fileCR).fs = none := hclosed
        exact (fileContent_cleanup_again upcb hclosed' true).trans hfile
  · refine ⟨fun n => by simp [tftpSendAckPacket, tftpSendMessage, hsent], ?_⟩
    rcases hcases with ⟨hpcbs, hst'⟩ | ⟨hgone, -, hfile⟩
    · refine Or.inl ⟨args₁, ?_, hst'.congr ?_ ?_⟩
      · rw [World.emit_pcbs, World.storeArgs_pcbs]
        · simp
        · simp [tftpSendAckPacket, tftpSendMessage, hpcbs, hs]
      · simp [tftpSendAckPacket, tftpSendMessage]
      · simp [tftpSendAckPacket, tftpSendMessage]
    · -- the arguments that were freed are not stored again
      have hgone' : (tftpSendAckPacket w₁ upcb d.addr d.port args₁.block).pcbs upcb = none := hgone
      rw [World.storeArgs_none _ hgone']
      exact Or.inr ⟨hgone, hfile⟩

end WriteSession

/-! ### Datagrams for a read session -/

/-- A datagram for a read session sends the next bytes of its file, or ends the session. The
session goes on with the position moved behind them. A short block in the buffer ends it without
a packet. -/
theorem rrqRecvCallback_reading {name : Path} {content : List UInt8} {pos : Nat} {w : World}
    {args : Args} {upcb : Nat} {d : Datagram}
    (hs : w.pcbs upcb = some (some (.rrqRecvCallback args)))
    (hr : Reading name content pos w) :
    ((∀ n, sentBytes n (rrqRecvCallback w args upcb d.p d.addr d.port).trace =
          sentBytes n w.trace) ∧
        (rrqRecvCallback w args upcb d.p d.addr d.port).pcbs upcb = none) ∨
      (∃ args' buf, buf = (content.drop pos).take tftpDataLenMax ∧
        (∀ n, sentBytes n (rrqRecvCallback w args upcb d.p d.addr d.port).trace =
          sentBytes n w.trace ++ if upcb = n then buf else []) ∧
        (rrqRecvCallback w args upcb d.p d.addr d.port).pcbs upcb =
          some (some (.rrqRecvCallback args')) ∧
        Reading name content (pos + buf.length)
          (rrqRecvCallback w args upcb d.p d.addr d.port)) := by
  by_cases hlast : args.dataLen < tftpDataLenMax
  · rw [rrqRecvCallback_last _ _ _ _ _ _ hlast]
    exact Or.inl ⟨fun n => by simp [tftpCleanupRd], by simp [tftpCleanupRd]⟩
  · rw [rrqRecvCallback_next _ _ _ _ _ _ hlast, hr.fRead]
    refine Or.inr ⟨{ args with
        block := rrqCount args d.p
        data := (content.drop pos).take tftpDataLenMax }, _, rfl,
      fun n => by simp [tftpSendMessage], ?_, hr.moved ?_ ?_⟩
    · rw [World.emit_pcbs, World.storeArgs_pcbs]
      · simp
      · simp [tftpSendMessage, hs]
    · simp [tftpSendMessage]
    · simp [tftpSendMessage]

/-! ### Requests without a session -/

section Idle
variable {o : Outcome} {w : World} {upcb : Nat} {ip : UInt32} {port : UInt16}
  {name : List UInt8}

/-- An RRQ that starts no session sends an error message. -/
theorem tftpProcessRead_idle
    (h : ∀ recv, (tftpProcessRead o w upcb ip port name).pcbs upcb ≠ some (some recv)) (n : Nat) :
    sentBytes n (tftpProcessRead o w upcb ip port name).trace = sentBytes n w.trace := by
  rcases hopen : fOpen w.vol (w.file .fileSD) name { faRead := true } o.slot with ⟨res, fp, vol⟩
  unfold tftpProcessRead at h ⊢
  simp only [hopen] at h ⊢
  split_ifs with hres hmem
  · simp [tftpCleanupRd, tftpSendErrorMessage, tftpSendMessage]
  · simp [tftpCleanupRd, tftpSendErrorMessage, tftpSendMessage]
  · rw [if_neg hres, if_neg hmem, tftpSendNextBlock_eq] at h
    simp [World.storeArgs, tftpSendMessage] at h

/-- A WRQ sends no file bytes. -/
theorem tftpProcessWrite_sent (n : Nat) :
    sentBytes n (tftpProcessWrite o w upcb ip port name).trace = sentBytes n w.trace := by
  unfold tftpProcessWrite
  rcases fOpen w.vol (w.file .fileCR) name { faCreateAlways := true, faWrite := true } o.slot
    with ⟨res, fp, vol⟩
  simp only
  split_ifs <;>
    simp [tftpCleanupWr, tftpSendErrorMessage, tftpSendAckPacket, tftpSendMessage]

/-- A request that starts no session sends no file bytes. By how it ends: with nothing sent, or with
an error message. -/
theorem request_idle {d : Datagram}
    (h : ∀ recv, (step w (.request o d)).pcbs w.nextPcb ≠ some (some recv)) (n : Nat) :
    sentBytes n (step w (.request o d)).trace = sentBytes n w.trace := by
  simp only [step, recvCallbackTftp, World.emit_pcbs] at h
  simp only [step, recvCallbackTftp, World.emit_trace, sentBytes_append, sentBytes_cons,
    dataBytes_pbufFree, sentBytes_nil, List.append_nil]
  rcases processTftpRequest_cases o w d with hc | ⟨vol, hc⟩ | ⟨err, hc⟩ | ⟨-, hc⟩ | ⟨-, hc⟩
  · rw [hc]
  · rw [hc]
    rfl
  · rw [hc]
    simp
  · rw [hc] at h ⊢
    exact tftpProcessRead_idle h n
  · rw [hc]
    exact tftpProcessWrite_sent n

end Idle

/-- A request that does not reach the volume changes neither it nor the open files, and starts no
session. -/
theorem request_not_reaching {o : Outcome} {w : World} {d : Datagram} (hfresh : Fresh w)
    (hr : ¬ ReachesVolume o d) :
    (step w (.request o d)).vol = w.vol ∧ (step w (.request o d)).file = w.file ∧
      ∀ recv, (step w (.request o d)).pcbs w.nextPcb ≠ some (some recv) := by
  have hnone : w.pcbs w.nextPcb = none := hfresh _ (Nat.le_refl _)
  simp only [step, recvCallbackTftp, World.emit_vol, World.emit_file, World.emit_pcbs]
  by_cases hnew : o.udpNew
  swap
  · simp [processTftpRequest, hnew, hnone]
  by_cases hbind : o.udpBind
  swap
  · simp [processTftpRequest, hnew, hbind]
  cases hop : tftpDecodeOp d.p with
  | rrq => exact absurd ⟨hnew, hbind, Or.inl hop⟩ hr
  | wrq => exact absurd ⟨hnew, hbind, Or.inr hop⟩ hr
  | data | ack | error | other b =>
    simp [processTftpRequest, hnew, hbind, hop, tftpSendErrorMessage, tftpSendMessage]

/-! ### One event -/

/-- What every run under the condition keeps: the sessions are isolated, at most one of them runs,
and the control blocks that have not been handed out have sent nothing. -/
structure Sound (w : World) (h : History) : Prop extends Isolated w h where
  fresh : Fresh w
  unsent : ∀ n, w.nextPcb ≤ n → sentBytes n w.trace = []
  single : ∀ n m recv recv', w.pcbs n = some (some recv) → w.pcbs m = some (some recv') → n = m

section Step
variable {w w' : World} {h h' : History}

/-- A state in which no session runs. -/
theorem Sound.of_idle (hidle : ∀ n recv, w.pcbs n ≠ some (some recv)) (hfresh : Fresh w)
    (hunsent : ∀ n, w.nextPcb ≤ n → sentBytes n w.trace = [])
    (hread : ∀ n s, h n = some s → sentBytes n w.trace <+: s.source)
    (hresult : ∀ n s bytes, h n = some s → s.result = some bytes → bytes = s.stored) :
    Sound w h where
  read := hread
  openRead n _ hs := absurd hs (hidle n _)
  openWrite n _ hs := absurd hs (hidle n _)
  result := hresult
  fresh := hfresh
  unsent := hunsent
  single n _ recv _ hs _ := absurd hs (hidle n recv)

/-- A state in which the session on `upcb` is the only one. -/
theorem Sound.of_single (hx : Sound w h) {upcb : Nat} {recv : RecvFn}
    (hs : w.pcbs upcb = some (some recv)) {n : Nat} (hn : n ≠ upcb) :
    ∀ recv', w.pcbs n ≠ some (some recv') := fun recv' hs' =>
  hn (hx.single n upcb recv' recv hs' hs)

/-- The history does not change with a request that starts no session. -/
theorem record_request_idle {o : Outcome} {d : Datagram}
    (hno : ∀ recv, (step w (.request o d)).pcbs w.nextPcb ≠ some (some recv)) :
    record w h (.request o d) = h := by
  simp only [record]

/-- A request that starts a session adds its record. -/
theorem record_request_session {o : Outcome} {d : Datagram} {recv : RecvFn}
    (hs : (step w (.request o d)).pcbs w.nextPcb = some (some recv)) :
    record w h (.request o d) = Function.update h w.nextPcb (some
      { name := tftpExtractFilename d.p
        source := (fileContent w.vol (tftpExtractFilename d.p)).getD [] }) := by
  simp only [record, hs]

/-- No control block beyond the new ones has sent anything after a request. A request uses the next
block at most, and with it the number of the next one goes up. -/
theorem unsent_request (hx : Sound w h) {o : Outcome} {d : Datagram}
    (hsent : ∀ n, n ≠ w.nextPcb →
      sentBytes n (step w (.request o d)).trace = sentBytes n w.trace)
    (hno : (step w (.request o d)).nextPcb = w.nextPcb →
      sentBytes w.nextPcb (step w (.request o d)).trace = sentBytes w.nextPcb w.trace) :
    ∀ n, (step w (.request o d)).nextPcb ≤ n →
      sentBytes n (step w (.request o d)).trace = [] := by
  intro n hn
  have hle : w.nextPcb ≤ n := by
    rcases request_nextPcb with ⟨-, hnext⟩ | hnext <;> rw [hnext] at hn <;> omega
  by_cases heq : n = w.nextPcb
  · subst heq
    rcases request_nextPcb with ⟨-, hnext⟩ | hnext
    · exact (hno hnext).trans (hx.unsent _ (Nat.le_refl _))
    · rw [hnext] at hn
      omega
  · exact (hsent n heq).trans (hx.unsent n hle)

/-- A request that starts no session. It may have mounted the volume and opened the root directory,
but there is no session that could notice. -/
theorem sound_request_idle (hx : Sound w h) {o : Outcome} {d : Datagram}
    (hd : NoOverlap w (.request o d))
    (hno : ∀ recv, (step w (.request o d)).pcbs w.nextPcb ≠ some (some recv)) :
    Sound (step w (.request o d)) (record w h (.request o d)) := by
  have hsent := request_idle hno
  have hpcbs : ∀ n recv, (step w (.request o d)).pcbs n = some (some recv) →
      w.pcbs n = some (some recv) := by
    intro n recv hs
    by_cases hn : n = w.nextPcb
    · exact absurd (hn ▸ hs) (hno recv)
    · rwa [request_pcbs_of_ne hn] at hs
  have hunsent := unsent_request hx (fun n _ => hsent n) (fun _ => hsent w.nextPcb)
  have hread : ∀ n s, h n = some s → sentBytes n (step w (.request o d)).trace <+: s.source := by
    intro n s hs
    rw [hsent]
    exact hx.read n s hs
  rw [record_request_idle hno]
  by_cases hr : ReachesVolume o d
  · refine Sound.of_idle ?_ (fresh_request hx.fresh) hunsent hread hx.result
    intro n recv hs
    have hs' := hpcbs n recv hs
    have hidle := hd hr n (hx.fresh.lt hs')
    simp [hasSession, hs'] at hidle
  · obtain ⟨hvol, hfile, -⟩ := request_not_reaching hx.fresh hr
    exact {
      read := hread
      openRead := fun n args hs => by
        obtain ⟨s, hn, hopen⟩ := hx.openRead n args (hpcbs n _ hs)
        exact ⟨s, hn, hsent n ▸ hopen.congr hvol (by rw [hfile])⟩
      openWrite := fun n args hs => by
        obtain ⟨s, hn, hres, hopen⟩ := hx.openWrite n args (hpcbs n _ hs)
        exact ⟨s, hn, hres, hopen.congr hvol (by rw [hfile])⟩
      result := hx.result
      fresh := fresh_request hx.fresh
      unsent := hunsent
      single := fun n m recv recv' hn hm =>
        hx.single n m recv recv' (hpcbs n recv hn) (hpcbs m recv' hm) }

/-- The only session is the one that a request has just started. -/
theorem single_request (hidle : ∀ n recv, w.pcbs n ≠ some (some recv)) {upcb : Nat}
    {pcb : Option (Option RecvFn)} (hpcbs : w'.pcbs = Function.update w.pcbs upcb pcb) {n : Nat}
    {recv : RecvFn} (hs : w'.pcbs n = some (some recv)) : n = upcb := by
  by_contra hn
  rw [hpcbs, Function.update_of_ne hn] at hs
  exact hidle n recv hs

/-- A history in which one record is replaced by one whose result is what it stored. -/
theorem result_update (hx : Sound w h) {upcb : Nat} {s' : Session}
    (hres : ∀ bytes, s'.result = some bytes → bytes = s'.stored) (n : Nat) (t : Session)
    (bytes : List UInt8) (ht : Function.update h upcb (some s') n = some t)
    (hbytes : t.result = some bytes) : bytes = t.stored := by
  by_cases heq : n = upcb
  · subst heq
    obtain rfl : s' = t := by simpa using ht
    exact hres bytes hbytes
  · rw [Function.update_of_ne heq] at ht
    exact hx.result n t bytes ht hbytes

/-- A request that starts a read session. It is the only one, since the condition asks for a volume
without sessions, and has sent the first bytes of its file. -/
theorem sound_request_rrq (hx : Sound w h) {o : Outcome} {d : Datagram} {recv : RecvFn}
    (hidle : ∀ n recv, w.pcbs n ≠ some (some recv)) (hop : tftpDecodeOp d.p = .rrq)
    (hs : (step w (.request o d)).pcbs w.nextPcb = some (some recv)) :
    Sound (step w (.request o d)) (record w h (.request o d)) := by
  have hnone : w.pcbs w.nextPcb = none := hx.fresh _ (Nat.le_refl _)
  obtain ⟨content, hfile, hrecv, hopen, hpcbs, hnext, htrace⟩ := request_reading hnone hop hs
  have hsent : ∀ n, sentBytes n (step w (.request o d)).trace =
      sentBytes n w.trace ++ if w.nextPcb = n then content.take tftpDataLenMax else [] := by
    intro n
    simp [htrace]
  have hunsent : sentBytes w.nextPcb w.trace = [] := hx.unsent _ (Nat.le_refl _)
  have honly : ∀ n recv', (step w (.request o d)).pcbs n = some (some recv') → n = w.nextPcb :=
    fun n recv' hn => single_request hidle hpcbs hn
  rw [record_request_session hs, hfile]
  exact {
    read := fun n s hn => by
      rw [hsent]
      by_cases heq : n = w.nextPcb
      · subst heq
        obtain rfl := by simpa using hn
        simpa [hunsent] using List.take_prefix _ _
      · rw [Function.update_of_ne heq] at hn
        simpa [Ne.symm heq] using hx.read n s hn
    -- the only session is the new one, and it has sent the first block of its file
    openRead := fun n args hn => by
      obtain rfl := honly n _ hn
      refine ⟨_, Function.update_self _ _ _, ?_⟩
      rw [hsent, hunsent, if_pos rfl, List.nil_append]
      exact hopen
    openWrite := fun n args hn => by
      obtain rfl := honly n _ hn
      rw [hs, hrecv] at hn
      cases hn
    result := result_update hx fun _ hres => by cases hres
    fresh := fresh_request hx.fresh
    unsent := unsent_request hx (fun n hn => by rw [hsent, if_neg (Ne.symm hn), List.append_nil])
      (fun hsame => by rw [hnext] at hsame; omega)
    single := fun n m recv' recv'' hn hm => (honly n recv' hn).trans (honly m recv'' hm).symm }

/-- A request that starts a write session. It is the only one. Its file was created or emptied, and
nothing is stored yet. -/
theorem sound_request_wrq (hx : Sound w h) {o : Outcome} {d : Datagram} {recv : RecvFn}
    (hidle : ∀ n recv, w.pcbs n ≠ some (some recv)) (hop : tftpDecodeOp d.p = .wrq)
    (hs : (step w (.request o d)).pcbs w.nextPcb = some (some recv)) :
    Sound (step w (.request o d)) (record w h (.request o d)) := by
  have hnone : w.pcbs w.nextPcb = none := hx.fresh _ (Nat.le_refl _)
  obtain ⟨hrecv, hopen, hpcbs, hnext, htrace⟩ := request_storing hnone hop hs
  have hsent : ∀ n, sentBytes n (step w (.request o d)).trace = sentBytes n w.trace := by
    intro n
    simp [htrace]
  have hunsent : sentBytes w.nextPcb w.trace = [] := hx.unsent _ (Nat.le_refl _)
  have honly : ∀ n recv', (step w (.request o d)).pcbs n = some (some recv') → n = w.nextPcb :=
    fun n recv' hn => single_request hidle hpcbs hn
  rw [record_request_session hs]
  exact {
    read := fun n s hn => by
      rw [hsent]
      by_cases heq : n = w.nextPcb
      · subst heq
        rw [hunsent]
        exact List.nil_prefix
      · rw [Function.update_of_ne heq] at hn
        exact hx.read n s hn
    openRead := fun n args hn => by
      obtain rfl := honly n _ hn
      rw [hs, hrecv] at hn
      cases hn
    openWrite := fun n args hn => by
      obtain rfl := honly n _ hn
      exact ⟨_, Function.update_self _ _ _, rfl, hopen⟩
    result := result_update hx fun _ hres => by cases hres
    fresh := fresh_request hx.fresh
    unsent := unsent_request hx (fun n _ => hsent n) (fun _ => hsent w.nextPcb)
    single := fun n m recv' recv'' hn hm => (honly n recv' hn).trans (honly m recv'' hm).symm }

/-- A datagram for a read session. What it has sent is extended by what comes next in the file, or
the session ends with what it has sent so far. -/
theorem sound_datagram_rrq (hx : Sound w h) {upcb : Nat} {args : Args}
    (hs : w.pcbs upcb = some (some (.rrqRecvCallback args))) (o : Outcome) (d : Datagram) :
    Sound (step w (.datagram upcb o d)) (record w h (.datagram upcb o d)) := by
  have hstep : step w (.datagram upcb o d) = rrqRecvCallback w args upcb d.p d.addr d.port := by
    simp [step, hs]
  have hrec : record w h (.datagram upcb o d) = h := by
    simp [record, wrqArgs, hs]
  have hothers : ∀ n, n ≠ upcb → ∀ recv,
      (rrqRecvCallback w args upcb d.p d.addr d.port).pcbs n ≠ some (some recv) := by
    intro n hn recv
    rw [rrqRecvCallback_pcbs hn]
    exact hx.of_single hs hn recv
  have hfresh : Fresh (rrqRecvCallback w args upcb d.p d.addr d.port) :=
    hstep ▸ fresh_step hx.fresh (.datagram upcb o d)
  have hlt : upcb < w.nextPcb := hx.fresh.lt hs
  obtain ⟨s, hn, hopen⟩ := hx.openRead upcb args hs
  rw [hstep, hrec]
  rcases rrqRecvCallback_reading (d := d) hs hopen with
    ⟨hsent, hgone⟩ | ⟨args', buf, hbuf, hsent, hlive, hopen'⟩
  · refine Sound.of_idle ?_ hfresh ?_ ?_ hx.result
    · intro n recv hr
      by_cases heq : n = upcb
      · rw [heq, hgone] at hr
        cases hr
      · exact hothers n heq recv hr
    · intro n hle
      rw [rrqRecvCallback_nextPcb] at hle
      rw [hsent]
      exact hx.unsent n hle
    · intro n s' hs'
      rw [hsent]
      exact hx.read n s' hs'
  · have honly : ∀ n recv, (rrqRecvCallback w args upcb d.p d.addr d.port).pcbs n =
        some (some recv) → n = upcb := fun n recv hr => by
      by_contra heq
      exact hothers n heq recv hr
    have hprefix : sentBytes upcb w.trace ++ buf <+: s.source := by
      -- what was sent is the part of the file before the position, the next read follows it
      have hpre := List.prefix_iff_eq_take.mp (hx.read upcb s hn)
      calc sentBytes upcb w.trace ++ buf
          = s.source.take (sentBytes upcb w.trace).length ++
              (s.source.drop (sentBytes upcb w.trace).length).take tftpDataLenMax := by
            rw [← hpre, hbuf]
        _ = s.source.take ((sentBytes upcb w.trace).length + tftpDataLenMax) :=
            List.take_add.symm
        _ <+: s.source := List.take_prefix _ _
    exact {
      read := fun n s' hs' => by
        rw [hsent]
        by_cases heq : upcb = n
        · subst heq
          obtain rfl : s = s' := Option.some.inj (hn.symm.trans hs')
          simpa using hprefix
        · simpa [heq] using hx.read n s' hs'
      openRead := fun n args'' hr => by
        obtain rfl := honly n _ hr
        refine ⟨s, hn, ?_⟩
        rw [hsent, if_pos rfl, List.length_append]
        exact hopen'
      openWrite := fun n args'' hr => by
        obtain rfl := honly n _ hr
        rw [hlive] at hr
        cases hr
      result := hx.result
      fresh := hfresh
      unsent := fun n hle => by
        rw [rrqRecvCallback_nextPcb] at hle
        rw [hsent, if_neg (by omega), List.append_nil]
        exact hx.unsent n hle
      single := fun n m recv recv' hr hr' => (honly n recv hr).trans (honly m recv' hr').symm }

/-- A history whose record of one session keeps the source is a history of prefixes if no file
bytes were sent. -/
theorem read_update (hx : Sound w h) {upcb : Nat} {s s' : Session} (hn : h upcb = some s)
    (hsource : s'.source = s.source)
    (hsent : ∀ n, sentBytes n w'.trace = sentBytes n w.trace) (n : Nat) (t : Session)
    (ht : Function.update h upcb (some s') n = some t) : sentBytes n w'.trace <+: t.source := by
  rw [hsent]
  by_cases heq : n = upcb
  · subst heq
    obtain rfl : s' = t := by simpa using ht
    rw [hsource]
    exact hx.read n s hn
  · rw [Function.update_of_ne heq] at ht
    exact hx.read n t ht

/-- A datagram for a write session. What it has stored is extended by the payload that it takes. At
the end the file is looked at, and holds what was stored. -/
theorem sound_datagram_wrq (hx : Sound w h) {upcb : Nat} {args : Args}
    (hs : w.pcbs upcb = some (some (.wrqRecvCallback args))) (o : Outcome) (d : Datagram) :
    Sound (step w (.datagram upcb o d)) (record w h (.datagram upcb o d)) := by
  have hstep : step w (.datagram upcb o d) = wrqRecvCallback w args upcb d.p d.addr d.port o := by
    simp [step, hs]
  -- only the control block of the session has a receive callback
  have hothers : ∀ n, n ≠ upcb → ∀ recv,
      (wrqRecvCallback w args upcb d.p d.addr d.port o).pcbs n ≠ some (some recv) := by
    intro n hn recv
    rw [wrqRecvCallback_pcbs hn]
    exact hx.of_single hs hn recv
  have hfresh : Fresh (wrqRecvCallback w args upcb d.p d.addr d.port o) :=
    hstep ▸ fresh_step hx.fresh (.datagram upcb o d)
  obtain ⟨s, hn, hnores, hopen⟩ := hx.openWrite upcb args hs
  obtain ⟨hsent, hcases⟩ := wrqRecvCallback_storing (d := d) hs hopen o
  have hunsent : ∀ n, (wrqRecvCallback w args upcb d.p d.addr d.port o).nextPcb ≤ n →
      sentBytes n (wrqRecvCallback w args upcb d.p d.addr d.port o).trace = [] := by
    intro n hle
    rw [wrqRecvCallback_nextPcb] at hle
    rw [hsent]
    exact hx.unsent n hle
  rcases hcases with ⟨args', hlive, hopen'⟩ | ⟨hgone, hfile⟩
  · have hrec : record w h (.datagram upcb o d) = Function.update h upcb (some
        { s with stored := s.stored ++ taken args o d.p }) := by
      simp [record, wrqArgs, hs, hn, hstep, hlive]
    -- the session goes on with the block appended
    have honly : ∀ n recv, (wrqRecvCallback w args upcb d.p d.addr d.port o).pcbs n =
        some (some recv) → n = upcb := fun n recv hr => by
      by_contra heq
      exact hothers n heq recv hr
    rw [hstep, hrec]
    exact {
      read := read_update hx hn rfl hsent
      openRead := fun n args'' hr => by
        obtain rfl := honly n _ hr
        rw [hlive] at hr
        cases hr
      openWrite := fun n args'' hr => by
        obtain rfl := honly n _ hr
        exact ⟨_, Function.update_self _ _ _, hnores, hopen'⟩
      result := result_update hx fun bytes hbytes => by
        rw [hnores] at hbytes
        cases hbytes
      fresh := hfresh
      unsent := hunsent
      single := fun n m recv recv' hr hr' => (honly n recv hr).trans (honly m recv' hr').symm }
  · have hrec : record w h (.datagram upcb o d) = Function.update h upcb (some
        { s with
          stored := s.stored ++ taken args o d.p
          result := some (s.stored ++ taken args o d.p) }) := by
      simp [record, wrqArgs, hs, hn, hstep, hgone, hfile]
    rw [hstep, hrec]
    -- the last block: the file is closed, and the server is idle again
    refine Sound.of_idle ?_ hfresh hunsent (read_update hx hn rfl hsent)
      (result_update hx fun bytes hbytes => (Option.some.inj hbytes).symm)
    intro n recv hr
    by_cases heq : n = upcb
    · rw [heq, hgone] at hr
      cases hr
    · exact hothers n heq recv hr

/-- One event under the condition. By the kind of the event and the callback of the control
block. -/
theorem sound_step (hx : Sound w h) {ev : Event} (hd : NoOverlap w ev) :
    Sound (step w ev) (record w h ev) := by
  cases ev with
  | request o d =>
    cases hs : (step w (.request o d)).pcbs w.nextPcb with
    | none => exact sound_request_idle hx hd fun recv => by simp [hs]
    | some pcb =>
      cases pcb with
      | none => exact sound_request_idle hx hd fun recv => by simp [hs]
      | some recv =>
        have hr : ReachesVolume o d := by
          by_contra hr
          exact (request_not_reaching hx.fresh hr).2.2 recv hs
        -- a request that reaches the volume has found no session, by the condition
        have hidle : ∀ n recv', w.pcbs n ≠ some (some recv') := by
          intro n recv' hn
          have hno := hd hr n (hx.fresh.lt hn)
          simp [hasSession, hn] at hno
        rcases hr.2.2 with hop | hop
        · exact sound_request_rrq hx hidle hop hs
        · exact sound_request_wrq hx hidle hop hs
  | datagram upcb o d =>
    cases hs : w.pcbs upcb with
    | none => simpa [step, record, wrqArgs, hs] using hx
    | some pcb =>
      cases pcb with
      | none => simpa [step, record, wrqArgs, hs] using hx
      | some recv =>
        cases recv with
        | rrqRecvCallback args => exact sound_datagram_rrq hx hs o d
        | wrqRecvCallback args => exact sound_datagram_wrq hx hs o d

end Step

/-! ### Runs -/

/-- At the start there is no session. -/
theorem sound_init (vol : Volume) : Sound (World.init vol) (fun _ => none) :=
  Sound.of_idle (fun _ _ hs => by cases hs) (fresh_init vol) (fun _ _ => rfl)
    (fun _ _ hs => by cases hs) (fun _ _ _ hs => by cases hs)

/-- Over every interleaving of requests and session datagrams in which a request reaches the volume
only while no session runs, the sessions are isolated, and a datagram for one session does not
touch the control block of another. -/
theorem sessions_isolated (vol : Volume) (es : List Event) :
    Along recordStep (fun x ev => NoOverlap x.1 ev) (World.init vol, fun _ => none) es →
    let x := run recordStep (World.init vol, fun _ => none) es
    Isolated x.1 x.2 ∧ ∀ n upcb o d, n ≠ upcb →
      (step x.1 (.datagram upcb o d)).pcbs n = x.1.pcbs n := by
  intro hes x
  have hstep : ∀ (x : World × History) ev, Sound x.1 x.2 → NoOverlap x.1 ev →
      Sound (recordStep x ev).1 (recordStep x ev).2 := fun _ _ hx hd => sound_step hx hd
  exact ⟨(EventRun.run_inv hstep (sound_init vol) hes).toIsolated,
    fun _ _ _ _ hn => datagram_pcbs_of_ne hn⟩

/-- A client writes `A`, and when it is done another one reads it back. -/
theorem sessions_isolated_in_turn :
    let es : List Event := [.request {} writeA, .datagram 0 { room := 8 } (dataBlock 1 [7]),
      .request {} readA, .datagram 1 {} { p := .single (tftpAckPacket 1) }]
    let x := run recordStep (World.init emptyVol, fun _ => none) es
    Isolated x.1 x.2 ∧ ∀ n upcb o d, n ≠ upcb →
      (step x.1 (.datagram upcb o d)).pcbs n = x.1.pcbs n :=
  sessions_isolated emptyVol [.request {} writeA, .datagram 0 { room := 8 } (dataBlock 1 [7]),
    .request {} readA, .datagram 1 {} { p := .single (tftpAckPacket 1) }] (by decide)

/-! ### Two read sessions at once -/

/-- A volume with two files of two blocks, `A` and `B`. -/
def twoFileVol : Volume :=
  { twoBlockVol with
    nodes := fun e =>
      if e = textBytes "B" then some (.file (List.replicate 512 1 ++ [8]))
      else twoBlockVol.nodes e }

/-- The read request for `B`. -/
def readB : Datagram := { p := .single ([0, 1] ++ textBytes "B" ++ [0]) }

/-- A client that reads `A` gets the second block of `B` once another client reads `B`. -/
theorem sessions_share_file_SD :
    let x := run recordStep (World.init twoFileVol, fun _ => none)
      [.request {} readA, .request {} readB, .datagram 0 {} { p := .single (tftpAckPacket 1) }]
    (x.2 0).map Session.source = some (List.replicate 512 0 ++ [7]) ∧
      sentBytes 0 x.1.trace = List.replicate 512 0 ++ [8] ∧ ¬ Isolated x.1 x.2 := by
  intro x
  have hsource : (x.2 0).map Session.source = some (List.replicate 512 0 ++ [7]) := by
    decide +kernel
  have hsent : sentBytes 0 x.1.trace = List.replicate 512 0 ++ [8] := by decide +kernel
  refine ⟨hsource, hsent, fun h => ?_⟩
  obtain ⟨s, hs, hsrc⟩ := Option.map_eq_some_iff.mp hsource
  have hpre := h.read 0 s hs
  rw [hsrc, hsent] at hpre
  exact absurd hpre (by decide +kernel)

end NucleoH743.Proofs.Tftp
