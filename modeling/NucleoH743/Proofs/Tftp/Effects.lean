import NucleoH743.Proofs.Tftp.Session
import Mathlib.Data.List.Basic

/-!
# `Proofs.Tftp.Effects`: what one event hands to the network and the allocators

`effects w ev` are the effects that the event `ev` adds to the trace. The lemmas below give them
and the control block of the session for each kind of event.

The trace of a run is the sequence of the effects of its events. The statements on acknowledgements,
on resources and on the ends of sessions all speak about the effects of one event, and these are
computed here once, by the kind of the event and the branch that it takes.

For a datagram the callback of its control block is either that of a read session or that of a write
session, or there is none. For a request there are four ways to end (`request_ends`). The last part
says that an event does nothing to the control blocks of others, and nothing to one that is not
allocated.

- `rrq_effects_last`, `rrq_effects_next`: a datagram for a read session.
- `wrq_effects`, `wrq_pcb`: a datagram for a write session, chained pbufs apart.
- `request_ends`: a datagram on port 69.
-/

set_option autoImplicit false

namespace NucleoH743.Tftp

open NucleoH743.FatFs

/-- The control block that the effect is about. -/
def Effect.pcb : Effect → Option Nat
  | .sendto u _ _ _ | .memFree u | .udpRemove u => some u
  | .pbufFree => none

/-- The effects of an event. -/
def effects (w : World) (ev : SharedEvent) : List Effect :=
  (sharedStep w ev).trace.drop w.trace.length

/-- The effects of an event are what its step adds to the trace. -/
theorem effects_eq {w : World} {ev : SharedEvent} {es : List Effect}
    (h : (sharedStep w ev).trace = w.trace ++ es) : effects w ev = es := by
  rw [effects, h, List.drop_left]

/-- A change of the volume by others has no effect on the network. -/
@[simp] theorem effects_disk (w : World) (vol : Volume) : effects w (.disk vol) = [] :=
  effects_eq (List.append_nil _).symm

/-- The control block has a read session, a write session or none. -/
theorem session_cases (w : World) (upcb : Nat) :
    (∀ recv, w.pcbs upcb ≠ some (some recv)) ∨
    (∃ args, w.pcbs upcb = some (some (.rrqRecvCallback args))) ∨
    (∃ args, w.pcbs upcb = some (some (.wrqRecvCallback args))) := by
  match hs : w.pcbs upcb with
  | none => exact .inl fun _ h => nomatch h
  | some none => exact .inl fun _ h => nomatch h
  | some (some (.rrqRecvCallback args)) => exact .inr (.inl ⟨args, rfl⟩)
  | some (some (.wrqRecvCallback args)) => exact .inr (.inr ⟨args, rfl⟩)

/-- A datagram for no session is dropped. -/
theorem noSession_step {w : World} {upcb : Nat} (h : ∀ recv, w.pcbs upcb ≠ some (some recv))
    (o : Outcome) (d : Datagram) : sharedStep w (.server (.datagram upcb o d)) = w := by
  simp only [sharedStep, step]
  split
  · exact absurd ‹_› (h _)
  · exact absurd ‹_› (h _)
  · rfl

/-- A datagram for a block without a session is dropped. -/
theorem noSession_effects {w : World} {upcb : Nat} (h : ∀ recv, w.pcbs upcb ≠ some (some recv))
    (o : Outcome) (d : Datagram) : effects w (.server (.datagram upcb o d)) = [] :=
  effects_eq (by rw [noSession_step h, List.append_nil])

/-! ### Read sessions -/

section Read
variable {w : World} {args : Args} {upcb : Nat} {o : Outcome} {d : Datagram}

/-- A datagram for a read session is one call of its callback. -/
theorem rrqStep_eq (hs : w.pcbs upcb = some (some (.rrqRecvCallback args))) :
    sharedStep w (.server (.datagram upcb o d)) =
      rrqRecvCallback w args upcb d.p d.addr d.port := by
  simp only [sharedStep, step, hs]

/-- After a short block the datagram releases the session. -/
theorem rrq_effects_last (hs : w.pcbs upcb = some (some (.rrqRecvCallback args)))
    (h : args.dataLen < tftpDataLenMax) :
    effects w (.server (.datagram upcb o d)) = [.memFree upcb, .udpRemove upcb, .pbufFree] ∧
      (sharedStep w (.server (.datagram upcb o d))).pcbs upcb = none := by
  have hstep := rrqStep_eq (o := o) (d := d) hs
  rw [rrqRecvCallback_last _ _ _ _ _ _ h] at hstep
  constructor
  · refine effects_eq ?_
    rw [hstep]
    simp [tftpCleanupRd]
  · rw [hstep]
    simp [tftpCleanupRd]

/-- Any other datagram sends what the file object gives next. -/
theorem rrq_effects_next (hs : w.pcbs upcb = some (some (.rrqRecvCallback args)))
    (h : ¬ args.dataLen < tftpDataLenMax) :
    ∃ data, effects w (.server (.datagram upcb o d)) =
        [.sendto upcb d.addr d.port (tftpDataPacket (rrqCount args d.p) data), .pbufFree] ∧
      (sharedStep w (.server (.datagram upcb o d))).pcbs upcb =
        some (some (.rrqRecvCallback { args with block := rrqCount args d.p, data })) := by
  have hstep := rrqStep_eq (o := o) (d := d) hs
  rw [rrqRecvCallback_next _ _ _ _ _ _ h] at hstep
  refine ⟨(fRead w.vol (w.file .fileSD) tftpDataLenMax).2.1, effects_eq ?_, ?_⟩
  · rw [hstep]
    simp [tftpSendMessage]
  · rw [hstep]
    simp [World.storeArgs, tftpSendMessage, hs]

end Read

/-! ### Write sessions -/

section Write
variable (w : World) (args : Args) (upcb : Nat) (p : Pbuf) (addr : UInt32) (port : UInt16)
  (o : Outcome)

/-- The datagram has the number of the next block, and bytes to write. -/
def WrqTakes : Prop := tftpDataPktHdrLen < p.len ∧ tftpExtractBlock p = args.block + 1

instance : Decidable (WrqTakes args p) := inferInstanceAs (Decidable (_ ∧ _))

/-- The block counter of a write session after a datagram. -/
def wrqCount : Nat := if tftpExtractBlock p = args.block + 1 then args.block + 1 else args.block

/-- The number of payload bytes that `f_write` takes. -/
def wrqWritten : Nat :=
  (fWrite w.vol (w.file .fileCR) (p.payload.drop tftpDataPktHdrLen) o.room).2.1

/-- The write of the payload fails altogether. -/
def WriteRejected : Prop := WrqTakes args p ∧ wrqWritten w p o = 0

instance : Decidable (WriteRejected w args p o) := inferInstanceAs (Decidable (_ ∧ _))

/-- What a write session hands out when its write is rejected. -/
def rejectEffects : List Effect :=
  [.sendto upcb addr port (tftpErrorPacket .fileNotFound), .memFree upcb, .udpRemove upcb]

/-- The part before the acknowledgement counts the block, and tears the session down when the
write is rejected. -/
theorem wrqAccept_spec :
    (wrqAccept w args upcb p addr port o).2.block = wrqCount args p ∧
    (wrqAccept w args upcb p addr port o).1.trace =
      w.trace ++ (if WriteRejected w args p o then rejectEffects upcb addr port else []) ∧
    (wrqAccept w args upcb p addr port o).1.pcbs upcb =
      if WriteRejected w args p o then none else w.pcbs upcb := by
  rcases hw : fWrite w.vol (w.file .fileCR) (p.payload.drop tftpDataPktHdrLen) o.room
    with ⟨res, n, fp⟩
  have hn : wrqWritten w p o = n := by rw [wrqWritten, hw]
  unfold wrqAccept
  by_cases htake : WrqTakes args p
  · have hcond : tftpDataPktHdrLen < p.len ∧ tftpExtractBlock p = args.block + 1 := htake
    have hrej : WriteRejected w args p o ↔ n = 0 := by
      rw [WriteRejected, hn]
      exact and_iff_right htake
    rw [if_pos hcond, hw]
    simp only [hrej, wrqCount, hcond.2, if_true]
    by_cases hzero : n = 0
    · simp [hzero, rejectEffects, tftpCleanupWr, tftpSendErrorMessage, tftpSendMessage]
    · simp [hzero]
  · have hcond : ¬ (tftpDataPktHdrLen < p.len ∧ tftpExtractBlock p = args.block + 1) := htake
    have hrej : ¬ WriteRejected w args p o := fun h => htake h.1
    rw [if_neg hcond, if_neg hrej, if_neg hrej, wrqCount]
    split_ifs with hblock
    · exact ⟨rfl, (List.append_nil _).symm, rfl⟩
    · exact ⟨rfl, (List.append_nil _).symm, rfl⟩

end Write

section WriteStep
variable {w : World} {args : Args} {upcb : Nat} {o : Outcome} {d : Datagram}

/-- So is a datagram for a write session. -/
theorem wrqStep_eq (hs : w.pcbs upcb = some (some (.wrqRecvCallback args))) :
    sharedStep w (.server (.datagram upcb o d)) =
      wrqRecvCallback w args upcb d.p d.addr d.port o := by
  simp only [sharedStep, step, hs]

/-- A chained pbuf is neither looked at nor freed. -/
theorem wrq_chained (hs : w.pcbs upcb = some (some (.wrqRecvCallback args)))
    (hone : d.p.len ≠ d.p.totLen) : sharedStep w (.server (.datagram upcb o d)) = w := by
  rw [wrqStep_eq hs, wrqRecvCallback, if_pos hone]

/-- A datagram in more than one pbuf has no effect on a write session: not even the pbuf is
freed. -/
theorem wrq_chained_effects (hs : w.pcbs upcb = some (some (.wrqRecvCallback args)))
    (hone : d.p.len ≠ d.p.totLen) : effects w (.server (.datagram upcb o d)) = [] :=
  effects_eq (by rw [wrq_chained hs hone, List.append_nil])

/-- The acknowledgement goes out whatever became of the write, and a short packet releases the
session whether it still exists or not. -/
theorem wrq_effects (hs : w.pcbs upcb = some (some (.wrqRecvCallback args)))
    (hone : d.p.len = d.p.totLen) :
    effects w (.server (.datagram upcb o d)) =
      (if WriteRejected w args d.p o then rejectEffects upcb d.addr d.port else []) ++
        (.sendto upcb d.addr d.port (tftpAckPacket (wrqCount args d.p)) ::
          (if d.p.len < tftpDataPktLenMax then [.memFree upcb, .udpRemove upcb] else [])) ++
        [.pbufFree] := by
  obtain ⟨hblock, htrace, -⟩ := wrqAccept_spec w args upcb d.p d.addr d.port o
  refine effects_eq ?_
  rw [wrqStep_eq hs, wrqRecvCallback, if_neg (not_not.mpr hone)]
  rcases hacc : wrqAccept w args upcb d.p d.addr d.port o with ⟨w', args'⟩
  rw [hacc] at hblock htrace
  simp only
  split_ifs with hshort <;>
    simp_all [tftpSendAckPacket, tftpSendMessage, tftpCleanupWr]

/-- The session lasts unless the packet is short or its write is rejected. By the results of the
part before the acknowledgement. -/
theorem wrq_pcb (hs : w.pcbs upcb = some (some (.wrqRecvCallback args)))
    (hone : d.p.len = d.p.totLen) :
    ∃ args', args'.block = wrqCount args d.p ∧
      (sharedStep w (.server (.datagram upcb o d))).pcbs upcb =
        if d.p.len < tftpDataPktLenMax ∨ WriteRejected w args d.p o then none
        else some (some (.wrqRecvCallback args')) := by
  obtain ⟨hblock, -, hpcb⟩ := wrqAccept_spec w args upcb d.p d.addr d.port o
  rw [wrqStep_eq hs, wrqRecvCallback, if_neg (not_not.mpr hone)]
  rcases hacc : wrqAccept w args upcb d.p d.addr d.port o with ⟨w', args'⟩
  rw [hacc] at hblock hpcb
  refine ⟨args', hblock, ?_⟩
  simp only at hpcb ⊢
  by_cases hshort : d.p.len < tftpDataPktLenMax
  · simp [hshort, tftpCleanupWr]
  · by_cases hrej : WriteRejected w args d.p o
    · have hnone : (tftpSendAckPacket w' upcb d.addr d.port args'.block).pcbs upcb = none := by
        simpa [hrej, tftpSendAckPacket, tftpSendMessage] using hpcb
      simp [hshort, hrej, World.storeArgs_none _ hnone, hnone]
    · simp [hshort, hrej, World.storeArgs, tftpSendAckPacket, tftpSendMessage, hpcb, hs]

end WriteStep

/-! ### Requests -/

section Request
variable {o : Outcome} {w : World} {upcb : Nat} {ip : UInt32} {port : UInt16} {name : List UInt8}

/-- A session start has either sent an error message and released its control block, or the
control block has a callback and the answer to the request has been sent. -/
def StartEnds (w w' : World) (upcb : Nat) (ip : UInt32) (port : UInt16) : Prop :=
  (∃ err, w'.pcbs = Function.update w.pcbs upcb none ∧
    w'.trace = w.trace ++ [.sendto upcb ip port (tftpErrorPacket err), .udpRemove upcb]) ∨
  (∃ recv msg, w'.pcbs = Function.update w.pcbs upcb (some (some recv)) ∧
    w'.trace = w.trace ++ [.sendto upcb ip port msg] ∧
    ((∃ args, recv = .rrqRecvCallback args ∧ msg = tftpDataPacket args.block args.data ∧
        args.block = 1) ∨
      (∃ args, recv = .wrqRecvCallback args ∧ msg = tftpAckPacket 0 ∧ args.block = 0)))

variable (o w upcb ip port name)

/-- A read request ends with a session or with an error message, on each of its branches. -/
theorem tftpProcessRead_ends :
    StartEnds w (tftpProcessRead o w upcb ip port name) upcb ip port := by
  unfold tftpProcessRead
  rcases fOpen w.vol (w.file .fileSD) name { faRead := true } o.slot with ⟨res, fp, vol⟩
  simp only
  split_ifs
  · exact .inl ⟨.fileNotFound, by simp [tftpCleanupRd, tftpSendErrorMessage, tftpSendMessage]⟩
  · exact .inl ⟨.notDefined, by simp [tftpCleanupRd, tftpSendErrorMessage, tftpSendMessage]⟩
  · rw [tftpSendNextBlock_eq]
    let args : Args :=
      { op := .rrq, data := (fRead vol fp tftpDataLenMax).2.1, toIp := ip, toPort := port,
        block := 1 }
    refine .inr ⟨.rrqRecvCallback args, _, ?_, ?_, .inl ⟨args, rfl, rfl, rfl⟩⟩
    · simp [World.storeArgs, tftpSendMessage, args]
    · simp [tftpSendMessage, args]

/-- So does a write request. -/
theorem tftpProcessWrite_ends :
    StartEnds w (tftpProcessWrite o w upcb ip port name) upcb ip port := by
  unfold tftpProcessWrite
  rcases fOpen w.vol (w.file .fileCR) name { faCreateAlways := true, faWrite := true } o.slot
    with ⟨res, fp, vol⟩
  simp only
  split_ifs
  · exact .inl ⟨.notDefined, by simp [tftpCleanupWr, tftpSendErrorMessage, tftpSendMessage]⟩
  · exact .inl ⟨.notDefined, by simp [tftpCleanupWr, tftpSendErrorMessage, tftpSendMessage]⟩
  · exact .inr ⟨_, _, rfl, rfl, .inr ⟨_, rfl, rfl, rfl⟩⟩

variable {o w ip port}

/-- The request takes a control block and returns without a session and without giving it
back. -/
def RequestLeaks (w : World) (o : Outcome) (d : Datagram) : Prop :=
  o.udpNew = true ∧ (o.udpBind = false ∨
    ((tftpDecodeOp d.p = .rrq ∨ tftpDecodeOp d.p = .wrq) ∧
      (fOpendir (fMount w.vol (some .filesystem)) rootPath).1 ≠ .ok))

instance (w : World) (o : Outcome) (d : Datagram) : Decidable (RequestLeaks w o d) :=
  inferInstanceAs (Decidable (_ ∧ _))

/-- The world after a datagram on port 69 that is no request. -/
def badOpWorld (w : World) (d : Datagram) : World :=
  let w₀ := { w with
    pcbs := Function.update w.pcbs w.nextPcb (some none)
    nextPcb := w.nextPcb + 1 }
  let w₁ := (tftpSendErrorMessage w₀ w.nextPcb d.addr d.port .accessViolation).emit
    (.udpRemove w.nextPcb)
  { w₁ with pcbs := Function.update w₁.pcbs w.nextPcb none }

/-- A request with another opcode is answered with an error, and its new block is removed. -/
theorem request_badOp (hnew : o.udpNew = true) (hbind : o.udpBind = true) {d : Datagram}
    (hrrq : tftpDecodeOp d.p ≠ .rrq) (hwrq : tftpDecodeOp d.p ≠ .wrq) :
    sharedStep w (.server (.request o d)) = (badOpWorld w d).emit .pbufFree := by
  simp only [sharedStep, step, recvCallbackTftp, processTftpRequest, hnew, hbind, Bool.not_true,
    Bool.false_eq_true, if_false]
  cases hop : tftpDecodeOp d.p with
  | rrq => exact absurd hop hrrq
  | wrq => exact absurd hop hwrq
  | _ => rfl

/-- It ends like a start that fails. -/
theorem badOp_ends (w : World) (d : Datagram) :
    StartEnds w (badOpWorld w d) w.nextPcb d.addr d.port :=
  .inl ⟨.accessViolation, Function.update_idem .., List.append_assoc ..⟩

/-- A start ends the same way for the world before the request. -/
theorem requestWorld_ends {w₁ : World} (h : StartEnds (requestWorld w) w₁ w.nextPcb ip port) :
    StartEnds w w₁ w.nextPcb ip port := by
  have hpcbs : ∀ recv, Function.update (requestWorld w).pcbs w.nextPcb recv =
      Function.update w.pcbs w.nextPcb recv := fun _ => Function.update_idem ..
  simp only [StartEnds, hpcbs] at h
  exact h

/-- How a datagram on port 69 ends: with no control block taken, with one leaked, with one
released, or with a session. -/
theorem request_ends (o : Outcome) (w : World) (d : Datagram) :
    (o.udpNew = false ∧ sharedStep w (.server (.request o d)) = w.emit .pbufFree) ∨
    (RequestLeaks w o d ∧
      (sharedStep w (.server (.request o d))).pcbs = Function.update w.pcbs w.nextPcb (some none) ∧
      (sharedStep w (.server (.request o d))).trace = w.trace ++ [.pbufFree]) ∨
    (o.udpNew = true ∧ ¬ RequestLeaks w o d ∧ ∃ w₁,
      StartEnds w w₁ w.nextPcb d.addr d.port ∧
      sharedStep w (.server (.request o d)) = w₁.emit .pbufFree) := by
  -- in the order of the checks in `process_tftp_request`
  by_cases hnew : o.udpNew
  swap
  · refine .inl ⟨by simpa using hnew, ?_⟩
    simp [sharedStep, step, recvCallbackTftp, processTftpRequest, hnew]
  by_cases hbind : o.udpBind
  swap
  · refine .inr (.inl ⟨⟨hnew, .inl (by simpa using hbind)⟩, ?_, ?_⟩) <;>
      simp [sharedStep, step, recvCallbackTftp, processTftpRequest, hnew, hbind]
  by_cases hdir : (fOpendir (fMount w.vol (some .filesystem)) rootPath).1 = .ok
  -- behind the checks of the root directory each operation ends in its own way
  · have hkeep : ¬ RequestLeaks w o d := by
      rintro ⟨-, hoff | ⟨-, hfail⟩⟩
      · rw [hbind] at hoff
        cases hoff
      · exact hfail hdir
    refine .inr (.inr ⟨hnew, hkeep, ?_⟩)
    cases hop : tftpDecodeOp d.p with
    | rrq =>
      refine ⟨_, requestWorld_ends
        (tftpProcessRead_ends o _ _ _ _ (tftpExtractFilename d.p)), ?_⟩
      simp only [sharedStep, step, recvCallbackTftp, processTftpRequest, hnew, hbind, hop, hdir,
        Bool.not_true, Bool.false_eq_true, if_false, ne_eq, not_true_eq_false]
      rfl
    | wrq =>
      refine ⟨_, requestWorld_ends
        (tftpProcessWrite_ends o _ _ _ _ (tftpExtractFilename d.p)), ?_⟩
      simp only [sharedStep, step, recvCallbackTftp, processTftpRequest, hnew, hbind, hop, hdir,
        Bool.not_true, Bool.false_eq_true, if_false, ne_eq, not_true_eq_false]
      rfl
    | _ =>
      refine ⟨_, badOp_ends w d, ?_⟩
      exact request_badOp hnew hbind (by simp [hop]) (by simp [hop])
  · cases hop : tftpDecodeOp d.p with
    -- without the root directory a read or a write returns at once, and the control block stays
    | rrq | wrq =>
      refine .inr (.inl ⟨⟨hnew, .inr ⟨by simp [hop], hdir⟩⟩, ?_, ?_⟩) <;>
        simp [sharedStep, step, recvCallbackTftp, processTftpRequest, hnew, hbind, hop, hdir]
    | _ =>
      have hkeep : ¬ RequestLeaks w o d := by simp [RequestLeaks, hbind, hop]
      refine .inr (.inr ⟨hnew, hkeep, _, badOp_ends w d, ?_⟩)
      exact request_badOp hnew hbind (by simp [hop]) (by simp [hop])

/-- What a datagram on port 69 hands out. Every branch ends with the release of the pbuf: after
nothing, an error message with the block given back, or the answer to the request. -/
theorem request_effects (o : Outcome) (w : World) (d : Datagram) :
    effects w (.server (.request o d)) = [.pbufFree] ∨
    (∃ err, effects w (.server (.request o d)) =
      [.sendto w.nextPcb d.addr d.port (tftpErrorPacket err), .udpRemove w.nextPcb, .pbufFree]) ∨
    (∃ block data, effects w (.server (.request o d)) =
      [.sendto w.nextPcb d.addr d.port (tftpDataPacket block data), .pbufFree]) ∨
    effects w (.server (.request o d)) =
      [.sendto w.nextPcb d.addr d.port (tftpAckPacket 0), .pbufFree] := by
  rcases request_ends o w d with ⟨-, hstep⟩ | ⟨-, -, htrace⟩ | ⟨-, -, w₁, hends, hstep⟩
  · exact .inl (effects_eq (by rw [hstep]; rfl))
  · exact .inl (effects_eq htrace)
  · right
    rcases hends with ⟨err, -, htrace⟩ | ⟨recv, msg, -, htrace, hmsg⟩
    · exact .inl ⟨err, effects_eq (by rw [hstep, World.emit_trace, htrace]; simp)⟩
    · have heff : effects w (.server (.request o d)) =
          [.sendto w.nextPcb d.addr d.port msg, .pbufFree] :=
        effects_eq (by rw [hstep, World.emit_trace, htrace]; simp)
      rcases hmsg with ⟨args, -, hdata, -⟩ | ⟨args, -, hack, -⟩
      · exact .inr (.inl ⟨args.block, args.data, by rw [heff, hdata]⟩)
      · exact .inr (.inr (by rw [heff, hack]))

end Request

/-! ### The trace -/

/-- An event only adds to the trace. By the event and the function that serves it. None of them
takes an effect back. -/
theorem trace_grows (w : World) (ev : SharedEvent) : w.trace <+: (sharedStep w ev).trace := by
  match ev with
  | .disk vol => exact List.prefix_rfl
  | .server (.request o d) =>
    rcases request_ends o w d with ⟨-, hstep⟩ | ⟨-, -, htrace⟩ | ⟨-, -, w₁, hends, hstep⟩
    · rw [hstep]
      exact List.prefix_append _ _
    · rw [htrace]
      exact List.prefix_append _ _
    · rw [hstep, World.emit_trace]
      rcases hends with ⟨err, -, htrace⟩ | ⟨recv, msg, -, htrace, -⟩
      · rw [htrace, List.append_assoc]
        exact List.prefix_append _ _
      · rw [htrace, List.append_assoc]
        exact List.prefix_append _ _
  | .server (.datagram upcb o d) =>
    rcases session_cases w upcb with hnone | ⟨args, hs⟩ | ⟨args, hs⟩
    · simp [noSession_step hnone]
    · rw [rrqStep_eq hs]
      by_cases hlast : args.dataLen < tftpDataLenMax
      · simp [rrqRecvCallback_last _ _ _ _ _ _ hlast, tftpCleanupRd]
      · simp [rrqRecvCallback_next _ _ _ _ _ _ hlast, tftpSendMessage]
    · obtain ⟨-, htrace, -⟩ := wrqAccept_spec w args upcb d.p d.addr d.port o
      rw [wrqStep_eq hs, wrqRecvCallback]
      split_ifs
      · exact List.prefix_rfl
      · simp [tftpCleanupWr, tftpSendAckPacket, tftpSendMessage, htrace]
      · simp [tftpSendAckPacket, tftpSendMessage, htrace]

/-- A step adds its effects to the trace and takes none away. -/
theorem sharedStep_trace (w : World) (ev : SharedEvent) :
    (sharedStep w ev).trace = w.trace ++ effects w ev := by
  obtain ⟨es, hes⟩ := trace_grows w ev
  rw [effects_eq hes.symm, hes]

/-! ### Control blocks in use -/

section Live
variable {o : Outcome} {w : World} {upcb : Nat} {d : Datagram}

/-- A datagram for a session does nothing to the control blocks of others. Neither does a callback
send for another control block, nor does it free one. -/
theorem datagram_effects_pcb :
    ∀ e ∈ effects w (.server (.datagram upcb o d)), ∀ u ∈ e.pcb,
      u = upcb ∧ (w.pcbs upcb).isSome := by
  intro e he u hu
  rcases session_cases w upcb with hnone | ⟨args, hs⟩ | ⟨args, hs⟩
  · rw [noSession_effects hnone] at he
    cases he
  · refine ⟨?_, by rw [hs]; rfl⟩
    by_cases hlast : args.dataLen < tftpDataLenMax
    · rw [(rrq_effects_last hs hlast).1] at he
      simp only [List.mem_cons, List.not_mem_nil, or_false] at he
      rcases he with rfl | rfl | rfl <;> simp_all [Effect.pcb]
    · obtain ⟨data, heff, -⟩ := rrq_effects_next (o := o) (d := d) hs hlast
      rw [heff] at he
      rcases List.mem_pair.mp he with rfl | rfl <;> simp_all [Effect.pcb]
  · refine ⟨?_, by rw [hs]; rfl⟩
    by_cases hone : d.p.len = d.p.totLen
    · have hrej : ∀ e ∈ rejectEffects upcb d.addr d.port, e.pcb = some upcb := by
        simp [rejectEffects, Effect.pcb]
      rw [wrq_effects hs hone] at he
      simp only [List.mem_append, List.mem_cons, List.not_mem_nil, or_false] at he
      rcases he with (he | rfl | he) | rfl
      · split_ifs at he
        · rw [hrej e he] at hu
          exact (Option.some.inj hu).symm
        · cases he
      · exact (Option.some.inj hu).symm
      · split_ifs at he
        · rcases List.mem_pair.mp he with rfl | rfl <;> exact (Option.some.inj hu).symm
        · cases he
      · cases hu
    · rw [wrq_chained_effects hs hone] at he
      cases he

/-- A request does nothing to the control blocks that exist. -/
theorem request_effects_pcb :
    ∀ e ∈ effects w (.server (.request o d)), ∀ u ∈ e.pcb, u = w.nextPcb := by
  intro e he u hu
  rcases request_effects o w d with heff | ⟨err, heff⟩ | ⟨block, data, heff⟩ | heff
  all_goals
    rw [heff] at he
    simp only [List.mem_cons, List.not_mem_nil, or_false] at he
  · subst he
    cases hu
  · rcases he with rfl | rfl | rfl <;> simp_all [Effect.pcb]
  · rcases he with rfl | rfl <;> simp_all [Effect.pcb]
  · rcases he with rfl | rfl <;> simp_all [Effect.pcb]

/-- The control block that an event may change: the next one for a request, the one it is
addressed to for a datagram. -/
def SharedEvent.pcb (w : World) : SharedEvent → Option Nat
  | .server (.request _ _) => some w.nextPcb
  | .server (.datagram upcb _ _) => some upcb
  | .disk _ => none

/-- An event leaves every other control block alone, and does nothing in its name. -/
theorem sharedStep_other {n : Nat} {ev : SharedEvent} (hn : ev.pcb w ≠ some n) :
    (sharedStep w ev).pcbs n = w.pcbs n ∧ ∀ e ∈ effects w ev, e.pcb ≠ some n := by
  match ev with
  | .disk vol =>
    rw [effects_disk]
    exact ⟨rfl, fun e he => nomatch he⟩
  | .server (.request o d) =>
    have hne : n ≠ w.nextPcb := fun h => hn (congrArg some h.symm)
    refine ⟨request_pcbs_of_ne hne, fun e he hpcb => hne ?_⟩
    exact request_effects_pcb e he n hpcb
  | .server (.datagram upcb o d) =>
    have hne : n ≠ upcb := fun h => hn (congrArg some h.symm)
    refine ⟨datagram_pcbs_of_ne hne, fun e he hpcb => hne ?_⟩
    exact (datagram_effects_pcb e he n hpcb).1

/-- Nothing is done to a control block that is not allocated. -/
theorem effects_live (w : World) (ev : SharedEvent) :
    ∀ e ∈ effects w ev, ∀ u ∈ e.pcb, (w.pcbs u).isSome ∨ u = w.nextPcb := by
  intro e he u hu
  match ev with
  | .disk vol =>
    rw [effects_disk] at he
    cases he
  | .server (.datagram upcb o d) =>
    obtain ⟨rfl, hsome⟩ := datagram_effects_pcb e he u hu
    exact .inl hsome
  | .server (.request o d) => exact .inr (request_effects_pcb e he u hu)

/-- Every step keeps the next block free. -/
theorem fresh_sharedStep (h : Fresh w) (ev : SharedEvent) : Fresh (sharedStep w ev) := by
  match ev with
  | .disk vol => exact h
  | .server ev => exact fresh_step h ev

end Live

end NucleoH743.Tftp
