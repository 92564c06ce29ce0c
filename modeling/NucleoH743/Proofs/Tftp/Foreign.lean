import NucleoH743.Proofs.Tftp.Effects
import NucleoH743.Proofs.Tftp.Rrq
import NucleoH743.Proofs.Tftp.Wrq

/-!
# `Proofs.Tftp.Foreign`: datagrams from somebody else

The session callbacks get the source of a datagram and use it for the answer, but they never
compare it with the client that `tftp_connection_args` records. Two runs are compared: one with
the events of the system, and one with foreign datagrams for the session between them. A read
session acts on every datagram. A write session only answers a full one with another block
number, and drops a chained one.

The proof has two halves. First, the server does not look at its own history: an event has the same
effects behind any trace (`sharedStep_after`), so two runs are in the same state as soon as their
worlds agree but for the trace. Then the second run may be ahead by the effects of the extra
datagrams, as long as none of them is a packet for the client (`Alike`). An event that both runs
have keeps this, and so does a harmless datagram.

A datagram is harmless by what the callback does with it, which can be read off the datagram and the
arguments of the session. The answer goes to the stranger who sent it, so the client does not see
it.

- `foreign_unnoticed`: if the foreign datagrams are of these kinds, the client is sent the same
  packets, the files are the same, and the session ends at the same time.
-/

set_option autoImplicit false

namespace NucleoH743.Tftp

open NucleoH743.FatFs
open CStr (textBytes)
open EventRun (run Along)

/-! ### A world behind a longer history

The server never looks at its trace. -/

/-- The world with a history before its trace. -/
def World.after (h : List Effect) (w : World) : World := { w with trace := h ++ w.trace }

section After
variable (h : List Effect) (w : World) (upcb : Nat)

/-- A history is no part of what the server works with: the volume is the same behind every one. -/
@[simp] theorem after_vol : (w.after h).vol = w.vol := rfl

/-- The file objects are the same. -/
@[simp] theorem after_file : (w.after h).file = w.file := rfl

/-- The control blocks are the same. -/
@[simp] theorem after_pcbs : (w.after h).pcbs = w.pcbs := rfl

/-- The next block is the same. -/
@[simp] theorem after_nextPcb : (w.after h).nextPcb = w.nextPcb := rfl

/-- An effect comes behind the history. -/
@[simp] theorem emit_after (e : Effect) : (w.after h).emit e = (w.emit e).after h := by
  simp [World.after, World.emit]

/-- A store to a file object does not look at the history. -/
@[simp] theorem setFile_after (f : FileVar) (fp : Fil) :
    (w.after h).setFile f fp = (w.setFile f fp).after h := rfl

/-- Neither does `udp_recv`. -/
@[simp] theorem udpRecv_after (recv : RecvFn) :
    (w.after h).udpRecv upcb recv = (w.udpRecv upcb recv).after h := rfl

/-- Nor does the store of the arguments. -/
@[simp] theorem storeArgs_after (recv : RecvFn) :
    (w.after h).storeArgs upcb recv = (w.storeArgs upcb recv).after h := by
  unfold World.storeArgs
  rw [after_pcbs]
  split <;> rfl

/-- A block is read and sent alike behind every history. -/
theorem tftpSendNextBlock_after (ip : UInt32) (port : UInt16) (args : Args) :
    tftpSendNextBlock (w.after h) upcb ip port args =
      ((tftpSendNextBlock w upcb ip port args).1.after h,
        (tftpSendNextBlock w upcb ip port args).2) := by
  simp [tftpSendNextBlock, tftpSendDataPacket, tftpSendMessage]

/-- A session is cleaned up alike. -/
theorem tftpCleanup_after (f : FileVar) (args : Bool) :
    tftpCleanup f (w.after h) upcb args = (tftpCleanup f w upcb args).after h := by
  cases args <;> simp [tftpCleanup, World.after, World.emit, World.setFile]

variable (args : Args) (p : Pbuf) (addr : UInt32) (port : UInt16) (o : Outcome)

/-- The callback of a read session does not look at the history. -/
theorem rrqRecvCallback_after :
    rrqRecvCallback (w.after h) args upcb p addr port =
      (rrqRecvCallback w args upcb p addr port).after h := by
  dsimp only [rrqRecvCallback, tftpCleanupRd]
  generalize (if tftpIsCorrectAck p args.block = true then { args with block := args.block + 1 }
    else args) = args
  split
  · rw [tftpCleanup_after, emit_after]
  · rw [tftpSendNextBlock_after]
    dsimp only
    rw [storeArgs_after, emit_after]

/-- Nor does the part of a write session that stores a block. -/
theorem wrqAccept_after :
    wrqAccept (w.after h) args upcb p addr port o =
      ((wrqAccept w args upcb p addr port o).1.after h,
        (wrqAccept w args upcb p addr port o).2) := by
  dsimp only [wrqAccept, tftpCleanupWr, tftpSendErrorMessage, tftpSendMessage]
  rw [after_vol, after_file]
  split
  · split
    · rw [setFile_after, emit_after, tftpCleanup_after]
    · rw [setFile_after]
  · split <;> rfl

/-- Nor does the callback of a write session as a whole. -/
theorem wrqRecvCallback_after :
    wrqRecvCallback (w.after h) args upcb p addr port o =
      (wrqRecvCallback w args upcb p addr port o).after h := by
  dsimp only [wrqRecvCallback, tftpCleanupWr, tftpSendAckPacket, tftpSendMessage]
  rw [wrqAccept_after]
  split
  · rfl
  · dsimp only
    split
    · rw [emit_after, tftpCleanup_after, emit_after]
    · rw [emit_after, storeArgs_after, emit_after]

/-- A read request is served alike behind every history. By the results of the calls in front of the
session. -/
theorem tftpProcessRead_after (name : List UInt8) :
    tftpProcessRead o (w.after h) upcb addr port name =
      (tftpProcessRead o w upcb addr port name).after h := by
  dsimp only [tftpProcessRead, tftpCleanupRd, tftpSendErrorMessage, tftpSendMessage]
  rw [after_vol, after_file, setFile_after]
  rcases fOpen w.vol (w.file .fileSD) name { faRead := true } o.slot with ⟨res, fp, vol⟩
  have hvol : ({ (w.setFile .fileSD fp).after h with vol } : World) =
      ({ w.setFile .fileSD fp with vol } : World).after h := rfl
  dsimp only
  rw [hvol]
  split
  · rw [emit_after, tftpCleanup_after]
  · split
    · rw [emit_after, tftpCleanup_after]
    · rw [udpRecv_after, tftpSendNextBlock_after]
      dsimp only
      rw [storeArgs_after]

/-- So is a write request. By the results of the same calls. -/
theorem tftpProcessWrite_after (name : List UInt8) :
    tftpProcessWrite o (w.after h) upcb addr port name =
      (tftpProcessWrite o w upcb addr port name).after h := by
  dsimp only [tftpProcessWrite, tftpCleanupWr, tftpSendErrorMessage, tftpSendAckPacket,
    tftpSendMessage]
  rw [after_vol, after_file, setFile_after]
  rcases fOpen w.vol (w.file .fileCR) name { faCreateAlways := true, faWrite := true } o.slot
    with ⟨res, fp, vol⟩
  have hvol : ({ (w.setFile .fileCR fp).after h with vol } : World) =
      ({ w.setFile .fileCR fp with vol } : World).after h := rfl
  dsimp only
  rw [hvol]
  split
  · rw [emit_after, tftpCleanup_after]
  · split
    · rw [emit_after, tftpCleanup_after]
    · rw [udpRecv_after, emit_after]

/-- So is a request of either kind, and one that is refused. By the opcode, through the two
functions that start a session. -/
theorem processTftpRequest_after :
    processTftpRequest o (w.after h) p addr port =
      (processTftpRequest o w p addr port).after h := by
  unfold processTftpRequest
  cases o.udpNew with
  | false => rfl
  | true =>
    cases o.udpBind with
    | false => rfl
    | true =>
      have hread := tftpProcessRead_after h (requestWorld w) w.nextPcb addr port o
        (tftpExtractFilename p)
      have hwrite := tftpProcessWrite_after h (requestWorld w) w.nextPcb addr port o
        (tftpExtractFilename p)
      simp only [Bool.not_true, Bool.false_eq_true, if_false]
      cases tftpDecodeOp p with
      | rrq =>
        dsimp only
        rw [apply_ite (World.after h)]
        exact ite_congr rfl (fun _ => rfl) fun _ => hread
      | wrq =>
        dsimp only
        rw [apply_ite (World.after h)]
        exact ite_congr rfl (fun _ => rfl) fun _ => hwrite
      | data | ack | error | other b =>
        simp [World.after, World.emit, tftpSendErrorMessage, tftpSendMessage]

/-- The callback of the server's port adds one effect and serves the request. -/
theorem recvCallbackTftp_after :
    recvCallbackTftp o (w.after h) p addr port = (recvCallbackTftp o w p addr port).after h := by
  rw [recvCallbackTftp, recvCallbackTftp, processTftpRequest_after, emit_after]

/-- A longer history changes no step. -/
theorem step_after (e : Event) : step (w.after h) e = (step w e).after h := by
  cases e with
  | request o d => exact recvCallbackTftp_after h w d.p d.addr d.port o
  | datagram upcb o d =>
    dsimp only [step]
    rw [after_pcbs]
    split
    · exact rrqRecvCallback_after ..
    · exact wrqRecvCallback_after ..
    · rfl

/-- So every event has the same effects, whatever has happened before. This is what lets two runs
with different histories be compared by their worlds. -/
theorem sharedStep_after (ev : SharedEvent) :
    sharedStep (w.after h) ev = (sharedStep w ev).after h := by
  cases ev with
  | server e => exact step_after h w e
  | disk vol => rfl

end After

/-! ### Two runs -/

/-- An event of the two runs. -/
inductive Traffic where
  /-- in both runs -/
  | both (ev : SharedEvent)
  /-- a datagram for the session, in the second run only -/
  | extra (o : Outcome) (d : Datagram)

/-- The event of the first run. -/
def Traffic.both? : Traffic → Option SharedEvent
  | .both ev => some ev
  | .extra _ _ => none

/-- The event of the second run, in which the extra datagrams arrive for `upcb`. -/
def Traffic.event (upcb : Nat) : Traffic → SharedEvent
  | .both ev => ev
  | .extra o d => .server (.datagram upcb o d)

/-- The step of the second run. -/
def trafficStep (upcb : Nat) (w : World) (t : Traffic) : World := sharedStep w (t.event upcb)

/-- The arguments of the session. -/
def RecvFn.args : RecvFn → Args
  | .rrqRecvCallback args | .wrqRecvCallback args => args

/-- The client that the session has recorded. -/
def World.client (w : World) (upcb : Nat) : Option (UInt32 × UInt16) :=
  match w.pcbs upcb with
  | some (some recv) => some (recv.args.toIp, recv.args.toPort)
  | _ => none

/-- The extra datagrams come from somebody else. -/
def Traffic.Foreign (client : Option (UInt32 × UInt16)) : Traffic → Prop
  | .both _ => True
  | .extra _ d => client ≠ some (d.addr, d.port)

instance (client : Option (UInt32 × UInt16)) : DecidablePred (Traffic.Foreign client) := fun t =>
  match t with
  | .both _ => isTrue trivial
  | .extra _ d => inferInstanceAs (Decidable (client ≠ some (d.addr, d.port)))

/-- The callback does nothing with a datagram but answer it. -/
def Ignores (recv : Option (Option RecvFn)) (p : Pbuf) : Prop :=
  match recv with
  | some (some (.rrqRecvCallback _)) => False
  | some (some (.wrqRecvCallback args)) =>
    p.len ≠ p.totLen ∨ (tftpDataPktLenMax ≤ p.len ∧ tftpExtractBlock p ≠ args.block + 1)
  | _ => True

instance (recv : Option (Option RecvFn)) (p : Pbuf) : Decidable (Ignores recv p) :=
  match recv with
  | some (some (.rrqRecvCallback _)) => isFalse not_false
  | some (some (.wrqRecvCallback _)) => inferInstanceAs (Decidable (_ ∨ _))
  | some none | none => isTrue trivial

/-- The session ignores an extra datagram. -/
def Harmless (upcb : Nat) (w : World) : Traffic → Prop
  | .both _ => True
  | .extra _ d => Ignores (w.pcbs upcb) d.p

instance (upcb : Nat) (w : World) : DecidablePred (Harmless upcb w) := fun t =>
  match t with
  | .both _ => isTrue trivial
  | .extra _ d => inferInstanceAs (Decidable (Ignores (w.pcbs upcb) d.p))

/-- The packets for an address and port, each with the control block that sent it. -/
def packetsTo (ip : UInt32) (port : UInt16) (es : List Effect) : List (Nat × List UInt8) :=
  es.filterMap fun
    | .sendto upcb toIp toPort msg => if toIp = ip ∧ toPort = port then some (upcb, msg) else none
    | _ => none

/-- The client of the session `upcb` cannot tell `w'` from `w`: it was sent the same packets,
the files are the same, and the session is in the same state, or has ended in both. -/
structure Unnoticed (upcb : Nat) (ip : UInt32) (port : UInt16) (w w' : World) : Prop where
  packets : packetsTo ip port w'.trace = packetsTo ip port w.trace
  content : ∀ name, fileContent w'.vol name = fileContent w.vol name
  session : w'.pcbs upcb = w.pcbs upcb

/-! ### One step of the two runs -/

/-- The world without its history. -/
def World.bare (w : World) : World := { w with trace := [] }

/-- The second run is ahead by effects that are not for the client. -/
structure Alike (ip : UInt32) (port : UInt16) (w' w : World) : Prop where
  bare : w'.bare = w.bare
  packets : packetsTo ip port w'.trace = packetsTo ip port w.trace

section Step
variable {upcb : Nat} {ip : UInt32} {port : UInt16}

/-- The packets for a client are found part by part. -/
theorem packetsTo_append (es fs : List Effect) :
    packetsTo ip port (es ++ fs) = packetsTo ip port es ++ packetsTo ip port fs :=
  List.filterMap_append

/-- An event adds to the trace what it adds to an empty one. -/
theorem sharedStep_bare (w : World) (ev : SharedEvent) :
    sharedStep w ev = (sharedStep w.bare ev).after w.trace := by
  have hw : w.bare.after w.trace = w := by simp [World.bare, World.after]
  rw [← sharedStep_after, hw]

/-- An event of both runs has the same effects in both. -/
theorem Alike.both {w' w : World} (h : Alike ip port w' w) (ev : SharedEvent) :
    Alike ip port (sharedStep w' ev) (sharedStep w ev) := by
  have hstep' := sharedStep_bare w' ev
  have hstep := sharedStep_bare w ev
  rw [h.bare] at hstep'
  constructor
  · rw [hstep', hstep]
    rfl
  · rw [hstep', hstep]
    show packetsTo ip port (w'.trace ++ _) = packetsTo ip port (w.trace ++ _)
    rw [packetsTo_append, packetsTo_append, h.packets]

/-- A harmless datagram only adds to the trace, and nothing for the client. Its answer, if there is
one, goes to the address that it came from, and that is not the client's. -/
theorem harmless_step {w' : World} {o : Outcome} {d : Datagram}
    (hforeign : (ip, port) ≠ (d.addr, d.port)) (h : Harmless upcb w' (.extra o d)) :
    ∃ es, packetsTo ip port es = [] ∧
      sharedStep w' (.server (.datagram upcb o d)) = { w' with trace := w'.trace ++ es } := by
  rcases session_cases w' upcb with hs | ⟨args, hs⟩ | ⟨args, hs⟩
  · exact ⟨[], rfl, by rw [noSession_step hs, List.append_nil]⟩
  · rw [Harmless, hs, Ignores] at h
    exact absurd h not_false
  · rw [Harmless, hs, Ignores] at h
    by_cases hone : d.p.len = d.p.totLen
    · -- a full packet with another block number is acknowledged to its sender
      obtain ⟨hfull, hblock⟩ := h.resolve_left (not_not.mpr hone)
      refine ⟨[.sendto upcb d.addr d.port (tftpAckPacket args.block), .pbufFree], ?_, ?_⟩
      · have hother : ¬ (d.addr = ip ∧ d.port = port) := by
          rintro ⟨rfl, rfl⟩
          exact hforeign rfl
        simp [packetsTo, hother]
      · have hacc : wrqAccept w' args upcb d.p d.addr d.port o = (w', args) := by
          rw [wrqAccept, if_neg fun hc => hblock hc.2, if_neg hblock]
        rw [wrqStep_eq hs, wrqRecvCallback, if_neg (not_not.mpr hone), hacc]
        simp only [if_neg (Nat.not_lt.mpr hfull)]
        have hsame : Function.update w'.pcbs upcb (some (some (.wrqRecvCallback args))) =
            w'.pcbs := by
          rw [← hs, Function.update_eq_self]
        simp [World.storeArgs, World.udpRecv, World.emit, tftpSendAckPacket, tftpSendMessage, hs,
          hsame]
    · exact ⟨[], rfl, by rw [wrq_chained hs hone, List.append_nil]⟩

/-- The first run skips a harmless datagram. -/
theorem Alike.extra {w' w : World} (h : Alike ip port w' w) {o : Outcome} {d : Datagram}
    (hforeign : (ip, port) ≠ (d.addr, d.port)) (hharm : Harmless upcb w' (.extra o d)) :
    Alike ip port (sharedStep w' (.server (.datagram upcb o d))) w := by
  obtain ⟨es, hes, hstep⟩ := harmless_step hforeign hharm
  rw [hstep]
  constructor
  · exact h.bare
  · show packetsTo ip port (w'.trace ++ es) = packetsTo ip port w.trace
    rw [packetsTo_append, hes, List.append_nil, h.packets]

end Step

/-! ### Runs -/

section Runs
variable {upcb : Nat} {ip : UInt32} {port : UInt16}

/-- The two runs stay alike. By induction on the events, from two runs that are alike. -/
theorem alike_run {w' w : World} (h : Alike ip port w' w) {ts : List Traffic}
    (hforeign : ∀ t ∈ ts, t.Foreign (some (ip, port)))
    (hharm : Along (trafficStep upcb) (Harmless upcb) w' ts) :
    Alike ip port (run sharedStep w' (ts.map (Traffic.event upcb)))
      (run sharedStep w (ts.filterMap Traffic.both?)) := by
  induction ts generalizing w' w with
  | nil => exact h
  | cons t ts ih =>
    obtain ⟨ht, hts⟩ := hharm
    have hrest : ∀ t ∈ ts, t.Foreign (some (ip, port)) :=
      fun t ht => hforeign t (List.mem_cons_of_mem _ ht)
    cases t with
    | both ev => exact ih (h.both ev) hrest hts
    | extra o d =>
      have hother : (ip, port) ≠ (d.addr, d.port) :=
        fun heq => hforeign _ List.mem_cons_self (congrArg some heq)
      exact ih (h.extra hother ht) hrest hts

/-- A session with the client `ip`, `port` runs as it would without the foreign datagrams, if each
of them is harmless when it arrives. The events that both runs have are any ones: other sessions and
requests as well. What a foreign datagram must be depends on the session in the state that it meets,
so the condition is along the second run. -/
theorem foreign_unnoticed {w : World} (hclient : w.client upcb = some (ip, port))
    {ts : List Traffic} (hforeign : ∀ t ∈ ts, t.Foreign (w.client upcb))
    (hharm : Along (trafficStep upcb) (Harmless upcb) w ts) :
    Unnoticed upcb ip port (run sharedStep w (ts.filterMap Traffic.both?))
      (run sharedStep w (ts.map (Traffic.event upcb))) := by
  rw [hclient] at hforeign
  have halike := alike_run ⟨rfl, rfl⟩ hforeign hharm
  have hvol := congrArg World.vol halike.bare
  have hpcbs := congrArg World.pcbs halike.bare
  exact ⟨halike.packets, fun name => congrArg (fileContent · name) hvol, congrFun hpcbs upcb⟩

end Runs

/-- A write session on which a stranger sends a full block 7 before the client's block 1. -/
theorem foreign_unnoticed_block :
    let w := run sharedStep (World.init Proofs.Tftp.emptyVol)
      [.server (.request {} Proofs.Tftp.writeA)]
    let ts : List Traffic :=
      [.extra {} { Proofs.Tftp.dataBlock 7 (List.replicate 512 1) with addr := 1 },
        .both (.server (.datagram 0 { room := 8 } (Proofs.Tftp.dataBlock 1 [7])))]
    Unnoticed 0 0 0 (run sharedStep w (ts.filterMap Traffic.both?))
      (run sharedStep w (ts.map (Traffic.event 0))) :=
  foreign_unnoticed (by decide)
    (List.forall_mem_cons.mpr ⟨by decide, List.forall_mem_cons.mpr ⟨trivial, by simp⟩⟩)
    (by decide +kernel)

/-- A stranger's acknowledgement of block 1 is sent block 2, and the client's own one then ends
the read session. -/
theorem foreign_noticed :
    ¬ ∀ (vol : Volume) (es : List SharedEvent) (upcb : Nat) (ip : UInt32) (port : UInt16)
      (ts : List Traffic),
      (run sharedStep (World.init vol) es).client upcb = some (ip, port) →
      (∀ t ∈ ts, t.Foreign ((run sharedStep (World.init vol) es).client upcb)) →
      Unnoticed upcb ip port
        (run sharedStep (run sharedStep (World.init vol) es) (ts.filterMap Traffic.both?))
        (run sharedStep (run sharedStep (World.init vol) es) (ts.map (Traffic.event upcb))) := by
  intro h
  let ack : Datagram := { p := .single (tftpAckPacket 1) }
  have hread := h Proofs.Tftp.twoBlockVol [.server (.request {} Proofs.Tftp.readA)] 0 0 0
    [.extra {} { ack with addr := 1 }, .both (.server (.datagram 0 {} ack))] (by decide)
    (List.forall_mem_cons.mpr ⟨by decide, List.forall_mem_cons.mpr ⟨trivial, by simp⟩⟩)
  exact absurd hread.session (by decide +kernel)

end NucleoH743.Tftp
