import NucleoH743.Proofs.Tftp.Effects
import NucleoH743.Proofs.Tftp.Rrq

/-!
# `Proofs.Tftp.ReadEnd`: when a read session is complete

A read session is complete when its last block, the one with fewer than 512 bytes, has been
acknowledged. `rrq_recv_callback` makes the acknowledgement test first, but then ends the session
on any datagram that finds a short block in the buffer.

`LastSent` is the invariant: the last DATA packet of a running session is the one that its
counter and its buffer make up.

The code ends a session when the block in the buffer is shorter than 512 bytes, at the next
datagram. Which datagram that is it has asked before, but only to count; so any datagram behind the
last block does.

The step theorem has to know which packet was the last one, and that is what the invariant is for:
what the session keeps in its arguments is what it has sent. Requests and datagrams of other
sessions add nothing to the packets of this one, and a datagram of its own sends a packet made of
the new counter and the new buffer.

- `endsRight_iff`: a step ends a session rightly exactly if `AcksLast` holds.
- `read_ends_acked_iff`: the same along runs.
-/

set_option autoImplicit false

namespace NucleoH743.Proofs.Tftp

open NucleoH743.FatFs
open NucleoH743.Tftp
open EventRun (run Along along_congr)

/-! ### The last DATA packet -/

/-- The message of a DATA packet of the session on `upcb`. -/
def dataMsg (upcb : Nat) : Effect → Option (List UInt8)
  | .sendto u _ _ msg =>
    if u = upcb ∧ tftpDecodeOp (.single msg) = .data then some msg else none
  | .memFree _ | .udpRemove _ | .pbufFree => none

/-- The last DATA packet that the session on `upcb` has sent. -/
def lastData (upcb : Nat) (trace : List Effect) : Option (List UInt8) :=
  (trace.filterMap (dataMsg upcb)).getLast?

/-- The last data packet of a run in two parts is that of the second, or that of the first. -/
theorem lastData_append (upcb : Nat) (trace es : List Effect) :
    lastData upcb (trace ++ es) = (lastData upcb es).or (lastData upcb trace) := by
  rw [lastData, List.filterMap_append, List.getLast?_append]
  rfl

/-- What other sessions do leaves the last DATA packet. -/
theorem lastData_append_other {upcb : Nat} {trace es : List Effect}
    (h : ∀ e ∈ es, e.pcb ≠ some upcb) : lastData upcb (trace ++ es) = lastData upcb trace := by
  have hnone : es.filterMap (dataMsg upcb) = [] := by
    rw [List.filterMap_eq_nil_iff]
    intro e he
    have hpcb := h e he
    cases e with
    | sendto u ip port msg =>
      have hne : u ≠ upcb := fun hu => hpcb (congrArg some hu)
      exact if_neg fun hc => hne hc.1
    | _ => rfl
  rw [lastData_append, lastData, hnone]
  rfl

/-- A data packet that was just sent is the last. -/
theorem lastData_append_data (upcb : Nat) (trace : List Effect) (ip : UInt32) (port : UInt16)
    (block : Nat) (data : List UInt8) :
    lastData upcb (trace ++ [.sendto upcb ip port (tftpDataPacket block data), .pbufFree]) =
      some (tftpDataPacket block data) := by
  have hmsg : dataMsg upcb (.sendto upcb ip port (tftpDataPacket block data)) =
      some (tftpDataPacket block data) := if_pos ⟨rfl, tftpDecodeOp_dataPacket block data⟩
  rw [lastData_append, lastData, List.filterMap_cons, hmsg]
  rfl

/-! ### The property and its condition -/

/-- A read session that the event ends gets the acknowledgement of its last DATA packet, and that
packet has fewer than 512 bytes. -/
def EndsRight (w : World) (ev : SharedEvent) : Prop :=
  ∀ upcb args, rrqArgs w upcb = some args → (sharedStep w ev).pcbs upcb = none →
    ∃ o d msg, ev = .server (.datagram upcb o d) ∧ lastData upcb w.trace = some msg ∧
      (msg.drop tftpDataPktHdrLen).length < 512 ∧ tftpDecodeOp d.p = .ack ∧
      tftpExtractBlock d.p = tftpExtractBlock (.single msg)

/-- A datagram for a read session that has read a short block acknowledges its counter. -/
def AcksLast (w : World) : SharedEvent → Prop
  | .server (.datagram upcb _ d) => ∀ args ∈ rrqArgs w upcb, args.dataLen < 512 →
      tftpDecodeOp d.p = .ack ∧ tftpExtractBlock d.p = args.block % 65536
  | .server (.request _ _) | .disk _ => True

instance (w : World) (ev : SharedEvent) : Decidable (AcksLast w ev) :=
  match ev with
  | .server (.datagram upcb _ d) =>
    inferInstanceAs (Decidable (∀ args ∈ rrqArgs w upcb, args.dataLen < 512 →
      tftpDecodeOp d.p = .ack ∧ tftpExtractBlock d.p = args.block % 65536))
  | .server (.request _ _) | .disk _ => isTrue trivial

/-- The last DATA packet of each read session is made of its counter and its buffer. -/
structure LastSent (w : World) : Prop where
  fresh : Fresh w
  last : ∀ upcb args, rrqArgs w upcb = some args →
    lastData upcb w.trace = some (tftpDataPacket args.block args.data)

section Step
variable {w : World} {args : Args} {upcb : Nat} {o : Outcome} {d : Datagram}

/-- A datagram for a read session sends the packet that the session keeps. The packet is made of the
arguments after the datagram, so it is the one that they describe. -/
theorem lastSent_datagram
    (hargs : rrqArgs (sharedStep w (.server (.datagram upcb o d))) upcb = some args) :
    lastData upcb (sharedStep w (.server (.datagram upcb o d))).trace =
      some (tftpDataPacket args.block args.data) := by
  rw [rrqArgs_eq_some] at hargs
  rcases session_cases w upcb with hnone | ⟨args₀, hs⟩ | ⟨args₀, hs⟩
  · rw [noSession_step hnone] at hargs ⊢
    exact absurd hargs (hnone _)
  · by_cases hlast : args₀.dataLen < tftpDataLenMax
    · rw [(rrq_effects_last hs hlast).2] at hargs
      cases hargs
    · obtain ⟨data, heff, hnext⟩ := rrq_effects_next (o := o) (d := d) hs hlast
      rw [hnext] at hargs
      obtain rfl : { args₀ with block := rrqCount args₀ d.p, data } = args := by simpa using hargs
      rw [sharedStep_trace, heff]
      exact lastData_append_data ..
  · by_cases hone : d.p.len = d.p.totLen
    · obtain ⟨args', -, hpcb⟩ := wrq_pcb (o := o) hs hone
      rw [hpcb] at hargs
      split_ifs at hargs
      cases hargs
    · rw [wrq_chained hs hone, hs] at hargs
      cases hargs

/-- A request that starts a read session sends its first block. The other sessions keep their last
packets. -/
theorem lastSent_request (hw : LastSent w)
    (hargs : rrqArgs (sharedStep w (.server (.request o d))) w.nextPcb = some args) :
    lastData w.nextPcb (sharedStep w (.server (.request o d))).trace =
      some (tftpDataPacket args.block args.data) := by
  rw [rrqArgs_eq_some] at hargs
  rcases request_ends o w d with ⟨-, hstep⟩ | ⟨-, hstep, -⟩ | ⟨-, -, w₁, hends, hstep⟩
  · rw [hstep, World.emit_pcbs, hw.fresh _ (Nat.le_refl _)] at hargs
    cases hargs
  · rw [hstep, Function.update_self] at hargs
    cases hargs
  · rw [hstep] at hargs ⊢
    rw [World.emit_pcbs] at hargs
    rcases hends with ⟨err, hpcbs, -⟩ | ⟨recv, msg, hpcbs, htrace, hrecv⟩
    · rw [hpcbs, Function.update_self] at hargs
      cases hargs
    · rw [hpcbs, Function.update_self] at hargs
      obtain rfl : recv = .rrqRecvCallback args := by simpa using hargs
      rcases hrecv with ⟨args', hrrq, hmsg, -⟩ | ⟨args', hwrq, -⟩
      · obtain rfl : args = args' := by simpa using hrrq
        rw [World.emit_trace, htrace, hmsg, List.append_assoc]
        exact lastData_append_data ..
      · cases hwrq

/-- Every event keeps the last DATA packets. By the event and by whose session it is. -/
theorem lastSent_step (hw : LastSent w) (ev : SharedEvent) : LastSent (sharedStep w ev) where
  fresh := fresh_sharedStep hw.fresh ev
  last := by
    intro n args hargs
    by_cases hn : ev.pcb w = some n
    · match ev with
      | .disk vol => cases hn
      | .server (.request o d) =>
        obtain rfl := Option.some.inj hn
        exact lastSent_request hw hargs
      | .server (.datagram upcb o d) =>
        obtain rfl := Option.some.inj hn
        exact lastSent_datagram hargs
    · obtain ⟨hpcb, heff⟩ := sharedStep_other hn
      rw [rrqArgs_eq_some, hpcb, ← rrqArgs_eq_some] at hargs
      rw [sharedStep_trace, lastData_append_other heff]
      exact hw.last n args hargs

/-- A read session ends with a datagram of its own that finds a short block in the buffer. -/
theorem rrq_ends_iff (hs : rrqArgs w upcb = some args) :
    (sharedStep w (.server (.datagram upcb o d))).pcbs upcb = none ↔ args.dataLen < 512 := by
  rw [rrqArgs_eq_some] at hs
  by_cases hlast : args.dataLen < tftpDataLenMax
  · exact ⟨fun _ => hlast, fun _ => (rrq_effects_last hs hlast).2⟩
  · obtain ⟨data, -, hnext⟩ := rrq_effects_next (o := o) (d := d) hs hlast
    rw [hnext]
    exact ⟨fun h => (nomatch h), fun h => absurd h hlast⟩

/-- What ends a session is the acknowledgement of its last packet iff every datagram behind a short
block acknowledges the counter: by the invariant that packet carries it. -/
theorem endsRight_iff (hw : LastSent w) (ev : SharedEvent) : AcksLast w ev ↔ EndsRight w ev := by
  constructor
  · intro hacks upcb args hs hend
    by_cases hn : ev.pcb w = some upcb
    swap
    · -- the session is not touched
      rw [(sharedStep_other hn).1, rrqArgs_eq_some.mp hs] at hend
      cases hend
    match ev with
    | .disk vol => cases hn
    -- a request makes a session, it ends none
    | .server (.request o d) =>
      have hlt := hw.fresh.lt (rrqArgs_eq_some.mp hs)
      have heq : w.nextPcb = upcb := Option.some.inj hn
      omega
    | .server (.datagram upcb' o d) =>
      obtain rfl : upcb' = upcb := Option.some.inj hn
      have hshort : args.dataLen < 512 := (rrq_ends_iff hs).mp hend
      obtain ⟨hop, hblock⟩ := hacks args hs hshort
      refine ⟨o, d, _, rfl, hw.last upcb' args hs, ?_, hop, ?_⟩
      · show args.data.length < 512
        exact hshort
      · rw [hblock, tftpExtractBlock_dataPacket]
  · intro hright
    match ev with
    | .disk vol => trivial
    | .server (.request o d) => trivial
    | .server (.datagram upcb o d) =>
      intro args hs hshort
      obtain ⟨o', d', msg, hev, hmsg, -, hop, hblock⟩ :=
        hright upcb args hs ((rrq_ends_iff hs).mpr hshort)
      obtain ⟨-, rfl⟩ : o = o' ∧ d = d' := by simpa using hev
      rw [hw.last upcb args hs] at hmsg
      obtain rfl := Option.some.inj hmsg
      rw [tftpExtractBlock_dataPacket] at hblock
      exact ⟨hop, hblock⟩

end Step

/-! ### Runs -/

/-- At the start nothing was sent. -/
theorem lastSent_init (vol : Volume) : LastSent (World.init vol) where
  fresh := fresh_init vol
  last := fun _ _ h => nomatch h

/-- Along every run, read sessions end with the acknowledgement of their last block exactly if each
datagram that finds a short block in the buffer is that acknowledgement. The datagrams of any number
of sessions and the requests between them come in any order. By the invariant `LastSent`, the block
that is in the buffer is the last one that was sent. -/
theorem read_ends_acked_iff (vol : Volume) (es : List SharedEvent) :
    Along sharedStep EndsRight (World.init vol) es ↔
      Along sharedStep AcksLast (World.init vol) es := by
  have hstep : ∀ w ev, LastSent w → AcksLast w ev → LastSent (sharedStep w ev) :=
    fun _ ev hw _ => lastSent_step hw ev
  exact (along_congr hstep (fun _ ev hw => endsRight_iff hw ev) (lastSent_init vol) es).symm

/-- The acknowledgement of the first block comes twice. -/
def ackTwice : List SharedEvent :=
  [.server (.request {} readA), .server (.datagram 0 {} { p := .single (tftpAckPacket 1) }),
    .server (.datagram 0 {} { p := .single (tftpAckPacket 1) })]

/-- The second copy ends the session, although block 2 has not been acknowledged. -/
theorem stale_ack_completes_read :
    ¬ ∀ (vol : Volume) (es : List SharedEvent), Along sharedStep EndsRight (World.init vol) es := by
  intro h
  obtain ⟨-, -, hlast, -⟩ := h twoBlockVol ackTwice
  have hw := lastSent_step (lastSent_step (lastSent_init twoBlockVol) ackTwice[0]) ackTwice[1]
  exact absurd ((endsRight_iff hw _).mpr hlast) (by decide +kernel)

end NucleoH743.Proofs.Tftp
