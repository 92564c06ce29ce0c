import NucleoH743.Proofs.Tftp.Effects
import NucleoH743.Proofs.Tftp.Wrq

/-!
# `Proofs.Tftp.WriteAck`: what an acknowledgement says

`Stored` records, per control block, the blocks whose payload `f_write` has taken to the last
byte. `AckRight` is what a step owes the client: it acknowledges stored blocks only, and a
write that fails ends the session with an error message, once.

`wrq_recv_callback` acknowledges the block whatever `f_write` says, looks for a failure only in
`n <= 0`, and goes on after it has torn the session down. So a step is right exactly if the
write does not fail (`ackRight_iff`), and `acks_right_iff` says the same of runs, whatever the
other services do to the volume in between.

The record grows by a block when a datagram is the next block of its session and its payload is
written to the last byte. Whether it is does not depend on the server, but on the file object and on
the room of the disk, and `writeFits_iff` says it in these terms.

The invariant of a run is that the blocks up to the counter of a session are stored (`CountStored`),
so that the acknowledgement of the counter, or a second one of it, is for a stored block. In the
other direction one failed write is enough: its block is acknowledged without being stored.
-/

set_option autoImplicit false

namespace NucleoH743.Proofs.Tftp

open NucleoH743.FatFs
open NucleoH743.Tftp
open EventRun (run Along along_congr)

/-! ### The record -/

/-- The blocks of each session that have been written to the last byte. -/
abbrev Stored := Nat → List Nat

/-- The datagram has the number of the next block, in one pbuf. -/
def NextBlock (args : Args) (p : Pbuf) : Prop :=
  p.len = p.totLen ∧ tftpExtractBlock p = args.block + 1

instance (args : Args) (p : Pbuf) : Decidable (NextBlock args p) :=
  inferInstanceAs (Decidable (_ ∧ _))

/-- `f_write` takes the whole payload. -/
def WroteAll (w : World) (p : Pbuf) (o : Outcome) : Prop :=
  wrqWritten w p o = (dataPayload p).length

instance (w : World) (p : Pbuf) (o : Outcome) : Decidable (WroteAll w p o) :=
  inferInstanceAs (Decidable (_ = _))

/-- The record after an event. -/
def storedAfter (w : World) (h : Stored) : SharedEvent → Stored
  | .server (.datagram upcb o d) =>
    match wrqArgs w upcb with
    | some args =>
      if NextBlock args d.p ∧ WroteAll w d.p o then
        Function.update h upcb ((args.block + 1) :: h upcb)
      else h
    | none => h
  | .server (.request _ _) | .disk _ => h

/-- The server beside the record. -/
def storedStep (x : World × Stored) (ev : SharedEvent) : World × Stored :=
  (sharedStep x.1 ev, storedAfter x.1 x.2 ev)

/-! ### What a step owes the client -/

/-- The effect is not the acknowledgement of a block that has not been stored. Block 0 is the
request itself. -/
def AckStored (h : Stored) : Effect → Prop
  | .sendto u _ _ msg => tftpDecodeOp (.single msg) = .ack →
      tftpExtractBlock (.single msg) = 0 ∨ tftpExtractBlock (.single msg) ∈ h u
  | .memFree _ | .udpRemove _ | .pbufFree => True

/-- The datagram is the next block of the write session on `upcb`, and `f_write` does not take
its whole payload. -/
def WriteFails (w : World) (upcb : Nat) : SharedEvent → Prop
  | .server (.datagram u o d) =>
    u = upcb ∧ ∃ args ∈ wrqArgs w u, NextBlock args d.p ∧ ¬ WroteAll w d.p o
  | .server (.request _ _) | .disk _ => False

/-- The step ends the session on `upcb` with an error message: all it does to the control block is
to send the message, free the arguments and remove the block, once each, and the file is closed. -/
structure TornDown (w : World) (upcb : Nat) (ev : SharedEvent) : Prop where
  effects : ∃ ip port err, (effects w ev).filter (fun e => e.pcb = some upcb) =
    [.sendto upcb ip port (tftpErrorPacket err), .memFree upcb, .udpRemove upcb]
  pcb : (sharedStep w ev).pcbs upcb = none
  closed : ((sharedStep w ev).file .fileCR).valid (sharedStep w ev).vol = false

/-- The step acknowledges stored blocks only, a failed write tears the session down, and nothing is
done to a control block that has been removed. -/
structure AckRight (x : World × Stored) (ev : SharedEvent) : Prop where
  stored : ∀ e ∈ effects x.1 ev, AckStored (storedStep x ev).2 e
  tornDown : ∀ upcb, WriteFails x.1 upcb ev → TornDown x.1 upcb ev
  live : ∀ e ∈ effects x.1 ev, ∀ u ∈ e.pcb, (x.1.pcbs u).isSome ∨ u = x.1.nextPcb

/-- The payload of the next block of a write session finds `file_CR` open for writing, and room
for all of its bytes. -/
def WriteFits (w : World) : SharedEvent → Prop
  | .server (.datagram upcb o d) => ∀ args ∈ wrqArgs w upcb, NextBlock args d.p →
      dataPayload d.p = [] ∨ ((w.file .fileCR).valid w.vol = true ∧
        (w.file .fileCR).faWrite = true ∧ (dataPayload d.p).length ≤ o.room)
  | .server (.request _ _) | .disk _ => True

instance (w : World) (ev : SharedEvent) : Decidable (WriteFits w ev) :=
  match ev with
  | .server (.datagram upcb o d) =>
    inferInstanceAs (Decidable (∀ args ∈ wrqArgs w upcb, NextBlock args d.p →
      dataPayload d.p = [] ∨ ((w.file .fileCR).valid w.vol = true ∧
        (w.file .fileCR).faWrite = true ∧ (dataPayload d.p).length ≤ o.room)))
  | .server (.request _ _) | .disk _ => isTrue trivial

/-! ### The write -/

section Writing
variable {w : World} {args : Args} {upcb : Nat} {o : Outcome} {d : Datagram}

/-- When `f_write` takes the whole payload. -/
theorem wroteAll_iff (p : Pbuf) : WroteAll w p o ↔
    dataPayload p = [] ∨ ((w.file .fileCR).valid w.vol = true ∧
      (w.file .fileCR).faWrite = true ∧ (dataPayload p).length ≤ o.room) := by
  rw [WroteAll, wrqWritten, ← dataPayload, fWrite]
  by_cases hnil : dataPayload p = []
  · simp only [hnil, List.take_nil, List.length_nil, true_or, iff_true]
    split_ifs <;> rfl
  · have hpos : (dataPayload p).length ≠ 0 := fun h => hnil (List.length_eq_zero_iff.mp h)
    split_ifs with hv hw
    · simp only [hnil, hv, hw, true_and, false_or, List.length_take]
      omega
    · simp [hnil, hw, Ne.symm hpos]
    · simp [hnil, hv, Ne.symm hpos]

/-- A step fits iff no write session falls short in it. -/
theorem writeFits_iff (ev : SharedEvent) : WriteFits w ev ↔ ∀ upcb, ¬ WriteFails w upcb ev := by
  match ev with
  | .disk vol => exact ⟨fun _ _ h => h, fun _ => trivial⟩
  | .server (.request o d) => exact ⟨fun _ _ h => h, fun _ => trivial⟩
  | .server (.datagram upcb o d) =>
    constructor
    · rintro h _ ⟨rfl, args, hargs, hnext, hfail⟩
      exact hfail ((wroteAll_iff d.p).mpr (h args hargs hnext))
    · intro h args hargs hnext
      by_contra hfail
      exact h upcb ⟨rfl, args, hargs, hnext, fun hall => hfail ((wroteAll_iff d.p).mp hall)⟩

/-- A payload that is written to the last byte is not rejected. -/
theorem not_rejected (hall : WroteAll w d.p o) : ¬ WriteRejected w args d.p o := by
  rintro ⟨⟨hlong, -⟩, hzero⟩
  have hlen : (dataPayload d.p).length = d.p.len - tftpDataPktHdrLen := by
    simp [dataPayload, Pbuf.len]
  have hnone : (dataPayload d.p).length = 0 := hall.symm.trans hzero
  omega

end Writing

/-! ### One step -/

/-- The blocks up to the counter of each write session are stored. -/
def CountStored (x : World × Stored) : Prop :=
  ∀ upcb args, wrqArgs x.1 upcb = some args →
    args.block < 65536 ∧ ∀ k, 1 ≤ k → k ≤ args.block → k ∈ x.2 upcb

section Step
variable {x : World × Stored} {args : Args} {upcb : Nat} {o : Outcome} {d : Datagram}

/-- The record after a datagram for a write session. -/
theorem storedStep_wrq (hs : wrqArgs x.1 upcb = some args) :
    (storedStep x (.server (.datagram upcb o d))).2 =
      if NextBlock args d.p ∧ WroteAll x.1 d.p o then
        Function.update x.2 upcb ((args.block + 1) :: x.2 upcb)
      else x.2 := by
  simp only [storedStep, storedAfter, hs]

/-- After a datagram whose write does not fail, the blocks up to the new counter are stored. -/
theorem count_stored_wrq (hx : CountStored x) (hs : wrqArgs x.1 upcb = some args)
    (hone : d.p.len = d.p.totLen) (hall : NextBlock args d.p → WroteAll x.1 d.p o) :
    wrqCount args d.p < 65536 ∧ ∀ k, 1 ≤ k → k ≤ wrqCount args d.p →
      k ∈ (storedStep x (.server (.datagram upcb o d))).2 upcb := by
  obtain ⟨hlt, hstored⟩ := hx upcb args hs
  rw [storedStep_wrq hs]
  by_cases hblock : tftpExtractBlock d.p = args.block + 1
  · have hnext : NextBlock args d.p := ⟨hone, hblock⟩
    rw [if_pos ⟨hnext, hall hnext⟩, wrqCount, if_pos hblock, Function.update_self]
    refine ⟨hblock ▸ tftpExtractBlock_lt d.p, fun k hpos hk => ?_⟩
    by_cases hlast : k = args.block + 1
    · exact List.mem_cons.mpr (.inl hlast)
    · exact List.mem_cons_of_mem _ (hstored k hpos (by omega))
  · rw [if_neg (fun h => hblock h.1.2), wrqCount, if_neg hblock]
    exact ⟨hlt, hstored⟩

/-- A datagram for another session leaves the session and its record alone. -/
theorem storedStep_of_ne {n : Nat} (hn : n ≠ upcb) :
    wrqArgs (storedStep x (.server (.datagram upcb o d))).1 n = wrqArgs x.1 n ∧
      (storedStep x (.server (.datagram upcb o d))).2 n = x.2 n := by
  constructor
  · simp only [wrqArgs, storedStep, sharedStep, datagram_pcbs_of_ne hn]
  · cases hs : wrqArgs x.1 upcb with
    | none => simp only [storedStep, storedAfter, hs]
    | some args =>
      rw [storedStep_wrq hs]
      split_ifs
      · exact Function.update_of_ne hn _ _
      · rfl

/-- A datagram whose block is written keeps the counter the number of the stored blocks. The other
sessions and their records are untouched. By the callback of the control block. -/
theorem countStored_datagram (hx : CountStored x)
    (hfits : WriteFits x.1 (.server (.datagram upcb o d))) :
    CountStored (storedStep x (.server (.datagram upcb o d))) := by
  intro n args' hargs'
  by_cases hn : n = upcb
  swap
  · obtain ⟨hsame, hrec⟩ := storedStep_of_ne (x := x) (o := o) (d := d) hn
    rw [hsame] at hargs'
    rw [hrec]
    exact hx n args' hargs'
  subst hn
  rw [wrqArgs_eq_some] at hargs'
  have hpcb : (sharedStep x.1 (.server (.datagram n o d))).pcbs n =
      some (some (.wrqRecvCallback args')) := hargs'
  rcases session_cases x.1 n with hnone | ⟨args, hs⟩ | ⟨args, hs⟩
  · rw [noSession_step hnone] at hpcb
    exact absurd hpcb (hnone _)
  · -- a read session stays one or ends
    by_cases hlast : args.dataLen < tftpDataLenMax
    · rw [(rrq_effects_last hs hlast).2] at hpcb
      cases hpcb
    · obtain ⟨data, -, hnext⟩ := rrq_effects_next (o := o) (d := d) hs hlast
      rw [hnext] at hpcb
      cases hpcb
  · have hw : wrqArgs x.1 n = some args := wrqArgs_eq_some.mpr hs
    by_cases hone : d.p.len = d.p.totLen
    · have hall : NextBlock args d.p → WroteAll x.1 d.p o := fun hnext =>
        (wroteAll_iff d.p).mpr (hfits args hw hnext)
      obtain ⟨args'', hcount, heq⟩ := wrq_pcb (o := o) hs hone
      rw [heq] at hpcb
      split_ifs at hpcb
      obtain rfl : args'' = args' := by simpa using hpcb
      rw [hcount]
      exact count_stored_wrq hx hw hone hall
    · rw [wrq_chained hs hone, hs] at hpcb
      obtain rfl : args = args' := by simpa using hpcb
      rw [storedStep_wrq hw, if_neg (fun h => hone h.1.1)]
      exact hx n args hw

/-- A request starts a write session at counter 0. Block 0 is the request itself, so there is
nothing to be stored. -/
theorem countStored_request (hx : CountStored x) :
    CountStored (storedStep x (.server (.request o d))) := by
  intro n args hargs
  by_cases hn : n = x.1.nextPcb
  swap
  · have hsame : wrqArgs (storedStep x (.server (.request o d))).1 n = wrqArgs x.1 n := by
      simp only [wrqArgs, storedStep, sharedStep, request_pcbs_of_ne hn]
    rw [hsame] at hargs
    exact hx n args hargs
  subst hn
  rw [wrqArgs_eq_some] at hargs
  have hpcb : (sharedStep x.1 (.server (.request o d))).pcbs x.1.nextPcb =
      some (some (.wrqRecvCallback args)) := hargs
  rcases request_ends o x.1 d with ⟨-, hstep⟩ | ⟨-, hstep, -⟩ | ⟨-, -, w₁, hends, hstep⟩
  · rw [hstep, World.emit_pcbs] at hpcb
    exact hx _ _ (wrqArgs_eq_some.mpr hpcb)
  · rw [hstep, Function.update_self] at hpcb
    cases hpcb
  · rw [hstep, World.emit_pcbs] at hpcb
    rcases hends with ⟨err, hpcbs, -⟩ | ⟨recv, msg, hpcbs, -, hrecv⟩
    · rw [hpcbs, Function.update_self] at hpcb
      cases hpcb
    · rw [hpcbs, Function.update_self] at hpcb
      obtain rfl : recv = .wrqRecvCallback args := by simpa using hpcb
      rcases hrecv with ⟨_, hrrq, -⟩ | ⟨args', hwrq, -, hzero⟩
      · cases hrrq
      · obtain rfl : args = args' := by simpa using hwrq
        rw [hzero]
        exact ⟨by decide, fun k hpos hk => absurd hk (by omega)⟩

/-- So does every step that fits. -/
theorem countStored_step {ev : SharedEvent} (hx : CountStored x) (hfits : WriteFits x.1 ev) :
    CountStored (storedStep x ev) := by
  match ev with
  | .disk vol => exact hx
  | .server (.request o d) => exact countStored_request hx
  | .server (.datagram upcb o d) => exact countStored_datagram hx hfits

/-- A datagram for a write session whose write does not fail acknowledges stored blocks only. By
whether it is the next block. If so it has just been stored, and if not the counter is the one from
before. -/
theorem ackStored_wrq (hx : CountStored x)
    (hs : x.1.pcbs upcb = some (some (.wrqRecvCallback args)))
    (hone : d.p.len = d.p.totLen) (hall : NextBlock args d.p → WroteAll x.1 d.p o) :
    ∀ e ∈ effects x.1 (.server (.datagram upcb o d)),
      AckStored (storedStep x (.server (.datagram upcb o d))).2 e := by
  obtain ⟨hlt, hstored⟩ := count_stored_wrq hx (wrqArgs_eq_some.mpr hs) hone hall
  have hrej : ¬ WriteRejected x.1 args d.p o := fun h => not_rejected (hall ⟨hone, h.1.2⟩) h
  have hack : AckStored (storedStep x (.server (.datagram upcb o d))).2
      (.sendto upcb d.addr d.port (tftpAckPacket (wrqCount args d.p))) := by
    intro _
    rw [tftpExtractBlock_ackPacket, Nat.mod_eq_of_lt hlt]
    by_cases hzero : wrqCount args d.p = 0
    · exact .inl hzero
    · exact .inr (hstored _ (by omega) (Nat.le_refl _))
  intro e he
  rw [wrq_effects hs hone, if_neg hrej] at he
  simp only [List.nil_append, List.cons_append, List.mem_cons, List.mem_append, List.not_mem_nil,
    or_false] at he
  rcases he with rfl | hrel | rfl
  · exact hack
  · split_ifs at hrel
    · rcases List.mem_pair.mp hrel with rfl | rfl <;> trivial
    · cases hrel
  · trivial

/-- A request acknowledges block 0 at most. A read request sends data or an error message, and no
acknowledgement. -/
theorem ackStored_request (h : Stored) :
    ∀ e ∈ effects x.1 (.server (.request o d)), AckStored h e := by
  intro e he
  rcases request_effects o x.1 d with heff | ⟨err, heff⟩ | ⟨block, data, heff⟩ | heff
  all_goals
    rw [heff] at he
    simp only [List.mem_cons, List.not_mem_nil, or_false] at he
  · rw [he]
    trivial
  · rcases he with rfl | rfl | rfl
    · intro hop
      rw [tftpDecodeOp_errorPacket] at hop
      cases hop
    · trivial
    · trivial
  · rcases he with rfl | rfl
    · intro hop
      rw [tftpDecodeOp_dataPacket] at hop
      cases hop
    · trivial
  · rcases he with rfl | rfl
    · exact fun _ => .inl (tftpExtractBlock_ackPacket 0)
    · trivial

/-- A chained datagram, and one for a read session, acknowledges nothing. -/
theorem ackStored_rrq (hs : x.1.pcbs upcb = some (some (.rrqRecvCallback args))) (h : Stored) :
    ∀ e ∈ effects x.1 (.server (.datagram upcb o d)), AckStored h e := by
  intro e he
  by_cases hlast : args.dataLen < tftpDataLenMax
  · rw [(rrq_effects_last hs hlast).1] at he
    simp only [List.mem_cons, List.not_mem_nil, or_false] at he
    rcases he with rfl | rfl | rfl <;> trivial
  · obtain ⟨data, heff, -⟩ := rrq_effects_next (o := o) (d := d) hs hlast
    rw [heff] at he
    rcases List.mem_pair.mp he with rfl | rfl
    · intro hop
      rw [tftpDecodeOp_dataPacket] at hop
      cases hop
    · trivial

/-- A step whose write does not fail is right. By the event, with one lemma for the acknowledgements
of each kind. -/
theorem ackRight_of_fits {ev : SharedEvent} (hx : CountStored x) (hfits : WriteFits x.1 ev) :
    AckRight x ev where
  stored := by
    match ev with
    | .disk vol =>
      rw [effects_disk]
      exact fun e he => nomatch he
    | .server (.request o d) => exact ackStored_request _
    | .server (.datagram upcb o d) =>
      rcases session_cases x.1 upcb with hnone | ⟨args, hs⟩ | ⟨args, hs⟩
      · rw [noSession_effects hnone]
        exact fun e he => nomatch he
      · exact ackStored_rrq hs _
      · by_cases hone : d.p.len = d.p.totLen
        · exact ackStored_wrq hx hs hone fun hnext =>
            (wroteAll_iff d.p).mpr (hfits args (wrqArgs_eq_some.mpr hs) hnext)
        · rw [wrq_chained_effects hs hone]
          exact fun e he => nomatch he
  tornDown := fun upcb hfail => absurd hfail ((writeFits_iff ev).mp hfits upcb)
  live := effects_live x.1 ev

/-- A step whose write fails acknowledges the block all the same. It is not on the record, since the
write fell short. -/
theorem not_ackRight_of_fails {ev : SharedEvent} (hfail : WriteFails x.1 upcb ev) :
    ¬ AckRight x ev := by
  intro hright
  obtain ⟨⟨ip, port, err, heff⟩, -, -⟩ := hright.tornDown upcb hfail
  match ev with
  | .disk vol => exact hfail
  | .server (.request o d) => exact hfail
  | .server (.datagram u o d) =>
    obtain ⟨rfl, args, hargs, ⟨hone, hblock⟩, -⟩ := hfail
    have hs := wrqArgs_eq_some.mp hargs
    have hack : Effect.sendto u d.addr d.port (tftpAckPacket (wrqCount args d.p)) ∈
        (effects x.1 (.server (.datagram u o d))).filter (fun e => e.pcb = some u) := by
      rw [List.mem_filter, wrq_effects hs hone]
      exact ⟨by simp, by simp [Effect.pcb]⟩
    rw [heff] at hack
    simp only [List.mem_cons, reduceCtorEq, List.not_mem_nil, or_false, Effect.sendto.injEq] at hack
    have hmsg : tftpAckPacket (wrqCount args d.p) = tftpErrorPacket err := hack.2.2.2
    have hop : tftpDecodeOp (.single (tftpAckPacket (wrqCount args d.p))) =
        tftpDecodeOp (.single (tftpErrorPacket err)) := by rw [hmsg]
    rw [tftpDecodeOp_ackPacket, tftpDecodeOp_errorPacket] at hop
    cases hop

/-- Behind a step the acknowledgements are for stored blocks iff it writes all that it was given. -/
theorem ackRight_iff (hx : CountStored x) (ev : SharedEvent) :
    WriteFits x.1 ev ↔ AckRight x ev := by
  refine ⟨ackRight_of_fits hx, fun hright => (writeFits_iff ev).mpr fun upcb hfail => ?_⟩
  exact not_ackRight_of_fails hfail hright

end Step

/-! ### Runs -/

/-- Along every run, acknowledged blocks are stored and failed writes end their session once, with
an error message, exactly if no write fails. `WriteFits` is a condition on the file object and on
the room of the disk in front of a step. Other services may change the volume between two datagrams,
in any way. -/
theorem acks_right_iff (vol : Volume) (es : List SharedEvent) :
    Along storedStep AckRight (World.init vol, fun _ => []) es ↔
      Along storedStep (fun x ev => WriteFits x.1 ev) (World.init vol, fun _ => []) es := by
  have hstep : ∀ x ev, CountStored x → WriteFits x.1 ev → CountStored (storedStep x ev) :=
    fun _ _ hx hfits => countStored_step hx hfits
  have hiff : ∀ x ev, CountStored x → (WriteFits x.1 ev ↔ AckRight x ev) :=
    fun _ ev hx => ackRight_iff hx ev
  have hinit : CountStored (World.init vol, fun _ => []) := fun _ _ h => nomatch h
  exact (along_congr hstep hiff hinit es).symm

/-- The disk is full at the first block of the file `A`. -/
def fullDisk : List SharedEvent :=
  [.server (.request {} writeA), .server (.datagram 0 { room := 0 } (dataBlock 1 [7]))]

/-- The block is acknowledged, and the session is released twice. -/
theorem full_disk_acknowledged :
    ¬ ∀ (vol : Volume) (es : List SharedEvent),
      Along storedStep AckRight (World.init vol, fun _ => []) es := by
  intro h
  obtain ⟨-, hright, -⟩ := h emptyVol fullDisk
  have hfits : ∀ upcb, ¬ WriteFails (step (World.init emptyVol) (.request {} writeA)) upcb
      (.server (.datagram 0 { room := 0 } (dataBlock 1 [7]))) :=
    fun _ hfail => not_ackRight_of_fails hfail hright
  exact absurd ((writeFits_iff _).mpr hfits) (by decide)

end NucleoH743.Proofs.Tftp
