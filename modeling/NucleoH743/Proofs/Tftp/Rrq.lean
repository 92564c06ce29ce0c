import NucleoH743.Proofs.Tftp.Session
import Mathlib.Data.List.Basic

/-!
# `Proofs.Tftp.Rrq`: the bytes a read session sends

A read session keeps two positions: the block counter in its arguments and the file position
of `file_SD`. Every datagram for the session reads the next 512 bytes, while only the correct
acknowledgement counts the block up. `InStep` says that the two agree.

The counter and the position have to agree in one sense: the position is behind the block that the
counter names, so that what the buffer holds is that block. The acknowledgement of the block moves
both. Any other datagram moves the position alone, and from there on the numbers are one block
behind.

The counter is an `int` and the number in a packet has 16 bits. Once the counter has reached 65536
no acknowledgement is the right one any more, every packet carries the number 0, and block 0 is not
a block of the file; so the session counts as right from there on, and the invariant has a case for
it.

- `rrq_step`: a datagram under `AckInStep` keeps the session in step and sends the right bytes.
- `rrq_dataRight`: over every sequence of such datagrams, each DATA packet with a block number
  `k ≥ 1` carries `fileBlock content k`.
- `rrq_mismatch_sends_next`: any other datagram sends the next block of the file under the
  number of the current one, which is right only where the two blocks are equal.
-/

set_option autoImplicit false

namespace NucleoH743.Proofs.Tftp

open NucleoH743.FatFs
open CStr (textBytes)
open NucleoH743.Tftp
open EventRun (run Along run_inv)

/-- The bytes of `content` from `512 * (k - 1)` up to `min (512 * k) (content.length)`. -/
def fileBlock (content : List UInt8) (k : Nat) : List UInt8 :=
  (content.take (min (512 * k) content.length)).drop (512 * (k - 1))

/-- The effect is not a DATA packet of the session on `upcb` with a wrong payload: a DATA packet
whose block number `k` is not 0 carries block `k` of the file. -/
def DataRight (content : List UInt8) (upcb : Nat) : Effect → Prop
  | .sendto u _ _ msg =>
    u = upcb → tftpDecodeOp (.single msg) = .data → 1 ≤ tftpExtractBlock (.single msg) →
      msg.drop tftpDataPktHdrLen = fileBlock content (tftpExtractBlock (.single msg))
  | _ => True

instance (content : List UInt8) (upcb : Nat) : DecidablePred (DataRight content upcb) := fun e =>
  match e with
  | .sendto u _ _ msg => inferInstanceAs (Decidable (u = upcb → tftpDecodeOp (.single msg) = .data →
      1 ≤ tftpExtractBlock (.single msg) →
      msg.drop tftpDataPktHdrLen = fileBlock content (tftpExtractBlock (.single msg))))
  | .memFree _ | .udpRemove _ | .pbufFree => isTrue trivial

/-! ### File blocks -/

/-- A block is the next 512 bytes from its start. -/
theorem fileBlock_eq (content : List UInt8) {k : Nat} (hk : 1 ≤ k) :
    fileBlock content k = (content.drop (512 * (k - 1))).take 512 := by
  have hlen : 512 * k - 512 * (k - 1) = 512 := by omega
  rw [fileBlock, List.take_eq_take_iff.mpr (by simp : min (min (512 * k) content.length)
    content.length = min (512 * k) content.length), List.drop_take, hlen]

/-- Block `k + 1` is 512 bytes behind `k` blocks, or what is left of the file there. -/
theorem fileBlock_succ (content : List UInt8) (k : Nat) :
    fileBlock content (k + 1) = (content.drop (512 * k)).take 512 := by
  rw [fileBlock_eq content (by omega), Nat.add_sub_cancel]

/-- A DATA packet with the bytes of its block is right. -/
theorem dataRight_dataPacket {content : List UInt8} {upcb : Nat} {ip : UInt32} {port : UInt16}
    {k : Nat} (hk : k ≤ 65536) {buf : List UInt8} (hbuf : k < 65536 → buf = fileBlock content k) :
    DataRight content upcb (.sendto upcb ip port (tftpDataPacket k buf)) := by
  intro _ _ hpos
  rw [tftpExtractBlock_dataPacket] at hpos ⊢
  have hlt : k < 65536 := by omega
  rw [Nat.mod_eq_of_lt hlt]
  exact hbuf hlt

/-! ### The session in step -/

/-- The block counter and the file position of a read session agree. -/
structure InStep (name : Path) (content : List UInt8) (w : World) (args : Args) : Prop where
  reading : Reading name content (512 * (args.block - 1) + args.data.length) w
  last : args.data = fileBlock content args.block

/-- The invariant of a read session: what it sent since position `n` of the trace is right, and
while it lasts its counter is at most 65536 and in step below that. -/
structure RrqInv (name : Path) (content : List UInt8) (upcb n : Nat) (w : World) : Prop where
  start : n ≤ w.trace.length
  right : ∀ e ∈ w.trace.drop n, DataRight content upcb e
  session : ∀ recv, w.pcbs upcb = some recv → ∃ args, recv = some (.rrqRecvCallback args) ∧
    1 ≤ args.block ∧ args.block ≤ 65536 ∧ (args.block < 65536 → InStep name content w args)

/-- The arguments of the read session on `upcb`, if there is one. -/
def rrqArgs (w : World) (upcb : Nat) : Option Args :=
  match w.pcbs upcb with
  | some (some (.rrqRecvCallback args)) => some args
  | _ => none

/-- The arguments of a read session stand in its control block. -/
theorem rrqArgs_eq_some {w : World} {upcb : Nat} {args : Args} :
    rrqArgs w upcb = some args ↔ w.pcbs upcb = some (some (.rrqRecvCallback args)) := by
  unfold rrqArgs
  split
  · rename_i hs
    simp [hs]
  · rename_i hs
    constructor
    · intro h
      cases h
    · exact fun h => absurd h (hs args)

/-- The datagram keeps the read session on `upcb` in step: the last block was short and the
datagram ends the session, or the counter has run through all 65535 block numbers, or the
datagram is the acknowledgement of the current block. -/
def AckInStep (upcb : Nat) (w : World) (d : Datagram) : Prop :=
  ∀ args ∈ rrqArgs w upcb,
    args.dataLen < 512 ∨ 65536 ≤ args.block ∨ tftpIsCorrectAck d.p args.block = true

instance (upcb : Nat) (w : World) (d : Datagram) : Decidable (AckInStep upcb w d) :=
  inferInstanceAs (Decidable (∀ args ∈ rrqArgs w upcb, _))

/-- The server handles a datagram for the session on `upcb`. -/
def sessionStep (upcb : Nat) (w : World) (d : Datagram) : World := step w (.datagram upcb {} d)

section Step
variable {name : Path} {content : List UInt8} {upcb n : Nat} {w : World}

/-- Effects that are no messages are right, and what is added to the trace keeps it right. -/
theorem RrqInv.right_append (h : RrqInv name content upcb n w) {es : List Effect}
    (hes : ∀ e ∈ es, DataRight content upcb e) :
    ∀ e ∈ (w.trace ++ es).drop n, DataRight content upcb e := by
  rw [List.drop_append_of_le_length h.start]
  intro e he
  rcases List.mem_append.mp he with he | he
  · exact h.right e he
  · exact hes e he

/-- A packet that is right keeps the trace right, whatever file and arguments are stored. Freeing
the pbuf is no message. -/
theorem RrqInv.right_sent (h : RrqInv name content upcb n w) {ip : UInt32} {port : UInt16}
    {msg : List UInt8} (hmsg : DataRight content upcb (.sendto upcb ip port msg)) :
    (∀ fp recv, n ≤ (((tftpSendMessage (w.setFile .fileSD fp) upcb ip port msg).storeArgs upcb
      recv).emit .pbufFree).trace.length) ∧
    ∀ fp recv, ∀ e ∈ (((tftpSendMessage (w.setFile .fileSD fp) upcb ip port msg).storeArgs upcb
      recv).emit .pbufFree).trace.drop n, DataRight content upcb e := by
  constructor
  · intro fp recv
    simp only [World.emit_trace, World.storeArgs_trace, tftpSendMessage, World.setFile_trace,
      List.length_append]
    have hstart := h.start
    omega
  · intro fp recv
    simp only [World.emit_trace, World.storeArgs_trace, tftpSendMessage, World.setFile_trace,
      List.append_assoc]
    refine h.right_append ?_
    intro e he
    rcases List.mem_pair.mp he with rfl | rfl
    · exact hmsg
    · trivial

/-- The next block in step: reading at the file position gives the block after the last one. -/
theorem InStep.fRead {args : Args} (h : InStep name content w args) (hfull : ¬ args.dataLen < 512)
    (hpos : 1 ≤ args.block) :
    FatFs.fRead w.vol (w.file .fileSD) tftpDataLenMax =
      (.ok, fileBlock content (args.block + 1),
        { w.file .fileSD with
          fptr := 512 * args.block + (fileBlock content (args.block + 1)).length }) := by
  have hlen : args.data.length = 512 := by
    have hle : args.data.length ≤ 512 := by
      rw [h.last, fileBlock_eq content hpos]
      exact List.length_take_le _ _
    have hge : ¬ args.data.length < 512 := hfull
    omega
  have hptr : 512 * (args.block - 1) + args.data.length = 512 * args.block := by omega
  rw [h.reading.fRead, hptr, fileBlock_succ]
  rfl

/-- The step that counts the acknowledged block and sends the next one. The position moves by what
was read, the counter by one. The packet has the new number and the new block. -/
theorem rrq_step_next {args : Args} (h : RrqInv name content upcb n w)
    (hs : w.pcbs upcb = some (some (.rrqRecvCallback args))) (hpos : 1 ≤ args.block)
    (hin : InStep name content w args) (hfull : ¬ args.dataLen < 512) {d : Datagram}
    (hack : tftpIsCorrectAck d.p args.block = true) :
    RrqInv name content upcb n (rrqRecvCallback w args upcb d.p d.addr d.port) := by
  obtain ⟨-, hblock⟩ := (tftpIsCorrectAck_iff _ _).mp hack
  have hlt : args.block < 65536 := hblock ▸ tftpExtractBlock_lt d.p
  have hcount : rrqCount args d.p = args.block + 1 := by rw [rrqCount, if_pos hack]
  rw [rrqRecvCallback_next _ _ _ _ _ _ hfull, hin.fRead hfull hpos, hcount]
  have hdata : DataRight content upcb (.sendto upcb d.addr d.port
      (tftpDataPacket (args.block + 1) (fileBlock content (args.block + 1)))) :=
    dataRight_dataPacket hlt fun _ => rfl
  obtain ⟨hstart, hright⟩ := h.right_sent hdata
  refine ⟨hstart _ _, hright _ _, ?_⟩
  intro recv hrecv
  obtain rfl : some (RecvFn.rrqRecvCallback { args with
      block := args.block + 1, data := fileBlock content (args.block + 1) }) = recv := by
    simpa [World.storeArgs, hs, tftpSendMessage] using hrecv
  refine ⟨_, rfl, by simp, Nat.succ_le_of_lt hlt, fun _ => ?_⟩
  exact { reading := hin.reading.moved (by simp [tftpSendMessage]) (by simp [tftpSendMessage]),
          last := rfl }

/-- Once the counter has run through all block numbers, no packet carries a number but 0. -/
theorem rrq_step_wrapped {args : Args} (h : RrqInv name content upcb n w)
    (hs : w.pcbs upcb = some (some (.rrqRecvCallback args))) (hblock : args.block = 65536)
    (hfull : ¬ args.dataLen < 512) (d : Datagram) :
    RrqInv name content upcb n (rrqRecvCallback w args upcb d.p d.addr d.port) := by
  have hcount : rrqCount args d.p = 65536 := by
    have hne : ¬ tftpIsCorrectAck d.p args.block = true := by
      rw [tftpIsCorrectAck_iff, hblock]
      have hlt := tftpExtractBlock_lt d.p
      omega
    rw [rrqCount, if_neg hne, hblock]
  rw [rrqRecvCallback_next _ _ _ _ _ _ hfull, hcount]
  have hdata : ∀ buf, DataRight content upcb (.sendto upcb d.addr d.port
      (tftpDataPacket 65536 buf)) := fun buf =>
    dataRight_dataPacket (Nat.le_refl _) fun hlt => absurd hlt (Nat.lt_irrefl _)
  obtain ⟨hstart, hright⟩ := h.right_sent (hdata _)
  refine ⟨hstart _ _, hright _ _, ?_⟩
  intro recv hrecv
  refine ⟨_, by simpa [World.storeArgs, hs, tftpSendMessage] using hrecv.symm, ?_⟩
  simp

/-- A datagram after the last block ends the session. Nothing more is sent, so the trace stays
right. -/
theorem rrq_step_last {args : Args} (h : RrqInv name content upcb n w) (hlast : args.dataLen < 512)
    (d : Datagram) :
    RrqInv name content upcb n (rrqRecvCallback w args upcb d.p d.addr d.port) := by
  rw [rrqRecvCallback_last _ _ _ _ _ _ hlast]
  constructor
  · simp only [World.emit_trace, tftpCleanupRd, tftpCleanup_trace, List.length_append]
    have hstart := h.start
    omega
  · simp only [World.emit_trace, tftpCleanupRd, tftpCleanup_trace, if_true, List.append_assoc]
    refine h.right_append ?_
    intro e he
    simp only [List.cons_append, List.nil_append, List.mem_cons, List.not_mem_nil, or_false] at he
    rcases he with rfl | rfl | rfl <;> trivial
  · intro recv hrecv
    simp [tftpCleanupRd] at hrecv

/-- Any other datagram makes a session in step send the next block of the file under the number
of the current one, so the packet is right only if the two blocks have the same bytes. -/
theorem rrq_mismatch_sends_next {args : Args}
    (hs : w.pcbs upcb = some (some (.rrqRecvCallback args)))
    (hpos : 1 ≤ args.block) (hlt : args.block < 65536) (hin : InStep name content w args)
    (hfull : ¬ args.dataLen < 512) {d : Datagram}
    (hack : ¬ tftpIsCorrectAck d.p args.block = true) :
    (∀ e ∈ (sessionStep upcb w d).trace.drop w.trace.length, DataRight content upcb e) ↔
      fileBlock content (args.block + 1) = fileBlock content args.block := by
  have hstep : (sessionStep upcb w d).trace = w.trace ++ [.sendto upcb d.addr d.port
      (tftpDataPacket args.block (fileBlock content (args.block + 1))), .pbufFree] := by
    simp only [sessionStep, step, hs]
    rw [rrqRecvCallback_next _ _ _ _ _ _ hfull, hin.fRead hfull hpos, rrqCount, if_neg hack]
    simp [tftpSendMessage]
  rw [hstep, List.drop_left]
  constructor
  · intro h
    have hpkt := h _ List.mem_cons_self rfl rfl
    rw [tftpExtractBlock_dataPacket, Nat.mod_eq_of_lt hlt] at hpkt
    exact hpkt hpos
  · intro heq e he
    rcases List.mem_pair.mp he with rfl | rfl
    · exact dataRight_dataPacket (by omega) fun _ => heq
    · trivial

/-- One datagram for the session. By the three kinds of datagrams that keep it in step. -/
theorem rrq_step (h : RrqInv name content upcb n w) {d : Datagram} (hd : AckInStep upcb w d) :
    RrqInv name content upcb n (sessionStep upcb w d) := by
  cases hs : w.pcbs upcb with
  | none => simpa [sessionStep, step, hs] using h
  | some recv =>
    obtain ⟨args, rfl, hpos, hle, hin⟩ := h.session recv hs
    have hstep : sessionStep upcb w d = rrqRecvCallback w args upcb d.p d.addr d.port := by
      simp [sessionStep, step, hs]
    rw [hstep]
    by_cases hfull : args.dataLen < 512
    · exact rrq_step_last h hfull d
    · rcases hd args (by simp [rrqArgs, hs]) with hlast | hwrap | hack
      · exact absurd hlast hfull
      · exact rrq_step_wrapped h hs (by omega) hfull d
      · obtain ⟨-, hblock⟩ := (tftpIsCorrectAck_iff _ _).mp hack
        have hlt : args.block < 65536 := hblock ▸ tftpExtractBlock_lt d.p
        exact rrq_step_next h hs hpos (hin hlt) hfull hack

end Step

/-! ### A whole session -/

/-- A request that starts a read session starts it in step, with its first block sent. The block is
the first of the file, and the counter is 1. -/
theorem rrqInv_request {w : World} {o : Outcome} {d : Datagram} {content : List UInt8}
    (hfresh : w.pcbs w.nextPcb = none) (hop : tftpDecodeOp d.p = .rrq)
    (hfile : fileContent w.vol (tftpExtractFilename d.p) = some content)
    {recv : RecvFn} (hs : (step w (.request o d)).pcbs w.nextPcb = some (some recv)) :
    RrqInv (tftpExtractFilename d.p) content w.nextPcb w.trace.length (step w (.request o d)) := by
  obtain ⟨content', hfile', hrecv, hreading, hpcbs, -, htrace⟩ := request_reading hfresh hop hs
  obtain rfl : content' = content := Option.some.inj (hfile'.symm.trans hfile)
  have hblock : content'.take tftpDataLenMax = fileBlock content' 1 := by
    rw [fileBlock_eq content' (Nat.le_refl 1)]
    rfl
  rw [hblock] at hrecv hreading htrace
  constructor
  · simp [htrace]
  · rw [htrace, List.drop_left]
    intro e he
    rcases List.mem_pair.mp he with rfl | rfl
    · exact dataRight_dataPacket (by omega) fun _ => rfl
    · trivial
  · intro recv' hrecv'
    obtain rfl : some recv = recv' := by simpa [hpcbs] using hrecv'
    exact ⟨_, congrArg some hrecv, by simp, by simp, fun _ => ⟨by simpa using hreading, rfl⟩⟩

/-- After any history, every DATA packet of a read session carries the block of the file that its
number names, as long as each datagram for the session keeps it in step. The session is one that a
request has started, and `AckInStep` is asked of each datagram in the state that it meets. The trace
of the session is right by the step lemma and the invariant `RrqInv`. -/
theorem rrq_dataRight (vol : Volume) (history : List Event) (o : Outcome) (d : Datagram)
    (content : List UInt8) (recv : RecvFn) (ds : List Datagram) :
    let w := run step (World.init vol) history
    let w₁ := step w (.request o d)
    tftpDecodeOp d.p = .rrq →
    fileContent w.vol (tftpExtractFilename d.p) = some content →
    w₁.pcbs w.nextPcb = some (some recv) →
    Along (sessionStep w.nextPcb) (AckInStep w.nextPcb) w₁ ds →
    ∀ e ∈ (run (sessionStep w.nextPcb) w₁ ds).trace.drop w.trace.length,
      DataRight content w.nextPcb e := by
  intro w w₁ hop hfile hs hds
  have hstart : RrqInv (tftpExtractFilename d.p) content w.nextPcb w.trace.length w₁ :=
    rrqInv_request (fresh_run vol history _ (Nat.le_refl _)) hop hfile hs
  have hstep : ∀ w' d', RrqInv (tftpExtractFilename d.p) content w.nextPcb w.trace.length w' →
      AckInStep w.nextPcb w' d' →
      RrqInv (tftpExtractFilename d.p) content w.nextPcb w.trace.length
        (sessionStep w.nextPcb w' d') :=
    fun _ _ h hd => rrq_step h hd
  exact (run_inv hstep hstart hds).right

/-! ### A stale acknowledgement -/

/-- A volume with one file of two blocks, `A`. -/
def twoBlockVol : Volume where
  fatFs := none
  obj := fun _ => {}
  fsid := 0
  fmt := 3
  files := fun _ => none
  follow := fun p => if p = rootPath then .origin else .entry p
  nodes := fun e => if e = textBytes "A" then some (.file (List.replicate 512 0 ++ [7])) else none

/-- The read request for `A`. -/
def readA : Datagram := { p := .single ([0, 1] ++ textBytes "A" ++ [0]) }

/-- A duplicate acknowledgement of block 0 makes the server send the second block of the file as
block 1. -/
theorem rrq_stale_ack_wrong_block :
    fileContent twoBlockVol (tftpExtractFilename readA.p) = some (List.replicate 512 0 ++ [7]) ∧
    ((step (World.init twoBlockVol) (.request {} readA)).pcbs 0).isSome ∧
    ¬ ∀ e ∈ (run (sessionStep 0) (step (World.init twoBlockVol) (.request {} readA))
        [{ p := .single (tftpAckPacket 0) }]).trace,
      DataRight (List.replicate 512 0 ++ [7]) 0 e := by
  decide +kernel

/-- With the acknowledgement of block 1 the session sends both blocks under their numbers. -/
theorem rrq_dataRight_readA :
    ∀ e ∈ (run (sessionStep 0) (step (World.init twoBlockVol) (.request {} readA))
        [{ p := .single (tftpAckPacket 1) }]).trace.drop 0,
      DataRight (List.replicate 512 0 ++ [7]) 0 e :=
  rrq_dataRight twoBlockVol [] {} readA (List.replicate 512 0 ++ [7])
    (.rrqRecvCallback
      { op := .rrq, data := List.replicate 512 0, toIp := 0, toPort := 0, block := 1 })
    [{ p := .single (tftpAckPacket 1) }]
    (by decide) (by decide +kernel) (by decide +kernel) (by decide +kernel)

end NucleoH743.Proofs.Tftp
