import NucleoH743.Proofs.Tftp.Session
import Mathlib.Data.List.Basic

/-!
# `Proofs.Tftp.Wrq`: what a write session stores and when it ends

`Receiver` is the receiving side of a TFTP transfer: it accepts the DATA blocks 1, 2, ... once
each and in order, ignores every other datagram, and is done with the first accepted block
that is shorter than 512 bytes.

`wrq_recv_callback` tests the block number before it writes, but neither the opcode, nor the
block number again before it takes a short packet for the end of the transfer. `DataInOrder`
is what a datagram must be for the session to follow the receiver all the same.

The session and the receiver run side by side on the same datagrams, and `Follows` compares them:
the counter of the session is the number of accepted blocks, and the bytes in its file are their
payloads. A datagram in order is accepted by both or ignored by both.

Three kinds of datagrams are in order. A chained one is dropped by the callback before it looks at
it. The next block is stored and counted, and if it is short both are done. And a full packet with
another number is acknowledged again, without a write, which the receiver does not see.

The end of the session is also where its file is closed and the volume is unmounted, so the last
part of the statement is about the directory entry and no longer about the file object.

- `wrq_step`: one datagram under `DataInOrder` keeps the session with the receiver (`Follows`).
- `wrq_follows_receiver`: over every sequence of such datagrams the session ends exactly when
  the receiver is done, and then the file holds the accepted payloads.
-/

set_option autoImplicit false

namespace NucleoH743.Proofs.Tftp

open NucleoH743.FatFs
open CStr (textBytes)
open NucleoH743.Tftp
open EventRun (run Along run_sim)

/-! ### The receiver -/

/-- The receiving side of a transfer: the payloads of the accepted DATA blocks, in order. -/
structure Receiver where
  accepted : List (List UInt8) := []
  done : Bool := false
  deriving DecidableEq, Repr

/-- The datagram is a DATA message with block number `k`, in one pbuf. -/
def IsDataBlock (p : Pbuf) (k : Nat) : Prop :=
  tftpDecodeOp p = .data ∧ tftpDataPktHdrLen ≤ p.len ∧ p.len = p.totLen ∧ tftpExtractBlock p = k

instance (p : Pbuf) (k : Nat) : Decidable (IsDataBlock p k) :=
  inferInstanceAs (Decidable (_ ∧ _ ∧ _ ∧ _))

/-- The bytes of a message behind its header. -/
def dataPayload (p : Pbuf) : List UInt8 := p.payload.drop tftpDataPktHdrLen

/-- The receiver accepts the next DATA block and nothing else. -/
def Receiver.step (r : Receiver) (d : Datagram) : Receiver :=
  if r.done = false ∧ IsDataBlock d.p (r.accepted.length + 1) then
    { accepted := r.accepted ++ [dataPayload d.p], done := (dataPayload d.p).length < 512 }
  else r

/-! ### A write session beside the receiver -/

/-- The server handles a datagram for the session on `upcb`; the disk has room for all of it. -/
def wrqStep (upcb : Nat) (w : World) (d : Datagram) : World :=
  step w (.datagram upcb { room := d.p.len } d)

/-- The arguments of the write session on `upcb`, if there is one. -/
def wrqArgs (w : World) (upcb : Nat) : Option Args :=
  match w.pcbs upcb with
  | some (some (.wrqRecvCallback args)) => some args
  | _ => none

/-- The arguments of a write session stand in its control block. -/
theorem wrqArgs_eq_some {w : World} {upcb : Nat} {args : Args} :
    wrqArgs w upcb = some args ↔ w.pcbs upcb = some (some (.wrqRecvCallback args)) := by
  unfold wrqArgs
  split
  · rename_i hs
    simp [hs]
  · rename_i hs
    constructor
    · intro h
      cases h
    · exact fun h => absurd h (hs args)

/-- The datagram is one that the session on `upcb` treats as the receiver does: a chained pbuf,
which the callback drops, the next DATA block, or a full-sized packet with another block
number. -/
def DataInOrder (upcb : Nat) (w : World) (d : Datagram) : Prop :=
  ∀ args ∈ wrqArgs w upcb,
    d.p.len ≠ d.p.totLen ∨ IsDataBlock d.p (args.block + 1) ∨
      (tftpDataPktLenMax ≤ d.p.len ∧ tftpExtractBlock d.p ≠ args.block + 1)

instance (upcb : Nat) (w : World) (d : Datagram) : Decidable (DataInOrder upcb w d) :=
  inferInstanceAs (Decidable (∀ args ∈ wrqArgs w upcb, _))

/-- The session on `upcb` has ended exactly when the receiver is done. While it lasts it counts
and stores the accepted blocks; afterwards the file holds them. -/
structure Follows (name : Path) (upcb : Nat) (w : World) (r : Receiver) : Prop where
  live : r.done = false → ∃ args, w.pcbs upcb = some (some (.wrqRecvCallback args)) ∧
    args.block = r.accepted.length ∧ Storing name r.accepted.flatten w
  ended : r.done = true → w.pcbs upcb = none ∧ fileContent w.vol name = some r.accepted.flatten

section Step
variable {name : Path} {w : World} {r : Receiver} {args : Args} {d : Datagram} (upcb : Nat)

/-- The next block is written and counted. The disk has room for it, so the count of `f_write` is
its length. -/
theorem wrqAccept_next {bytes : List UInt8} (h : Storing name bytes w)
    (hnext : IsDataBlock d.p (args.block + 1)) (ip : UInt32) (port : UInt16) :
    ∃ w' args', wrqAccept w args upcb d.p ip port { room := d.p.len } = (w', args') ∧
      args'.block = args.block + 1 ∧ w'.pcbs = w.pcbs ∧
      Storing name (bytes ++ dataPayload d.p) w' := by
  obtain ⟨-, hhdr, -, hblock⟩ := hnext
  have hlen : (dataPayload d.p).length = d.p.len - tftpDataPktHdrLen := by
    simp [dataPayload, Pbuf.len]
  unfold wrqAccept
  by_cases hlong : tftpDataPktHdrLen < d.p.len
  · obtain ⟨fp, hwrite, hst⟩ := h.fWrite (dataPayload d.p) d.p.len
    have htake : (dataPayload d.p).take d.p.len = dataPayload d.p :=
      List.take_of_length_le (by omega)
    have hpos : ¬ (dataPayload d.p).length = 0 := by omega
    rw [htake] at hwrite hst
    rw [if_pos ⟨hlong, hblock⟩, ← dataPayload, hwrite]
    simp only [hpos, if_false]
    exact ⟨_, _, rfl, rfl, rfl, hst⟩
  · -- a DATA block without payload is counted and not written
    have hnil : dataPayload d.p = [] := List.length_eq_zero_iff.mp (by omega)
    rw [if_neg (fun hc => hlong hc.1), if_pos hblock, hnil, List.append_nil]
    exact ⟨w, _, rfl, rfl, rfl, h⟩

variable {upcb : Nat}

/-- The next DATA block: the session stores it and ends exactly with a short one. The receiver
accepts it as well. With a short block both are done, and the file has been closed with all payloads
in it. -/
theorem wrq_step_next (hdone : r.done = false)
    (hs : w.pcbs upcb = some (some (.wrqRecvCallback args)))
    (hblock : args.block = r.accepted.length) (hst : Storing name r.accepted.flatten w)
    (hnext : IsDataBlock d.p (args.block + 1)) :
    Follows name upcb (wrqRecvCallback w args upcb d.p d.addr d.port { room := d.p.len })
      (r.step d) := by
  obtain ⟨w', args', hacc, hblock', hpcbs, hst'⟩ := wrqAccept_next upcb hst hnext d.addr d.port
  have hr : r.step d =
      { accepted := r.accepted ++ [dataPayload d.p]
        done := (dataPayload d.p).length < 512 } := by
    rw [Receiver.step, if_pos ⟨hdone, hblock ▸ hnext⟩]
  obtain ⟨-, hhdr, hone, -⟩ := hnext
  have hlen : (dataPayload d.p).length + tftpDataPktHdrLen = d.p.len := by
    have hdrop : (dataPayload d.p).length = d.p.len - tftpDataPktHdrLen := by
      simp [dataPayload, Pbuf.len]
    omega
  have hshort : d.p.len < tftpDataPktLenMax ↔ (dataPayload d.p).length < 512 := by
    rw [← hlen]
    simp [tftpDataPktLenMax, tftpDataLenMax, Nat.add_comm]
  have hflat : (r.accepted ++ [dataPayload d.p]).flatten =
      r.accepted.flatten ++ dataPayload d.p := by simp
  rw [← hflat] at hst'
  rw [hr, wrqRecvCallback, if_neg (by simpa using hone), hacc]
  by_cases hlast : (dataPayload d.p).length < 512
  · simp only [hshort.mpr hlast, if_true]
    exact {
      live := fun hlive => by simp [hlast] at hlive
      ended := fun _ => ⟨by simp [tftpCleanupWr],
        (hst'.congr rfl rfl : Storing name _ (tftpSendAckPacket w' upcb d.addr d.port _)).cleanup
          upcb true⟩ }
  · simp only [mt hshort.mp hlast, if_false]
    refine { live := fun _ => ?_, ended := fun hend => by simp [hlast] at hend }
    refine ⟨args', ?_, by simp [hblock', hblock], hst'.congr ?_ ?_⟩
    · rw [World.emit_pcbs, World.storeArgs_pcbs]
      · simp
      · simp [tftpSendAckPacket, tftpSendMessage, hpcbs, hs]
    · simp [tftpSendAckPacket, tftpSendMessage]
    · simp [tftpSendAckPacket, tftpSendMessage]

/-- A full-sized packet with another block number is acknowledged again and ignored. Nothing is
written, and the counter stays; the receiver ignores the datagram as well. -/
theorem wrq_step_stale (hdone : r.done = false)
    (hs : w.pcbs upcb = some (some (.wrqRecvCallback args)))
    (hblock : args.block = r.accepted.length) (hst : Storing name r.accepted.flatten w)
    (hone : d.p.len = d.p.totLen) (hfull : tftpDataPktLenMax ≤ d.p.len)
    (hother : tftpExtractBlock d.p ≠ args.block + 1) :
    Follows name upcb (wrqRecvCallback w args upcb d.p d.addr d.port { room := d.p.len })
      (r.step d) := by
  have hr : r.step d = r := by
    rw [Receiver.step, if_neg]
    rintro ⟨-, -, -, -, hnum⟩
    exact hother (hblock ▸ hnum)
  rw [hr, wrqRecvCallback, if_neg (by simpa using hone), wrqAccept, if_neg (by simp [hother]),
    if_neg hother]
  simp only [Nat.not_lt.mpr hfull, if_false]
  refine { live := fun _ => ?_, ended := fun hend => by simp [hdone] at hend }
  refine ⟨args, ?_, hblock, hst.congr ?_ ?_⟩
  · rw [World.emit_pcbs, World.storeArgs_pcbs]
    · simp
    · simp [tftpSendAckPacket, tftpSendMessage, hs]
  · simp [tftpSendAckPacket, tftpSendMessage]
  · simp [tftpSendAckPacket, tftpSendMessage]

/-- One datagram for the session. By its kind: a chained pbuf, the next block, or a full packet with
another number. -/
theorem wrq_step (h : Follows name upcb w r) (hd : DataInOrder upcb w d) :
    Follows name upcb (wrqStep upcb w d) (r.step d) := by
  cases hdone : r.done with
  | true =>
    obtain ⟨hs, -⟩ := h.ended hdone
    have hw : wrqStep upcb w d = w := by simp [wrqStep, step, hs]
    have hr : r.step d = r := by simp [Receiver.step, hdone]
    rw [hw, hr]
    exact h
  | false =>
    obtain ⟨args, hs, hblock, hst⟩ := h.live hdone
    have hw : wrqStep upcb w d =
        wrqRecvCallback w args upcb d.p d.addr d.port { room := d.p.len } := by
      simp [wrqStep, step, hs]
    by_cases hone : d.p.len = d.p.totLen
    · rw [hw]
      rcases hd args (by simp [wrqArgs, hs]) with hchain | hnext | ⟨hfull, hother⟩
      · exact absurd hone hchain
      · exact wrq_step_next hdone hs hblock hst hnext
      · exact wrq_step_stale hdone hs hblock hst hone hfull hother
    · -- a chained pbuf is neither looked at by the callback nor a block for the receiver
      have hr : r.step d = r := by
        rw [Receiver.step, if_neg]
        rintro ⟨-, -, -, hone', -⟩
        exact hone hone'
      rw [hw, hr, wrqRecvCallback, if_pos hone]
      exact h

end Step

/-! ### A whole session -/

/-- A write request that starts a session starts it beside a fresh receiver. -/
theorem follows_request {w : World} {o : Outcome} {d : Datagram}
    (hfresh : w.pcbs w.nextPcb = none) (hop : tftpDecodeOp d.p = .wrq) {recv : RecvFn}
    (hs : (step w (.request o d)).pcbs w.nextPcb = some (some recv)) :
    Follows (tftpExtractFilename d.p) w.nextPcb (step w (.request o d)) {} := by
  obtain ⟨hrecv, hst, hpcbs, -, -⟩ := request_storing hfresh hop hs
  refine { live := fun _ => ?_, ended := fun h => by cases h }
  subst hrecv
  exact ⟨_, hpcbs ▸ Function.update_self _ _ _, rfl, hst⟩

/-- After any history, a write session whose datagrams are all in order ends exactly when the
receiver is done, and then its file is the concatenation of the accepted payloads. `DataInOrder` is
asked of each datagram in the state that it meets, since what is the next block depends on those
before it. The disk has room for all of them. -/
theorem wrq_follows_receiver (vol : Volume) (history : List Event) (o : Outcome) (d : Datagram)
    (recv : RecvFn) (ds : List Datagram) :
    let w := run step (World.init vol) history
    let w₁ := step w (.request o d)
    tftpDecodeOp d.p = .wrq →
    w₁.pcbs w.nextPcb = some (some recv) →
    Along (wrqStep w.nextPcb) (DataInOrder w.nextPcb) w₁ ds →
    let w₂ := run (wrqStep w.nextPcb) w₁ ds
    let r := run Receiver.step {} ds
    (w₂.pcbs w.nextPcb = none ↔ r.done = true) ∧
      (w₂.pcbs w.nextPcb = none →
        fileContent w₂.vol (tftpExtractFilename d.p) = some r.accepted.flatten) := by
  intro w w₁ hop hs hds w₂ r
  -- the run and the receiver agree after the request and after every datagram
  have hfollows : Follows (tftpExtractFilename d.p) w.nextPcb w₂ r := by
    have hstart : Follows (tftpExtractFilename d.p) w.nextPcb w₁ {} :=
      follows_request (fresh_run vol history _ (Nat.le_refl _)) hop hs
    have hstep : ∀ w' r' d', Follows (tftpExtractFilename d.p) w.nextPcb w' r' →
        DataInOrder w.nextPcb w' d' →
        Follows (tftpExtractFilename d.p) w.nextPcb (wrqStep w.nextPcb w' d') (r'.step d') :=
      fun _ _ _ h hd => wrq_step h hd
    exact run_sim hstep hstart hds
  have hend : w₂.pcbs w.nextPcb = none ↔ r.done = true := by
    constructor
    · intro hnone
      by_contra hlive
      obtain ⟨args, hsome, -⟩ := hfollows.live (by simpa using hlive)
      rw [hnone] at hsome
      cases hsome
    · exact fun hdone => (hfollows.ended hdone).1
  exact ⟨hend, fun hnone => (hfollows.ended (hend.mp hnone)).2⟩

/-! ### A foreign short packet -/

/-- An empty formatted volume. -/
def emptyVol : Volume where
  fatFs := none
  obj := fun _ => {}
  fsid := 0
  fmt := 3
  files := fun _ => none
  follow := fun p => if p = rootPath then .origin else .entry p
  nodes := fun _ => none

/-- The write request for `A`. -/
def writeA : Datagram := { p := .single ([0, 2] ++ textBytes "A" ++ [0]) }

/-- A DATA block as a datagram. -/
def dataBlock (k : Nat) (bytes : List UInt8) : Datagram := { p := .single (tftpDataPacket k bytes) }

/-- A transfer of a full and a short block, with the full block repeated. -/
def twoBlocks : List Datagram :=
  [dataBlock 1 (List.replicate 512 7), dataBlock 1 (List.replicate 512 7), dataBlock 2 [8]]

/-- A duplicate of block 1 that is shorter than 512 bytes ends the session although the receiver
still waits for block 2. -/
theorem wrq_stale_short_ends :
    let w₁ := step (World.init emptyVol) (.request {} writeA)
    let ds := [dataBlock 1 (List.replicate 512 7), dataBlock 1 [7]]
    (w₁.pcbs 0).isSome ∧ (run (wrqStep 0) w₁ ds).pcbs 0 = none ∧
      (run Receiver.step {} ds).done = false := by
  decide +kernel

/-- The transfer `twoBlocks` to the file `A`. -/
theorem wrq_follows_receiver_twoBlocks :
    let w := run step (World.init emptyVol) []
    let w₁ := step w (.request {} writeA)
    let w₂ := run (wrqStep w.nextPcb) w₁ twoBlocks
    let r := run Receiver.step {} twoBlocks
    (w₂.pcbs w.nextPcb = none ↔ r.done = true) ∧
      (w₂.pcbs w.nextPcb = none →
        fileContent w₂.vol (tftpExtractFilename writeA.p) = some r.accepted.flatten) :=
  wrq_follows_receiver emptyVol [] {} writeA
    (.wrqRecvCallback { op := .wrq, toIp := 0, toPort := 0, block := 0 }) twoBlocks
    (by decide) (by decide +kernel) (by decide +kernel)

end NucleoH743.Proofs.Tftp
