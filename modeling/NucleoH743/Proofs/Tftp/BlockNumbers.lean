import NucleoH743.Proofs.Tftp.ReadEnd
import NucleoH743.Proofs.Tftp.WriteAck

/-!
# `Proofs.Tftp.BlockNumbers`: the 16-bit block number and the counter

The counter of a session is an `int`; the packets carry it modulo 65536, and both comparisons
take the number from the packet for the counter itself. So the packets of a session are decoded
rightly at every counter, but understood only below the wrap.

The two comparisons are not made alike. A read session compares the counter with the number in the
acknowledgement, and a write session compares the number in the packet with the counter plus one. So
a read session fails from counter 65536 on and a write session from 65535 on, in each case because a
number of 16 bits cannot be equal to it.

An equivalence for every counter would say little if large ones were never reached, so the second
part reaches them. The acknowledgements of the blocks are served one after the other, by induction
on their number, and each leaves the session in the state for the next block. Of the file only its
length is used, so that nothing of its size is ever evaluated.

- `readNumber_iff`, `writeNumber_iff`: the two comparisons, for every counter.
- `numbers_right_iff`: the same for the sessions of every reachable state.
- `acks_reach`: a read session whose file is long enough and whose packets are all acknowledged
  reaches every counter up to 65536, where it is stuck (`rrqCount_stuck`).
-/

set_option autoImplicit false

namespace NucleoH743.Proofs.Tftp

open NucleoH743.FatFs
open CStr (textBytes)
open NucleoH743.Tftp
open EventRun (run Along)

/-- The DATA packet of block `b` decodes to DATA, the number `b` modulo 65536 and the payload, and
the acknowledgement of the number it carries is the right one for the counter `b`. -/
structure ReadNumberRight (b : Nat) : Prop where
  op : ∀ payload, payload.length ≤ 512 →
    tftpDecodeOp (.single (tftpDataPacket b payload)) = .data
  block : ∀ payload, payload.length ≤ 512 →
    tftpExtractBlock (.single (tftpDataPacket b payload)) = b % 65536
  payload : ∀ payload, payload.length ≤ 512 →
    (tftpDataPacket b payload).drop tftpDataPktHdrLen = payload
  ack : ∀ payload, payload.length ≤ 512 → tftpIsCorrectAck
    (.single (tftpAckPacket (tftpExtractBlock (.single (tftpDataPacket b payload))))) b = true

/-- The write session takes the DATA packet with the number after its counter, modulo 65536, for its
next block. -/
def WriteNumberRight (w : World) (upcb : Nat) (args : Args) : Prop :=
  ∀ payload, payload.length ≤ 512 → ∀ ip port o,
    (wrqAccept w args upcb (.single (tftpDataPacket (args.block + 1) payload)) ip port o).2.block =
      args.block + 1

/-- The numbers are right for every session. -/
def NumbersRight (w : World) : Prop :=
  ∀ upcb, (∀ args ∈ rrqArgs w upcb, ReadNumberRight args.block) ∧
    (∀ args ∈ wrqArgs w upcb, WriteNumberRight w upcb args)

/-- Neither the counter of a read session nor the next one of a write session has reached the
65536 at which the number on the wire wraps. -/
def BelowWrap (w : World) : Prop :=
  ∀ upcb, (∀ args ∈ rrqArgs w upcb, args.block < 65536) ∧
    (∀ args ∈ wrqArgs w upcb, args.block + 1 < 65536)

/-! ### The comparisons -/

/-- The block number on the wire is the counter of a read session iff the counter fits 16 bits. -/
theorem readNumber_iff (b : Nat) : ReadNumberRight b ↔ b < 65536 := by
  constructor
  · intro h
    have hack := h.ack [] (Nat.zero_le _)
    rw [tftpIsCorrectAck_iff, tftpExtractBlock_ackPacket] at hack
    have hb : tftpExtractBlock (.single (tftpDataPacket b [])) % 65536 = b := hack.2
    rw [← hb]
    exact Nat.mod_lt _ (by decide)
  · intro hb
    exact {
      op := fun _ _ => rfl
      block := fun payload _ => tftpExtractBlock_dataPacket b payload
      payload := fun _ _ => rfl
      ack := by
        intro payload _
        rw [tftpIsCorrectAck_iff, tftpExtractBlock_ackPacket, tftpExtractBlock_dataPacket,
          Nat.mod_mod, Nat.mod_eq_of_lt hb]
        exact ⟨tftpDecodeOp_ackPacket b, rfl⟩ }

/-- In a write session it is the number of the next block that has to fit. The number on the wire is
taken modulo 65536 and compared with the counter plus one. -/
theorem writeNumber_iff (w : World) (upcb : Nat) (args : Args) :
    WriteNumberRight w upcb args ↔ args.block + 1 < 65536 := by
  have hcount : ∀ payload ip port o, (wrqAccept w args upcb
      (.single (tftpDataPacket (args.block + 1) payload)) ip port o).2.block =
        wrqCount args (.single (tftpDataPacket (args.block + 1) payload)) :=
    fun _ _ _ _ => (wrqAccept_spec ..).1
  constructor
  · intro h
    by_contra hwrap
    have hcounted := h [] (Nat.zero_le _) 0 0 {}
    rw [hcount, wrqCount, if_neg] at hcounted
    · omega
    · have hlt := tftpExtractBlock_lt (.single (tftpDataPacket (args.block + 1) []))
      omega
  · intro hlt payload _ ip port o
    rw [hcount, wrqCount, if_pos]
    rw [tftpExtractBlock_dataPacket, Nat.mod_eq_of_lt hlt]

/-- A read session at 65536 counts no further, whatever it receives. -/
theorem rrqCount_stuck {args : Args} (h : 65536 ≤ args.block) (p : Pbuf) :
    rrqCount args p = args.block := by
  rw [rrqCount, if_neg]
  rw [tftpIsCorrectAck_iff]
  have hlt := tftpExtractBlock_lt p
  omega

/-- A write session at 65535 counts no further, whatever it receives. -/
theorem wrqCount_stuck {args : Args} (h : 65535 ≤ args.block) (p : Pbuf) :
    wrqCount args p = args.block := by
  rw [wrqCount, if_neg]
  have hlt := tftpExtractBlock_lt p
  omega

/-- In every reachable state, the numbers are right for every session exactly if no counter has
reached the wrap. What is wrong at the wrap is that the acknowledgement of the packet that was sent
is refused, in a read session, and the next block, in a write session. `counter_wraps` is a run to
such a state. -/
theorem numbers_right_iff (vol : Volume) (es : List SharedEvent) :
    let w := run sharedStep (World.init vol) es
    NumbersRight w ↔ BelowWrap w := by
  intro w
  refine forall_congr' fun upcb => and_congr ?_ ?_
  · exact forall₂_congr fun args _ => readNumber_iff args.block
  · exact forall₂_congr fun args _ => writeNumber_iff w upcb args

/-! ### Reaching the wrap -/

/-- A volume with the one file `A`. -/
def oneFileVol (content : List UInt8) : Volume :=
  { twoBlockVol with nodes := fun e => if e = textBytes "A" then some (.file content) else none }

/-- The acknowledgements of the blocks 1 to `n`. -/
def acks (n : Nat) : List SharedEvent :=
  (List.range n).map fun k =>
    .server (.datagram 0 {} { p := .single (tftpAckPacket (k + 1)) })

section Reach
variable {content : List UInt8}

/-- The world after the read request for `A`. -/
def requestA (content : List UInt8) : World :=
  step (World.init (oneFileVol content)) (.request {} readA)

/-- The read request for the file has started a session, with its first block in the arguments. -/
theorem requestA_session (content : List UInt8) :
    (requestA content).pcbs 0 = some (some (.rrqRecvCallback
      { op := .rrq, data := content.take 512, toIp := 0, toPort := 0, block := 1 })) := rfl

/-- It is a session of the file from its first block on. -/
theorem requestA_inv (content : List UInt8) :
    RrqInv (textBytes "A") content 0 0 (requestA content) :=
  rrqInv_request (w := World.init (oneFileVol content)) rfl rfl rfl (requestA_session content)

/-- A block inside the file has 512 bytes. -/
theorem fileBlock_full {k : Nat} (hpos : 1 ≤ k) (hlen : 512 * k ≤ content.length) :
    (fileBlock content k).length = 512 := by
  rw [fileBlock_eq content hpos, List.length_take, List.length_drop]
  omega

/-- After the first `n` acknowledgements the session is at block `n + 1`. By induction on `n`. The
block in the buffer is a full one as long as the file goes on, so the session is not ended by its
acknowledgement. -/
theorem acks_reach (hlen : 512 * 65535 ≤ content.length) (n : Nat) (hn : n ≤ 65535) :
    RrqInv (textBytes "A") content 0 0 (run sharedStep (requestA content) (acks n)) ∧
      ∃ args, (run sharedStep (requestA content) (acks n)).pcbs 0 =
        some (some (.rrqRecvCallback args)) ∧ args.block = n + 1 := by
  induction n with
  | zero => exact ⟨requestA_inv content, _, requestA_session content, rfl⟩
  | succ n ih =>
    obtain ⟨hinv, args, hs, hblock⟩ := ih (by omega)
    have hsplit : acks (n + 1) = acks n ++
        [.server (.datagram 0 {} { p := .single (tftpAckPacket (n + 1)) })] := by
      rw [acks, List.range_succ, List.map_append]
      rfl
    rw [hsplit, EventRun.run_append]
    generalize run sharedStep (requestA content) (acks n) = w at *
    -- the block in the buffer is a full one, so the session goes on
    obtain ⟨args', hargs', -, -, hin⟩ := hinv.session _ hs
    obtain rfl : args = args' := by simpa using hargs'
    have hfull : ¬ args.dataLen < tftpDataLenMax := by
      rw [Args.dataLen, (hin (by omega)).last, fileBlock_full (by omega) (by omega)]
      decide
    have hack : tftpIsCorrectAck (.single (tftpAckPacket (n + 1))) args.block = true := by
      rw [tftpIsCorrectAck_iff, tftpExtractBlock_ackPacket, hblock, Nat.mod_eq_of_lt (by omega)]
      exact ⟨rfl, rfl⟩
    constructor
    · refine rrq_step hinv ?_
      intro args₁ hargs₁
      have hsame : args₁ = args := by simpa [rrqArgs, hs, eq_comm] using hargs₁
      exact .inr (.inr (hsame ▸ hack))
    · obtain ⟨data, -, hnext⟩ := rrq_effects_next (o := {})
        (d := { p := .single (tftpAckPacket (n + 1)) }) hs hfull
      refine ⟨_, hnext, ?_⟩
      rw [rrqCount, if_pos hack, hblock]

/-- At counter 65536 the acknowledgement of the packet is refused. -/
theorem acks_wrap (hlen : 512 * 65535 ≤ content.length) {n : Nat} (hn : n = 65535) :
    ¬ NumbersRight (run sharedStep (World.init (oneFileVol content))
      (.server (.request {} readA) :: acks n)) := by
  intro h
  obtain ⟨-, args, hs, hblock⟩ := acks_reach hlen n (by omega)
  have hlt : args.block < 65536 :=
    (readNumber_iff args.block).mp ((h 0).1 args (rrqArgs_eq_some.mpr hs))
  omega

end Reach

/-- A file of 65535 full blocks, each acknowledged once, takes a read session to the wrap. -/
theorem counter_wraps :
    ¬ ∀ (vol : Volume) (es : List SharedEvent),
      NumbersRight (run sharedStep (World.init vol) es) := by
  intro h
  have hlen : 512 * 65535 ≤ (List.replicate (512 * 65535) (0 : UInt8)).length :=
    Nat.le_of_eq List.length_replicate.symm
  exact acks_wrap hlen rfl (h _ _)

end NucleoH743.Proofs.Tftp
