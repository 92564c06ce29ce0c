import NucleoH743.Lib.CStr
import NucleoH743.Lib.Ring
import NucleoH743.Lib.Run
import NucleoH743.Uart.Receive
import Mathlib.Data.List.Infix
import Mathlib.Tactic.SplitIfs

/-!
# `Proofs.Uart.Receive`: what the terminal gets of the bytes received

The ring `buf_cmd` has 50 slots and no check for a full ring. Equal indices mean an empty ring,
so it holds 49 bytes that wait for the terminal. `RoomFor` says that a byte arrives while there
is room; one more fits while the loop is between its test and the call that takes a byte.

`Indices` says of every run where the two indices are: at the number of bytes received and
processed, modulo the size of the ring. So the loop test compares two numbers modulo 50, and finds
the ring empty whenever a multiple of 50 bytes wait.

With room for each byte fewer than 50 wait, the slots between the indices hold them in order
(`InRing`), and the test is right. Without room for one, at least 50 wait from then on (`Overrun`):
the loop takes them one by one, and when 50 are left it finds the indices equal and ends.

- `receive_complete`: a run whose bytes all find room gives the terminal what was received, in
  order, and its loop ends only when nothing is left. After a byte without room the loop never
  ends with everything processed.
-/

set_option autoImplicit false

namespace NucleoH743.Proofs.Uart

open NucleoH743.Uart
open NucleoH743.Uart.Receiver (setup step)
open EventRun (run Along run_inv)
open CStr (textBytes)

/-- The bytes that wait for the terminal. -/
def waiting (s : Receiver) : Nat := s.received.length - s.processed.length

/-- A byte that arrives finds room in the ring. -/
def RoomFor (s : Receiver) (e : ReceiverEvent) : Prop :=
  (s.arrival e).isSome →
    waiting s < dbgUartMaxSizeCmdBuff - 1 ∨
      (s.pc = .process ∧ waiting s = dbgUartMaxSizeCmdBuff - 1)

instance (s : Receiver) (e : ReceiverEvent) : Decidable (RoomFor s e) :=
  inferInstanceAs (Decidable (_ → _))

/-- The loop of `terminal_cntrl` finds the ring empty and ends. -/
def LoopEnds (s : Receiver) : Prop :=
  s.pc = .test ∧ s.indexRdBufCmd = s.dbg.indexWrBufCmd

instance (s : Receiver) : Decidable (LoopEnds s) := inferInstanceAs (Decidable (_ ∧ _))

/-- The terminal gets the bytes received: in order, and all of them before the loop ends. -/
structure Complete (s : Receiver) : Prop where
  inOrder : s.processed <+: s.received
  drained : LoopEnds s → s.processed = s.received

/-! ### The indices -/

/-- The read index when `n` bytes have been processed. -/
def ReadIndex (n : Nat) (r : Nat) : CntrlPc → Prop
  | .delay | .test | .process => r = n % dbgUartMaxSizeCmdBuff
  | .increment => ∃ k, n = k + 1 ∧ r = k % dbgUartMaxSizeCmdBuff
  | .wrap => ∃ k, n = k + 1 ∧ r = k % dbgUartMaxSizeCmdBuff + 1

/-- Where the indices stand in every run, overrun or not. -/
structure Indices (s : Receiver) : Prop where
  write : s.dbg.indexWrBufCmd = s.received.length % dbgUartMaxSizeCmdBuff
  read : ReadIndex s.processed.length s.indexRdBufCmd s.pc
  le : s.processed.length ≤ s.received.length
  next : s.pc = .process → s.processed.length < s.received.length

/-- At the start both indices are 0. -/
theorem indices_setup : Indices setup where
  write := rfl
  read := rfl
  le := Nat.le_refl _
  next := by simp [setup]

/-- The buffer has a place. -/
theorem cmdBuff_pos : 0 < dbgUartMaxSizeCmdBuff := by decide

/-- The size of the buffer. -/
theorem cmdBuff_eq : dbgUartMaxSizeCmdBuff = 50 := rfl

section Driver
variable (s : Receiver) (d : DbgEvent)

/-- `_write` works on the other ring. -/
theorem writeNext_cmd (s : Dbg) :
    s.writeNext.bufCmd = s.bufCmd ∧ s.writeNext.indexWrBufCmd = s.indexWrBufCmd := by
  unfold Dbg.writeNext Dbg.advance
  cases s.pc with
  | emptyAdvance | moreAdvance => split_ifs <;> exact ⟨rfl, rfl⟩
  | idle | emptyStore _ | emptyEnable | moreStore _ => exact ⟨rfl, rfl⟩

/-- `_write` does not touch the receive ring. -/
theorem writeTest_cmd (s : Dbg) (data : UInt8) :
    (s.writeTest data).bufCmd = s.bufCmd ∧
      (s.writeTest data).indexWrBufCmd = s.indexWrBufCmd := by
  unfold Dbg.writeTest
  split <;> exact ⟨rfl, rfl⟩

/-- Nor does the part of the handler that transmits. -/
theorem irqTransmit_cmd (s : Dbg) (txfnf : Bool) :
    (s.irqTransmit txfnf).bufCmd = s.bufCmd ∧
      (s.irqTransmit txfnf).indexWrBufCmd = s.indexWrBufCmd := by
  unfold Dbg.irqTransmit
  split_ifs <;> exact ⟨rfl, rfl⟩

/-- Without an arrival the driver leaves the ring alone. A step of `_write` works on the other
ring. -/
theorem driver_none (h : s.arrival (.driver d) = none) :
    (s.dbg.step d).bufCmd = s.dbg.bufCmd ∧
      (s.dbg.step d).indexWrBufCmd = s.dbg.indexWrBufCmd := by
  cases d with
  | write data => exact writeTest_cmd s.dbg data
  | next => exact writeNext_cmd s.dbg
  | irq rdr txfnf =>
    have hrecv : s.dbg.irqReceive rdr = s.dbg := by
      unfold Dbg.irqReceive
      cases rdr with
      | none => rfl
      | some b =>
        cases hen : s.dbg.rxneie with
        | false => rfl
        | true => simp [Receiver.arrival, hen] at h
    show ((s.dbg.irqReceive rdr).irqTransmit txfnf).bufCmd = _ ∧
      ((s.dbg.irqReceive rdr).irqTransmit txfnf).indexWrBufCmd = _
    rw [hrecv]
    exact irqTransmit_cmd s.dbg txfnf

/-- A byte that arrives is stored at the write index, which moves on. At the end of the ring it goes
to 0. No test looks at the read index. -/
theorem driver_some {b : UInt8} (h : s.arrival (.driver d) = some b) :
    (s.dbg.step d).bufCmd = Function.update s.dbg.bufCmd s.dbg.indexWrBufCmd b ∧
      (s.dbg.step d).indexWrBufCmd =
        if s.dbg.indexWrBufCmd + 1 ≥ dbgUartMaxSizeCmdBuff then 0
        else s.dbg.indexWrBufCmd + 1 := by
  cases d with
  | write data => cases h
  | next => cases h
  | irq rdr txfnf =>
    cases hen : s.dbg.rxneie with
    | false => simp [Receiver.arrival, hen] at h
    | true =>
      have hrdr : rdr = some b := by
        rw [Receiver.arrival, if_pos hen] at h
        exact h
      subst hrdr
      show ((s.dbg.irqReceive (some b)).irqTransmit txfnf).bufCmd = _ ∧
        ((s.dbg.irqReceive (some b)).irqTransmit txfnf).indexWrBufCmd = _
      rw [(irqTransmit_cmd _ txfnf).1, (irqTransmit_cmd _ txfnf).2]
      simp [Dbg.irqReceive, hen]

end Driver

/-- A byte that arrives moves the write index along. Modulo the size of the ring it is the number of
bytes received. -/
theorem indices_driver {s : Receiver} (hs : Indices s) (d : DbgEvent) :
    Indices (step s (.driver d)) := by
  cases harr : s.arrival (.driver d) with
  | none =>
    have hsame : step s (.driver d) = { s with dbg := s.dbg.step d } := by
      simp [step, harr]
    rw [hsame]
    exact ⟨(driver_none s d harr).2.trans hs.write, hs.read, hs.le, hs.next⟩
  | some b =>
    have hmore : step s (.driver d) =
        { s with dbg := s.dbg.step d, received := s.received ++ [b] } := by
      simp [step, harr]
    rw [hmore]
    refine ⟨?_, hs.read, ?_, fun hpc => ?_⟩
    · rw [(driver_some s d harr).2, hs.write, List.length_append, List.length_singleton]
      exact Ring.next_slot cmdBuff_pos _
    · rw [List.length_append]
      exact Nat.le_add_right_of_le hs.le
    · rw [List.length_append]
      exact Nat.lt_add_right _ (hs.next hpc)

/-- The read index follows the bytes that were processed. By the step of the loop. The index moves
when a byte was taken, and not at the test. -/
theorem indices_task {s : Receiver} (hs : Indices s) : Indices (step s .task) := by
  have hread := hs.read
  show Indices s.taskNext
  unfold Receiver.taskNext
  cases hpc : s.pc with
  | delay =>
    rw [hpc] at hread
    exact ⟨hs.write, hread, hs.le, by simp⟩
  | test =>
    rw [hpc] at hread
    by_cases hne : s.dbg.indexWrBufCmd ≠ s.indexRdBufCmd
    · refine ⟨hs.write, ?_, hs.le, fun _ => ?_⟩
      · show ReadIndex _ _ (if _ then _ else _)
        rw [if_pos hne]
        exact hread
      · -- different indices, so different counts
        refine Nat.lt_of_le_of_ne hs.le fun heq => hne ?_
        rw [hs.write, ← heq]
        exact hread.symm
    · refine ⟨hs.write, ?_, hs.le, ?_⟩
      · show ReadIndex _ _ (if _ then _ else _)
        rw [if_neg hne]
        exact hread
      · simp [if_neg hne]
  -- one command more is processed, and the index has not followed yet
  | process =>
    rw [hpc] at hread
    refine ⟨hs.write, ⟨s.processed.length, by simp, hread⟩, ?_, by simp⟩
    rw [List.length_append]
    exact hs.next hpc
  | increment =>
    rw [hpc] at hread
    obtain ⟨k, hk, hr⟩ := hread
    exact ⟨hs.write, ⟨k, hk, congrArg (· + 1) hr⟩, hs.le, by simp⟩
  | wrap =>
    rw [hpc] at hread
    obtain ⟨k, hk, hr⟩ := hread
    refine ⟨hs.write, ?_, hs.le, by simp⟩
    show (if s.indexRdBufCmd ≥ dbgUartMaxSizeCmdBuff then 0 else s.indexRdBufCmd) =
      s.processed.length % dbgUartMaxSizeCmdBuff
    rw [hr, hk]
    exact Ring.next_slot cmdBuff_pos k

/-- Every step moves the indices along with the bytes. -/
theorem indices_step (s : Receiver) (e : ReceiverEvent) (hs : Indices s) :
    Indices (step s e) := by
  cases e with
  | driver d => exact indices_driver hs d
  | task => exact indices_task hs

/-- At the loop test equal indices mean that the bytes waiting fill the ring a whole number of
times. -/
theorem loopEnds_iff {s : Receiver} (hs : Indices s) (hpc : s.pc = .test) :
    LoopEnds s ↔ waiting s % dbgUartMaxSizeCmdBuff = 0 := by
  have hread := hs.read
  rw [hpc] at hread
  have hrd : s.indexRdBufCmd = s.processed.length % dbgUartMaxSizeCmdBuff := hread
  have hle := hs.le
  simp only [LoopEnds, hpc, true_and, hrd, hs.write, waiting, dbgUartMaxSizeCmdBuff]
  omega

/-! ### A run with room -/

/-- The ring holds the bytes that wait, and there are no more than fit. -/
structure InRing (s : Receiver) : Prop where
  indices : Indices s
  inOrder : s.processed <+: s.received
  holds : Ring.Holds dbgUartMaxSizeCmdBuff s.dbg.bufCmd s.processed.length
    (s.received.drop s.processed.length)
  few : waiting s < dbgUartMaxSizeCmdBuff ∨
    (s.pc = .process ∧ waiting s = dbgUartMaxSizeCmdBuff)

/-- At the start the ring is empty. -/
theorem inRing_setup : InRing setup where
  indices := indices_setup
  inOrder := List.prefix_rfl
  holds := Ring.holds_nil
  few := .inl cmdBuff_pos

/-- A byte with room joins the ones that wait. The slot at the write index is none of those that
wait, since there is room, so no byte is overwritten. -/
theorem InRing.arrive {s : Receiver} (hs : InRing s) {d : DbgEvent} {b : UInt8}
    (harr : s.arrival (.driver d) = some b) (hroom : RoomFor s (.driver d)) :
    InRing (step s (.driver d)) := by
  have hidx := indices_step s (.driver d) hs.indices
  have hmore : step s (.driver d) =
      { s with dbg := s.dbg.step d, received := s.received ++ [b] } := by
    simp [step, harr]
  have hle := hs.indices.le
  have hwait : waiting (step s (.driver d)) = waiting s + 1 := by
    rw [hmore]
    simp only [waiting, List.length_append, List.length_singleton]
    omega
  have hfew := hroom (by rw [harr]; rfl)
  -- the ring has a slot left for the byte
  have hfits : waiting s < dbgUartMaxSizeCmdBuff := by
    simp only [dbgUartMaxSizeCmdBuff] at hfew ⊢
    omega
  rw [hmore] at hidx hwait ⊢
  refine ⟨hidx, hs.inOrder.trans (List.prefix_append _ _), ?_, ?_⟩
  · show Ring.Holds _ (s.dbg.step d).bufCmd s.processed.length
      ((s.received ++ [b]).drop s.processed.length)
    have hlen : (s.received.drop s.processed.length).length = waiting s := List.length_drop
    have hslot : (s.processed.length + waiting s) % dbgUartMaxSizeCmdBuff =
        s.dbg.indexWrBufCmd := by
      rw [hs.indices.write, waiting, Nat.add_sub_cancel' hle]
    have hpush := Ring.holds_push hs.holds (hlen.trans_lt hfits) b
    rw [hlen, hslot] at hpush
    rw [List.drop_append_of_le_length hle, (driver_some s d harr).1]
    exact hpush
  · rw [hwait]
    have hN := cmdBuff_eq
    rcases hfew with hfew | ⟨hpc, hfew⟩
    · exact .inl (by omega)
    · exact .inr ⟨hpc, by omega⟩

/-- The byte that the loop takes is the first that waits. The slot at the read index, which the
handler does not write while there is room. -/
theorem InRing.take {s : Receiver} (hs : InRing s) (hpc : s.pc = .process) :
    InRing (step s .task) := by
  have hidx := indices_step s .task hs.indices
  have hlt := hs.indices.next hpc
  have hread := hs.indices.read
  rw [hpc] at hread
  -- the first byte that waits, and the others
  have hcons := List.drop_eq_getElem_cons hlt
  have hholds := hs.holds
  rw [hcons] at hholds
  have hbyte : s.dbg.bufCmd s.indexRdBufCmd = s.received[s.processed.length] := by
    rw [show s.indexRdBufCmd = _ from hread]
    exact Ring.holds_head hholds
  have hstep : step s .task =
      { s with
        processed := s.processed ++ [s.received[s.processed.length]]
        pc := .increment } := by
    show s.taskNext = _
    rw [Receiver.taskNext, hpc, ← hbyte]
  have hlen : (s.processed ++ [s.received[s.processed.length]]).length =
      s.processed.length + 1 := by simp
  rw [hstep] at hidx ⊢
  refine ⟨hidx, ?_, ?_, .inl ?_⟩
  · have htake : s.processed = s.received.take s.processed.length :=
      List.prefix_iff_eq_take.1 hs.inOrder
    show s.processed ++ [s.received[s.processed.length]] <+: s.received
    rw [List.prefix_iff_eq_take, hlen, List.take_succ_eq_append_getElem hlt, ← htake]
  · show Ring.Holds _ _ (s.processed ++ [_]).length (s.received.drop (s.processed ++ [_]).length)
    rw [hlen]
    exact Ring.holds_tail hholds
  · have hfew := hs.few
    have hN := cmdBuff_eq
    show s.received.length - (s.processed ++ [_]).length < dbgUartMaxSizeCmdBuff
    rw [hlen]
    simp only [waiting] at hfew
    omega

/-- A step that neither receives nor processes a byte keeps the bytes that wait. -/
theorem InRing.frame {s t : Receiver} (hs : InRing s) (hidx : Indices t)
    (hbuf : t.dbg.bufCmd = s.dbg.bufCmd) (hrec : t.received = s.received)
    (hproc : t.processed = s.processed) (hpc : s.pc = .process → t.pc = .process) :
    InRing t := by
  have hwait : waiting t = waiting s := by rw [waiting, waiting, hrec, hproc]
  refine ⟨hidx, ?_, ?_, ?_⟩
  · rw [hrec, hproc]
    exact hs.inOrder
  · rw [hrec, hproc, hbuf]
    exact hs.holds
  · rw [hwait]
    exact hs.few.imp_right fun h => ⟨hpc h.1, h.2⟩

/-- Every step under the condition keeps the bytes that wait in the ring. By whether a byte arrives,
is taken, or neither. -/
theorem inRing_step (s : Receiver) (e : ReceiverEvent) (hs : InRing s) (hroom : RoomFor s e) :
    InRing (step s e) := by
  have hidx := indices_step s e hs.indices
  cases e with
  | driver d =>
    cases harr : s.arrival (.driver d) with
    | none =>
      have hsame : step s (.driver d) = { s with dbg := s.dbg.step d } := by
        simp [step, harr]
      rw [hsame] at hidx ⊢
      exact hs.frame hidx (driver_none s d harr).1 rfl rfl id
    | some b => exact hs.arrive harr hroom
  | task =>
    cases hpc : s.pc with
    | process => exact hs.take hpc
    | delay | test | increment | wrap =>
      have hstep : step s .task = s.taskNext := rfl
      rw [hstep, Receiver.taskNext, hpc] at hidx ⊢
      exact hs.frame hidx rfl rfl rfl (by simp [hpc])

/-- With the waiting bytes in the ring the terminal gets all of them. -/
theorem InRing.complete {s : Receiver} (hs : InRing s) : Complete s where
  inOrder := hs.inOrder
  drained hend := by
    have hmod := (loopEnds_iff hs.indices hend.1).1 hend
    have hfew := hs.few.resolve_right fun h => by simp [hend.1] at h
    have hzero : waiting s = 0 := by
      rwa [Nat.mod_eq_of_lt hfew] at hmod
    exact hs.inOrder.eq_of_length_le (Nat.sub_eq_zero_iff_le.1 hzero)

/-! ### After a byte without room -/

/-- More bytes wait than the ring can hold. -/
def Overrun (s : Receiver) : Prop :=
  dbgUartMaxSizeCmdBuff ≤ waiting s ∧ (s.pc = .process → dbgUartMaxSizeCmdBuff < waiting s)

/-- An overrun lasts: the loop finds the ring empty before it has processed every byte. The loop
passes its test only while the indices differ, that is, while the bytes waiting are no multiple of
the size of the ring. -/
theorem overrun_step (s : Receiver) (e : ReceiverEvent) (hidx : Indices s) (hs : Overrun s) :
    Overrun (step s e) := by
  obtain ⟨hfull, hmore⟩ := hs
  cases e with
  | driver d =>
    have hlen : waiting s ≤ waiting (step s (.driver d)) := by
      show s.received.length - s.processed.length ≤
        (s.received ++ (s.arrival (.driver d)).toList).length - s.processed.length
      rw [List.length_append]
      omega
    exact ⟨hfull.trans hlen, fun hpc => (hmore hpc).trans_le hlen⟩
  | task =>
    show Overrun s.taskNext
    unfold Receiver.taskNext
    cases hpc : s.pc with
    | delay | increment | wrap => exact ⟨hfull, by simp⟩
    | process =>
      have hwait := hmore hpc
      refine ⟨?_, by simp⟩
      simp only [waiting, List.length_append, List.length_singleton] at hwait ⊢
      omega
    | test =>
      refine ⟨hfull, fun hproc => ?_⟩
      -- the test went on, so the count is no multiple of the size
      have hne : ¬ LoopEnds s := by
        rintro ⟨-, heq⟩
        simp [heq] at hproc
      rw [loopEnds_iff hidx hpc] at hne
      have hwait : dbgUartMaxSizeCmdBuff ≠ waiting s := by
        intro heq
        rw [← heq, Nat.mod_self] at hne
        exact hne rfl
      exact Nat.lt_of_le_of_ne hfull hwait

/-- A byte without room starts an overrun. The bytes that wait are then as many as the ring has
slots, or more. -/
theorem overrun_of_noRoom {s : Receiver} {e : ReceiverEvent} (hidx : Indices s)
    (h : ¬ RoomFor s e) : Overrun (step s e) := by
  obtain ⟨harr, hno⟩ := Classical.not_imp.1 h
  cases e with
  | task => cases harr
  | driver d =>
    obtain ⟨b, hb⟩ := Option.isSome_iff_exists.1 harr
    have hle := hidx.le
    have hwait : waiting (step s (.driver d)) = waiting s + 1 := by
      simp only [waiting, step, hb, Option.toList_some, List.length_append,
        List.length_singleton]
      omega
    rw [Overrun, hwait]
    have hpc : (step s (.driver d)).pc = s.pc := rfl
    have hN := cmdBuff_eq
    obtain ⟨hless, hproc⟩ := not_or.1 hno
    refine ⟨by omega, fun hp => ?_⟩
    have hne : waiting s ≠ dbgUartMaxSizeCmdBuff - 1 := fun heq => hproc ⟨hpc ▸ hp, heq⟩
    omega

/-- A run with a byte that found no room is overrun from there on. -/
theorem overrun_of_not_along {s : Receiver} (hs : Indices s) {es : List ReceiverEvent}
    (h : ¬ Along step RoomFor s es) : Overrun (run step s es) := by
  induction es generalizing s with
  | nil => exact absurd trivial h
  | cons e es ih =>
    by_cases hroom : RoomFor s e
    · exact ih (indices_step s e hs) fun hes => h ⟨hroom, hes⟩
    · have hkeep : ∀ s e, Indices s ∧ Overrun s → True →
          Indices (step s e) ∧ Overrun (step s e) :=
        fun s e hs _ => ⟨indices_step s e hs.1, overrun_step s e hs.1 hs.2⟩
      exact (run_inv hkeep ⟨indices_step s e hs, overrun_of_noRoom hs hroom⟩
        (EventRun.along_true step _ es)).2

/-! ### The runs -/

/-- If every byte finds room, the terminal gets what was received. Otherwise every end of the loop
leaves bytes behind. The handler may come between any two steps of the loop, with a byte or without.
A byte that finds no room overwrites the oldest one, and fifty bytes that wait look like none. -/
theorem receive_complete (es : List ReceiverEvent) :
    (Along step RoomFor setup es → Complete (run step setup es)) ∧
    (¬ Along step RoomFor setup es → LoopEnds (run step setup es) →
      (run step setup es).processed ≠ (run step setup es).received) := by
  constructor
  · intro hes
    exact (run_inv inRing_step inRing_setup hes).complete
  · intro hes _ heq
    have hover := (overrun_of_not_along indices_setup hes).1
    rw [waiting, heq, Nat.sub_self] at hover
    exact absurd hover (by decide)

/-- A line of 71 bytes between two polls: its first byte is gone when the loop reads it. -/
theorem receive_overrun :
    ¬ Complete (run step setup
      ((textBytes
          ">damp fill 00000000000000000000000000000 00000000000000000000000000001\r").map
        (fun b => .driver (.irq (some b) false)) ++ [.task, .task, .task])) := by
  intro h
  have hne := h.inOrder
  revert hne
  decide +kernel

end NucleoH743.Proofs.Uart
