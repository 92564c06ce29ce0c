import NucleoH743.Uart.Debug
import NucleoH743.Lib.Run
import Mathlib.Tactic.SplitIfs

/-!
# `Proofs.Uart.Stall`: when the transmitter goes to sleep on a full ring

`_write` enables the transmit interrupt only after it has found the ring empty. A call that
found bytes in the ring relies on the interrupt that is still enabled for them. The handler
breaks this when it sends the last of those bytes and disables the interrupt before the call
has moved the write index on: `Drains` is that step.

The invariant of the good runs is `Awake`: what a call has found in the ring has the interrupt
enabled behind it. Each step keeps it but the one of `Drains`. The invariant of the bad ones is
`Lost`, from that step until a byte is left behind, which happens as soon as the call in progress
stores its byte; from there on it is `Stalled`.

A call that finds the ring empty would enable the interrupt again. After the stall the ring is not
empty, and it becomes so only if a full ring is written once more. That is the second condition of
`stalled_for_good`.

- `transmit_enabled_along`: a run without such a step never leaves a byte in the ring with the
  interrupt disabled, and a run with one does once its last `_write` has returned.
- `stalled_for_good`: after that nothing is sent any more, as long as the ring is not overfilled.
-/

set_option autoImplicit false

namespace NucleoH743.Proofs.Uart

open NucleoH743.Uart
open NucleoH743.Uart.Dbg (setup step)
open EventRun (run Along run_inv along_mono)

/-- The call in progress found bytes in the ring, and has not moved the write index yet. -/
def Appending : WritePc → Prop
  | .moreStore _ | .moreAdvance => True
  | .idle | .emptyStore _ | .emptyAdvance | .emptyEnable => False

instance : DecidablePred Appending := fun pc => by
  cases pc <;> simp only [Appending] <;> infer_instance

/-- The handler finds the ring empty and disables the interrupt under a call that found it
not empty. -/
def Drains (s : Dbg) : DbgEvent → Prop
  | .irq _ txfnf => Appending s.pc ∧ txfnf ∧ s.txeie ∧ s.RingEmpty
  | .write _ | .next => False

instance (s : Dbg) : DecidablePred (Drains s) := fun e =>
  match e with
  | .irq _ txfnf => inferInstanceAs (Decidable (Appending s.pc ∧ txfnf ∧ s.txeie ∧ s.RingEmpty))
  | .write _ | .next => isFalse id

/-- The bytes in the ring. -/
def pending (s : Dbg) : Nat :=
  (s.indexWrBufMes + dbgUartMaxSizeBuff - s.indexRdBufMes) % dbgUartMaxSizeBuff

/-- The step does not put a byte into a ring that holds as many as it can. -/
def NotOverfull (s : Dbg) : DbgEvent → Prop
  | .next => s.pc = .emptyAdvance ∨ s.pc = .moreAdvance → pending s < dbgUartMaxSizeBuff - 1
  | .write _ | .irq _ _ => True

instance (s : Dbg) : DecidablePred (NotOverfull s) := fun e =>
  match e with
  | .next => inferInstanceAs (Decidable (_ → _))
  | .write _ | .irq _ _ => isTrue trivial

/-- With no `_write` in progress and bytes in the ring, the transmit interrupt is enabled. -/
def TransmitEnabled (s : Dbg) : Prop := s.pc = .idle → ¬ s.RingEmpty → s.txeie

instance : DecidablePred TransmitEnabled := fun _ => inferInstanceAs (Decidable (_ → _))

/-! ### The interrupt handler -/

section Receive
variable (s : Dbg) (rdr : Option UInt8)

/-- The receive part changes the command buffer only. -/
theorem irqReceive_frame :
    ∃ buf i, s.irqReceive rdr = { s with bufCmd := buf, indexWrBufCmd := i } := by
  unfold Dbg.irqReceive
  split
  · exact ⟨_, _, rfl⟩
  · exact ⟨_, _, rfl⟩

/-- The part of the handler that receives does not touch the call that it interrupts. -/
@[simp] theorem irqReceive_pc : (s.irqReceive rdr).pc = s.pc := by
  obtain ⟨_, _, h⟩ := irqReceive_frame s rdr
  rw [h]

/-- It leaves the transmit interrupt as it is. -/
@[simp] theorem irqReceive_txeie : (s.irqReceive rdr).txeie = s.txeie := by
  obtain ⟨_, _, h⟩ := irqReceive_frame s rdr
  rw [h]

/-- It leaves the transmit register alone. -/
@[simp] theorem irqReceive_tdr : (s.irqReceive rdr).tdr = s.tdr := by
  obtain ⟨_, _, h⟩ := irqReceive_frame s rdr
  rw [h]

/-- It leaves the read index of the ring alone. -/
@[simp] theorem irqReceive_indexRd : (s.irqReceive rdr).indexRdBufMes = s.indexRdBufMes := by
  obtain ⟨_, _, h⟩ := irqReceive_frame s rdr
  rw [h]

/-- It leaves the write index alone. -/
@[simp] theorem irqReceive_indexWr : (s.irqReceive rdr).indexWrBufMes = s.indexWrBufMes := by
  obtain ⟨_, _, h⟩ := irqReceive_frame s rdr
  rw [h]

/-- So the ring is empty behind it iff it was before. -/
@[simp] theorem irqReceive_ringEmpty : (s.irqReceive rdr).RingEmpty ↔ s.RingEmpty := by
  simp [Dbg.RingEmpty]

/-- What the handler does: nothing to the transmitter, or it finds the ring empty and disables
the interrupt, or it sends a byte. -/
theorem irq_cases (txfnf : Bool) :
    (¬ (txfnf ∧ s.txeie) ∧ step s (.irq rdr txfnf) = s.irqReceive rdr) ∨
    ((txfnf ∧ s.txeie ∧ s.RingEmpty) ∧
      step s (.irq rdr txfnf) = { s.irqReceive rdr with txeie := false }) ∨
    ((txfnf ∧ s.txeie ∧ ¬ s.RingEmpty) ∧
      step s (.irq rdr txfnf) =
        { s.irqReceive rdr with
          tdr := s.tdr ++ [(s.irqReceive rdr).bufDbg s.indexRdBufMes]
          indexRdBufMes :=
            if s.indexRdBufMes + 1 ≥ dbgUartMaxSizeBuff then 0 else s.indexRdBufMes + 1 }) := by
  have hstep : step s (.irq rdr txfnf) = (s.irqReceive rdr).irqTransmit txfnf := rfl
  rw [hstep]
  by_cases hon : txfnf ∧ s.txeie
  · by_cases hempty : s.RingEmpty
    · refine .inr (.inl ⟨⟨hon.1, hon.2, hempty⟩, ?_⟩)
      rw [Dbg.irqTransmit, if_pos (by simpa using hon), if_pos (by simpa using hempty)]
    · refine .inr (.inr ⟨⟨hon.1, hon.2, hempty⟩, ?_⟩)
      rw [Dbg.irqTransmit, if_pos (by simpa using hon), if_neg (by simpa using hempty),
        irqReceive_tdr, irqReceive_indexRd]
  · refine .inl ⟨hon, ?_⟩
    rw [Dbg.irqTransmit, if_neg (by simpa using hon)]

/-- The handler leaves the call in progress alone. -/
@[simp] theorem irq_pc (txfnf : Bool) : (step s (.irq rdr txfnf)).pc = s.pc := by
  obtain ⟨-, h⟩ | ⟨-, h⟩ | ⟨-, h⟩ := irq_cases s rdr txfnf <;> simp [h]

end Receive

/-! ### The write index -/

/-- The write index moves. -/
theorem advance_indexWr_ne (s : Dbg) : s.advance.indexWrBufMes ≠ s.indexWrBufMes := by
  rw [Dbg.advance, dbgUartMaxSizeBuff]
  split_ifs with h
  · show s.indexWrBufMes + 1 ≠ s.indexWrBufMes
    omega
  · show 0 ≠ s.indexWrBufMes
    omega

/-- Only the write index moves. -/
theorem advance_frame (s : Dbg) : ∃ i, s.advance = { s with indexWrBufMes := i } := by
  rw [Dbg.advance]
  split_ifs
  · exact ⟨_, rfl⟩
  · exact ⟨_, rfl⟩

/-- A ring found empty is not empty after its write index has moved on. -/
theorem advance_not_ringEmpty {s : Dbg} (h : s.RingEmpty) : ¬ s.advance.RingEmpty := by
  obtain ⟨i, hi⟩ := advance_frame s
  have hne := advance_indexWr_ne s
  rw [hi] at hne ⊢
  intro hempty
  exact hne (hempty.symm.trans h)

/-! ### Runs without a drained ring -/

/-- A call that has found bytes in the ring, and a ring with bytes left by the calls before,
have the interrupt enabled. -/
structure Awake (s : Dbg) : Prop where
  idle : s.pc = .idle → ¬ s.RingEmpty → s.txeie = true
  appending : Appending s.pc → s.txeie = true

/-- At the start the ring is empty and no call is in progress. -/
theorem awake_setup : Awake setup := ⟨fun _ h => absurd rfl h, fun h => h.elim⟩

/-- One step keeps the transmitter awake, unless it drains the ring under a call. A step of the
handler sends a byte and leaves bytes, or empties the ring when no call has found bytes in it. A
step of a call enables the interrupt where it has found none. -/
theorem awake_step (s : Dbg) (e : DbgEvent) (hs : Awake s) (he : ¬ Drains s e) :
    Awake (step s e) := by
  cases e with
  | write data =>
    show Awake (s.writeTest data)
    unfold Dbg.writeTest
    cases hpc : s.pc with
    | idle =>
      by_cases hempty : s.RingEmpty
      · simp only [if_pos hempty]
        exact ⟨fun h => (nomatch h), fun h => h.elim⟩
      · simp only [if_neg hempty]
        exact ⟨fun h => (nomatch h), fun _ => hs.idle hpc hempty⟩
    | _ => exact hs
  | next =>
    show Awake s.writeNext
    unfold Dbg.writeNext
    cases hpc : s.pc with
    | idle => exact hs
    | emptyStore data => exact ⟨fun h => (nomatch h), fun h => h.elim⟩
    | emptyAdvance => exact ⟨fun h => (nomatch h), fun h => h.elim⟩
    | emptyEnable => exact ⟨fun _ _ => rfl, fun h => h.elim⟩
    | moreStore data => exact ⟨fun h => (nomatch h), fun _ => hs.appending (by rw [hpc]; trivial)⟩
    | moreAdvance =>
      -- the interrupt has stayed enabled since the test
      have htx : s.txeie = true := hs.appending (by rw [hpc]; trivial)
      obtain ⟨i, hi⟩ := advance_frame s
      rw [hi]
      exact ⟨fun _ _ => htx, fun h => h.elim⟩
  | irq rdr txfnf =>
    obtain ⟨-, h⟩ | ⟨⟨hfull, hon, hempty⟩, h⟩ | ⟨⟨-, hon, -⟩, h⟩ := irq_cases s rdr txfnf
    · rw [h]
      exact ⟨by simpa using hs.idle, by simpa using hs.appending⟩
    · -- the ring is empty, so the call in progress is not one that found it not empty
      have hpc : ¬ Appending s.pc := fun hpc => he ⟨hpc, hfull, hon, hempty⟩
      rw [h]
      refine ⟨fun _ hring => absurd ?_ hring, fun h => absurd ?_ hpc⟩
      · exact (irqReceive_ringEmpty s rdr).mpr hempty
      · rwa [← irqReceive_pc s rdr]
    · rw [h]
      have htx : (s.irqReceive rdr).txeie = true := by rw [irqReceive_txeie, hon]
      exact ⟨fun _ _ => htx, fun _ => htx⟩

/-! ### Runs with a drained ring -/

/-- The interrupt is disabled under a call that has found bytes in the ring, and they are
gone. -/
structure Lost (s : Dbg) : Prop where
  appending : Appending s.pc
  asleep : s.txeie = false
  empty : s.RingEmpty

/-- With the interrupt disabled the handler sends nothing. -/
theorem irq_asleep {s : Dbg} (rdr : Option UInt8) (txfnf : Bool) (h : s.txeie = false) :
    step s (.irq rdr txfnf) = s.irqReceive rdr := by
  obtain ⟨-, heq⟩ | ⟨⟨-, hon, -⟩, -⟩ | ⟨⟨-, hon, -⟩, -⟩ := irq_cases s rdr txfnf
  · exact heq
  · rw [h] at hon
    cases hon
  · rw [h] at hon
    cases hon

/-- Where the handler empties the ring under a call that found bytes in it, the wake-up is lost: the
call stores its byte and enables nothing. -/
theorem Drains.lost {s : Dbg} {e : DbgEvent} (h : Drains s e) : Lost (step s e) := by
  cases e with
  | write data => exact h.elim
  | next => exact h.elim
  | irq rdr txfnf =>
    obtain ⟨hpc, hfull, hon, hempty⟩ := h
    obtain ⟨hoff, -⟩ | ⟨-, heq⟩ | ⟨⟨-, -, hring⟩, -⟩ := irq_cases s rdr txfnf
    · exact absurd ⟨hfull, hon⟩ hoff
    · rw [heq]
      exact ⟨by simpa using hpc, rfl, (irqReceive_ringEmpty s rdr).mpr hempty⟩
    · exact absurd hempty hring

/-- The call in progress stays in the middle as long as no byte is left behind. When it stores its
byte, the byte is left with the interrupt disabled, which the hypothesis excludes. -/
theorem lost_step (s : Dbg) (e : DbgEvent) (hs : Lost s) (he : TransmitEnabled (step s e)) :
    Lost (step s e) := by
  obtain ⟨hpc, hoff, hempty⟩ := hs
  cases e with
  | write data =>
    have hw : step s (.write data) = s := by
      show s.writeTest data = s
      rw [Dbg.writeTest]
      split
      · rename_i hidle
        rw [hidle] at hpc
        exact hpc.elim
      · rfl
    rw [hw]
    exact ⟨hpc, hoff, hempty⟩
  | next =>
    cases hcase : s.pc with
    | moreStore data =>
      have hn : step s .next = { s.store data with pc := .moreAdvance } := by
        show s.writeNext = _
        rw [Dbg.writeNext, hcase]
      rw [hn]
      exact ⟨trivial, hoff, hempty⟩
    | moreAdvance =>
      -- the index moves, and the byte is left behind
      have hn : step s .next = { s.advance with pc := .idle } := by
        show s.writeNext = _
        rw [Dbg.writeNext, hcase]
      have hring : ¬ s.advance.RingEmpty := advance_not_ringEmpty hempty
      have hasleep : s.advance.txeie = false := by
        obtain ⟨i, hi⟩ := advance_frame s
        rw [hi]
        exact hoff
      rw [hn] at he
      have hon : s.advance.txeie = true := he rfl hring
      rw [hasleep] at hon
      cases hon
    | idle | emptyStore _ | emptyAdvance | emptyEnable =>
      rw [hcase] at hpc
      exact hpc.elim
  | irq rdr txfnf =>
    rw [irq_asleep rdr txfnf hoff]
    exact ⟨by simpa using hpc, by simpa using hoff, by simpa using hempty⟩

/-- A run that ends with no call in progress, and has never left a byte behind, has drained the
ring under no call. -/
theorem not_drains_along {s : Dbg} {es : List DbgEvent}
    (h : Along step (fun s e => TransmitEnabled (step s e)) s es)
    (hidle : (run step s es).pc = .idle) : Along step (fun s e => ¬ Drains s e) s es := by
  induction es generalizing s with
  | nil => trivial
  | cons e es ih =>
    refine ⟨fun hdrains => ?_, ih h.2 hidle⟩
    have hlost : Lost (run step (step s e) es) := run_inv lost_step hdrains.lost h.2
    have hpc := hlost.appending
    rw [← EventRun.run_cons, hidle] at hpc
    exact hpc

/-- A run leaves no byte in the ring with the interrupt disabled if no step of it drains the ring
under a call. Once the last call has returned, only such a run does. The interrupt handler may come
between any two steps of a call. The one step that does the harm is between the test for an empty
ring, which finds bytes, and the move of the write index. -/
theorem transmit_enabled_along (es : List DbgEvent) :
    (Along step (fun s e => ¬ Drains s e) setup es →
      Along step (fun s e => TransmitEnabled (step s e)) setup es) ∧
    ((run step setup es).pc = .idle →
      Along step (fun s e => TransmitEnabled (step s e)) setup es →
      Along step (fun s e => ¬ Drains s e) setup es) := by
  refine ⟨fun h => ?_, fun hidle h => not_drains_along h hidle⟩
  have hawake : ∀ es s, Awake s → Along step (fun s e => ¬ Drains s e) s es →
      Along step (fun s e => TransmitEnabled (step s e)) s es := by
    intro es
    induction es with
    | nil => exact fun _ _ _ => trivial
    | cons e es ih =>
      rintro s hs ⟨he, hes⟩
      have hs' := awake_step s e hs he
      exact ⟨hs'.idle, ih _ hs' hes⟩
  exact hawake es setup awake_setup h

/-- The second byte finds the first one in the ring. The handler sends the first byte and
disables the interrupt before the call stores the second. -/
def lostWakeup : List DbgEvent :=
  [.write 97, .next, .next, .next, .write 98, .irq none true, .irq none true, .next, .next]

/-- Not every run has the interrupt enabled whenever bytes are left, even one that never fills the
ring. -/
theorem transmit_can_stall :
    ¬ ∀ es : List DbgEvent, Along step NotOverfull setup es →
      Along step (fun s e => TransmitEnabled (step s e)) setup es := by
  intro h
  have hstall : ¬ Along step (fun s e => TransmitEnabled (step s e)) setup lostWakeup := by decide
  exact hstall (h lostWakeup (by decide))

/-! ### After the stall -/

/-- The indices stay in the ring. -/
def InRange (s : Dbg) : Prop :=
  s.indexWrBufMes < dbgUartMaxSizeBuff ∧ s.indexRdBufMes < dbgUartMaxSizeBuff

/-- The write index wraps to 0 at the end of the ring. -/
theorem InRange.advance {s : Dbg} (hs : InRange s) : InRange s.advance := by
  obtain ⟨hwr, hrd⟩ := hs
  rw [dbgUartMaxSizeBuff] at hwr
  rw [Dbg.advance, dbgUartMaxSizeBuff]
  split_ifs with h
  · have hnext : s.indexWrBufMes + 1 < 8000 := by omega
    exact ⟨hnext, hrd⟩
  · exact ⟨Nat.zero_lt_succ _, hrd⟩

/-- Every step keeps both indices in the ring. The write index moves in a call and the read index in
the handler, and both go to 0 at the end of the ring. -/
theorem inRange_step (s : Dbg) (e : DbgEvent) (hs : InRange s) : InRange (step s e) := by
  cases e with
  | write data =>
    show InRange (s.writeTest data)
    unfold Dbg.writeTest
    split
    · exact hs
    · exact hs
  | next =>
    show InRange s.writeNext
    unfold Dbg.writeNext
    -- only the two steps that advance the write index touch an index
    split
    · exact hs
    · exact hs
    · exact hs.advance
    · exact hs
    · exact hs
    · exact hs.advance
  | irq rdr txfnf =>
    have hr : InRange (s.irqReceive rdr) := by simpa [InRange] using hs
    obtain ⟨-, h⟩ | ⟨-, h⟩ | ⟨-, h⟩ := irq_cases s rdr txfnf
    · rwa [h]
    · rw [h]
      exact hr
    · -- a byte was taken out: the read index moves
      rw [h]
      refine ⟨hr.1, ?_⟩
      show (if s.indexRdBufMes + 1 ≥ dbgUartMaxSizeBuff then 0 else s.indexRdBufMes + 1) <
        dbgUartMaxSizeBuff
      rw [dbgUartMaxSizeBuff]
      split_ifs <;> omega

/-- Bytes are in the ring, the interrupt is disabled, and no call is about to enable it. -/
structure Stalled (s : Dbg) : Prop where
  inRange : InRange s
  full : ¬ s.RingEmpty
  asleep : s.txeie = false
  pc : s.pc = .idle ∨ Appending s.pc

/-- The write index does not catch up with the read index of a ring that is not full. -/
theorem advance_keeps_bytes {s : Dbg} (hs : InRange s)
    (hfill : pending s < dbgUartMaxSizeBuff - 1) : ¬ s.advance.RingEmpty := by
  obtain ⟨hwr, hrd⟩ := hs
  rw [dbgUartMaxSizeBuff] at hwr hrd
  rw [pending, dbgUartMaxSizeBuff] at hfill
  rw [Dbg.advance, dbgUartMaxSizeBuff]
  split_ifs with h
  · show s.indexRdBufMes ≠ s.indexWrBufMes + 1
    omega
  · show s.indexRdBufMes ≠ 0
    omega

/-- A stalled transmitter stays stalled, and sends nothing. The handler does nothing while the
interrupt is disabled. A call finds bytes in the ring, so it does not enable it. -/
theorem Stalled.step {s : Dbg} {e : DbgEvent} (hs : Stalled s) (he : NotOverfull s e) :
    Stalled (step s e) ∧ (step s e).tdr = s.tdr := by
  have hrange := inRange_step s e hs.inRange
  cases e with
  | write data =>
    show Stalled (s.writeTest data) ∧ (s.writeTest data).tdr = s.tdr
    unfold Dbg.writeTest
    split
    · rw [if_neg hs.full]
      exact ⟨⟨hs.inRange, hs.full, hs.asleep, .inr trivial⟩, rfl⟩
    · exact ⟨hs, rfl⟩
  | next =>
    have hstep : Dbg.step s .next = s.writeNext := rfl
    rw [hstep] at hrange ⊢
    cases hpc : s.pc with
    | idle =>
      have hn : s.writeNext = s := by rw [Dbg.writeNext, hpc]
      rw [hn]
      exact ⟨hs, rfl⟩
    | moreStore data =>
      have hn : s.writeNext = { s.store data with pc := .moreAdvance } := by
        rw [Dbg.writeNext, hpc]
      rw [hn]
      exact ⟨⟨hs.inRange, hs.full, hs.asleep, .inr trivial⟩, rfl⟩
    -- the advance is the one step that could make the full ring look empty
    | moreAdvance =>
      have hn : s.writeNext = { s.advance with pc := .idle } := by rw [Dbg.writeNext, hpc]
      have hfull := advance_keeps_bytes hs.inRange (he (.inr hpc))
      obtain ⟨i, hi⟩ := advance_frame s
      rw [hn] at hrange ⊢
      rw [hi] at hrange hfull ⊢
      exact ⟨⟨hrange, hfull, hs.asleep, .inl rfl⟩, rfl⟩
    -- the branch of an empty ring is not taken
    | emptyStore _ | emptyAdvance | emptyEnable =>
      rcases hs.pc with h | h
      · rw [hpc] at h
        cases h
      · rw [hpc] at h
        exact h.elim
  -- without the enabled interrupt nothing is sent
  | irq rdr txfnf =>
    rw [irq_asleep rdr txfnf hs.asleep] at hrange ⊢
    exact ⟨⟨hrange, by simpa using hs.full, by simpa using hs.asleep, by simpa using hs.pc⟩,
      irqReceive_tdr s rdr⟩

/-- Once a byte is left in the ring with the interrupt disabled, the UART sends nothing more, in
every run that does not overfill the ring. -/
theorem stalled_for_good {es fs : List DbgEvent} (hidle : (run step setup es).pc = .idle)
    (hfull : ¬ (run step setup es).RingEmpty) (hoff : (run step setup es).txeie = false)
    (hfill : Along step NotOverfull (run step setup es) fs) :
    (run step (run step setup es) fs).tdr = (run step setup es).tdr := by
  have hrange : InRange (run step setup es) :=
    run_inv (fun s e hs _ => inRange_step s e hs) ⟨by decide, by decide⟩
      (EventRun.along_true step setup es)
  generalize run step setup es = s at *
  have hs : Stalled s := ⟨hrange, hfull, hoff, .inl hidle⟩
  have hstep : ∀ t e, (Stalled t ∧ t.tdr = s.tdr) → NotOverfull t e →
      (Stalled (step t e) ∧ (step t e).tdr = s.tdr) := by
    rintro t e ⟨ht, htdr⟩ he
    exact ⟨(ht.step he).1, (ht.step he).2.trans htdr⟩
  exact (run_inv hstep ⟨hs, rfl⟩ hfill).2

end NucleoH743.Proofs.Uart
