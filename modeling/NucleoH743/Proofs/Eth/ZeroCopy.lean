import NucleoH743.Eth.Ethernetif
import NucleoH743.Lib.Run
import Mathlib.Tactic.SplitIfs

/-!
# `Proofs.Eth.ZeroCopy`: who owns a receive buffer

`low_level_input` gives the descriptor back to the DMA before it builds the pbuf, and
`pbuf_free_custom` gives back the entry of the pool only. So the stack and the DMA own a buffer
together as soon as one frame has been handed over.

The condition of the theorem excludes all frames that are received, which says that the code does
this with every frame: the order in `low_level_input` is wrong for each of them, and not only in
some race. The buffer of the frame is one of the four that the DMA fills, and with its descriptor
given back it is the fourth frame from now that overwrites it, whether the stack has freed the pbuf
or not.

- `lowLevelInput_takes`: what a call does that finds a frame.
- `rx_exclusive_iff`: buffers have one owner along a run exactly if no call of it finds a frame.
-/

set_option autoImplicit false

namespace NucleoH743.Proofs.Eth

open NucleoH743.Eth
open NucleoH743.Eth.EthIf (init step)
open EventRun (Along along_congr)

/-- No buffer that the DMA may write to is referred to by a pbuf of the stack. -/
def RxExclusive (s : EthIf) : Prop :=
  ∀ p ∈ s.pbufs, ∀ d, (s.rxDesc d).own → (s.rxDesc d).backupAddr0 ≠ p.payload

instance : DecidablePred RxExclusive := fun s =>
  inferInstanceAs (Decidable (∀ p ∈ s.pbufs, ∀ d, (s.rxDesc d).own →
    (s.rxDesc d).backupAddr0 ≠ p.payload))

/-- The step is a call of `low_level_input` that finds a frame. -/
def TakesFrame (s : EthIf) : EthEvent → Prop
  | .input => s.halEthIsRxDataAvailable.1
  | .frame _ | .free _ => False

instance (s : EthIf) : DecidablePred (TakesFrame s) := fun e =>
  match e with
  | .input => inferInstanceAs (Decidable (s.halEthIsRxDataAvailable.1 = true))
  | .frame _ | .free _ => isFalse id

/-! ### One call -/

section Calls
variable {s : EthIf}

/-- With no descriptor kept back for the application, data is available iff the current descriptor
belongs to the CPU. -/
theorem isRxDataAvailable_iff (happ : s.appDescNbr = 0) :
    s.halEthIsRxDataAvailable.1 ↔ (s.rxDesc s.curRxDesc).own = false := by
  rw [EthIf.halEthIsRxDataAvailable, if_neg (by simpa using happ)]
  cases (s.rxDesc s.curRxDesc).own <;> simp

/-- Without a frame the call changes nothing. -/
theorem lowLevelInput_none (happ : s.appDescNbr = 0) (hown : (s.rxDesc s.curRxDesc).own = true) :
    s.lowLevelInput = (none, s) := by
  have havail : s.halEthIsRxDataAvailable = (false, s) := by
    rw [EthIf.halEthIsRxDataAvailable, if_neg (by simpa using happ), if_pos hown]
  have hget : s.halEthGetRxDataBuffer = (none, s) := by
    rw [EthIf.halEthGetRxDataBuffer, if_pos happ, havail]
  rw [EthIf.lowLevelInput, hget]

/-- With a frame the HAL hands over the buffer of the current descriptor and goes on to the
next one. -/
theorem getRxDataBuffer_frame (happ : s.appDescNbr = 0)
    (hown : (s.rxDesc s.curRxDesc).own = false) :
    s.halEthGetRxDataBuffer = (some (s.rxDesc s.curRxDesc).backupAddr0, { s with
      curRxDesc := s.curRxDesc + 1, firstAppDesc := s.curRxDesc, appDescNbr := 1 }) := by
  have havail : s.halEthIsRxDataAvailable = (true, { s with
      curRxDesc := s.curRxDesc + 1, firstAppDesc := s.curRxDesc, appDescNbr := 1 }) := by
    rw [EthIf.halEthIsRxDataAvailable, if_neg (by simpa using happ), if_neg (by simp [hown])]
  rw [EthIf.halEthGetRxDataBuffer, if_pos happ, havail]

/-- With a frame and a free entry of the pool, the stack gets the buffer of the descriptor that
goes back to the DMA. -/
theorem lowLevelInput_takes (happ : s.appDescNbr = 0)
    (hown : (s.rxDesc s.curRxDesc).own = false) (hpool : s.pbufs.length < rxPoolSize) :
    ∃ p : PbufCustom, s.lowLevelInput.2.pbufs = s.pbufs ++ [p] ∧
      s.lowLevelInput.2.rxDesc s.curRxDesc = { s.rxDesc s.curRxDesc with own := true } ∧
      p.payload = (s.rxDesc s.curRxDesc).backupAddr0 := by
  rw [EthIf.lowLevelInput, getRxDataBuffer_frame happ hown]
  simp only [EthIf.halEthGetRxDataLength, EthIf.halEthBuildRxDescriptors, EthIf.pbufAlloc,
    Nat.one_ne_zero, if_false, hpool, if_true]
  exact ⟨_, rfl, Function.update_self .., rfl⟩

end Calls

/-! ### Runs -/

/-- Between calls, before the first frame is handed over. -/
def Untouched (s : EthIf) : Prop := s.appDescNbr = 0 ∧ s.pbufs = []

/-- Before the first frame no buffer is shared. -/
theorem RxExclusive.of_untouched {s : EthIf} (hs : Untouched s) : RxExclusive s := by
  intro p hp
  rw [hs.2] at hp
  cases hp

/-- A step that takes no frame leaves the stack without a pbuf. No pbuf is there to be freed, and a
frame that comes in makes none. -/
theorem untouched_step {s : EthIf} {e : EthEvent} (hs : Untouched s) (he : ¬ TakesFrame s e) :
    Untouched (step s e) := by
  obtain ⟨happ, hpbufs⟩ := hs
  cases e with
  | frame f =>
    show Untouched (s.receive f)
    rw [EthIf.receive]
    split_ifs
    · exact ⟨happ, hpbufs⟩
    · exact ⟨happ, hpbufs⟩
  | input =>
    have hown : (s.rxDesc s.curRxDesc).own = true := by
      rw [TakesFrame, isRxDataAvailable_iff happ] at he
      exact Bool.not_eq_false _ ▸ he
    show Untouched s.lowLevelInput.2
    rw [lowLevelInput_none happ hown]
    exact ⟨happ, hpbufs⟩
  | free i =>
    have hfree : s.pbufs.eraseIdx i = [] := by rw [hpbufs, List.eraseIdx_nil]
    exact ⟨happ, hfree⟩

/-- The first frame handed over leaves its buffer with two owners. The pbuf refers to the buffer of
the descriptor that has just gone back. -/
theorem not_exclusive_of_takesFrame {s : EthIf} {e : EthEvent} (hs : Untouched s)
    (he : TakesFrame s e) : ¬ RxExclusive (step s e) := by
  obtain ⟨happ, hpbufs⟩ := hs
  cases e with
  | frame f => exact he.elim
  | free i => exact he.elim
  | input =>
    have hown : (s.rxDesc s.curRxDesc).own = false := (isRxDataAvailable_iff happ).mp he
    have hpool : s.pbufs.length < rxPoolSize := by rw [hpbufs]; decide
    obtain ⟨p, hp, hdesc, hpayload⟩ := lowLevelInput_takes happ hown hpool
    intro hex
    have hmem : p ∈ (step s .input).pbufs := by
      show p ∈ s.lowLevelInput.2.pbufs
      rw [hp]
      exact List.mem_append_right _ List.mem_cons_self
    have harmed : ((step s .input).rxDesc s.curRxDesc).own = true := by
      show (s.lowLevelInput.2.rxDesc s.curRxDesc).own = true
      rw [hdesc]
    -- the descriptor is armed again with the buffer that the stack has
    have hne : (s.lowLevelInput.2.rxDesc s.curRxDesc).backupAddr0 ≠ p.payload :=
      hex p hmem s.curRxDesc harmed
    rw [hdesc] at hne
    exact hne hpayload.symm

/-- Along a run, each receive buffer has one owner at a time exactly if no call of `low_level_input`
finds a frame. Up to the first frame that is taken nothing is shared, and from then on the buffer of
this frame is. -/
theorem rx_exclusive_iff (es : List EthEvent) :
    Along step (fun s e => RxExclusive (step s e)) init es ↔
      Along step (fun s e => ¬ TakesFrame s e) init es := by
  have hstep : ∀ s e, Untouched s → ¬ TakesFrame s e → Untouched (step s e) :=
    fun s e hs he => untouched_step hs he
  have hiff : ∀ s e, Untouched s → (¬ TakesFrame s e ↔ RxExclusive (step s e)) := by
    intro s e hs
    refine ⟨fun he => .of_untouched (untouched_step hs he), fun hex he => ?_⟩
    exact not_exclusive_of_takesFrame hs he hex
  exact (along_congr hstep hiff ⟨rfl, rfl⟩ es).symm

/-- One frame comes in and is handed to the stack. -/
theorem rx_buffer_shared :
    ¬ ∀ es : List EthEvent, Along step (fun s e => RxExclusive (step s e)) init es := by
  intro h
  have hshared : ¬ Along step (fun s e => RxExclusive (step s e)) init
      [.frame ⟨[1, 2, 3], by decide⟩, .input] := by decide
  exact hshared (h _)

end NucleoH743.Proofs.Eth
