import Mathlib.Tactic.SplitIfs
import NucleoH743.Eth.InputTask
import NucleoH743.Proofs.Eth.ZeroCopy

/-!
# `Proofs.Eth.InputTask`: which frames wait without a notification

The inner loop of `ethernetif_input` ends at the first null pointer. `low_level_input` returns one
where there is no frame, but also where `RX_POOL` has no entry for the frame that it takes off the
ring. The count of notifications is cleared by then, and the frames behind wait for the next one.

The invariant has two parts. The completed descriptors are the first ones from the current
descriptor on, so a frame waits if and only if the current descriptor is completed; this is what the
DMA and `low_level_input` keep, each at its end of the block. And a task that waits without a
notification has an empty ring.

A step can break the second part only by ending the inner loop too early. It ends on an empty ring,
which is right, or on a dropped frame. A dropped frame that is the last one does no harm, and
neither does one behind which a notification is pending.

- `Ring.receive`, `Ring.lowLevelInput`: the completed descriptors are one block of the ring.
- `input_drains_iff`: along a run, the task waits without a notification only while the ring is
  empty, and no frame waits because of a dropped one, iff no turn of the loop drops a frame in front
  of another one with no notification pending.
-/

set_option autoImplicit false

namespace NucleoH743.Eth

open EventRun (Along along_congr along_mono)
open NucleoH743.Proofs.Eth (lowLevelInput_none getRxDataBuffer_frame)

/-! ### The indices of the ring -/

/-- The way from one descriptor to another leads there. -/
theorem ring_add_sub (a d : Fin 4) : a + (d - a) = d := by
  revert a d
  decide

/-- A way of some steps, taken one step first. -/
theorem ring_add_succ (a : Fin 4) (n : Nat) : a + Fin.ofNat 4 (n + 1) = a + 1 + Fin.ofNat 4 n := by
  apply Fin.ext
  simp only [Fin.val_add, Fin.val_ofNat, Fin.val_one]
  omega

/-- Fewer than four steps lead back to the start only if there are none. -/
theorem ring_add_inj (a i : Fin 4) {n : Nat} (hn : n < 4) :
    a + i = a + Fin.ofNat 4 n ↔ i.val = n := by
  rw [Fin.ext_iff]
  simp only [Fin.val_add, Fin.val_ofNat]
  omega

/-- The descriptor that comes last is the one in front of the first. -/
theorem ring_succ_eq (a i : Fin 4) : a + 1 + i = a ↔ i = 3 := by
  revert a i
  decide

/-- The order of the steps does not matter. -/
theorem ring_add_right_comm (a i : Fin 4) : a + i + 1 = a + 1 + i := by
  revert a i
  decide

/-- What lies behind the next descriptor lies one further behind this one, unless it is the last. -/
theorem ring_succ_add (a i : Fin 4) (hi : i ≠ 3) :
    a + 1 + i = a + (i + 1) ∧ (i + 1).val = i.val + 1 := by
  revert a i
  decide

/-! ### The ring -/

/-- The first `n` descriptors from the current one are completed, and the DMA goes on behind
them. -/
structure Ring (s : EthIf) (n : Nat) : Prop where
  appDescNbr : s.appDescNbr = 0
  le : n ≤ ethRxDescCnt
  dmaDesc : s.dmaDesc = s.curRxDesc + Fin.ofNat 4 n
  own : ∀ i : Fin ethRxDescCnt, (s.rxDesc (s.curRxDesc + i)).own = decide (n ≤ i.val)

/-- At the start no descriptor is completed. -/
theorem ring_init : Ring EthIf.init 0 where
  appDescNbr := rfl
  le := Nat.zero_le _
  dmaDesc := rfl
  own := fun _ => rfl

/-- The interface after the current frame was taken off the ring. -/
def takeFrame (s : EthIf) : EthIf :=
  { s with
    rxDesc := Function.update s.rxDesc s.curRxDesc { s.rxDesc s.curRxDesc with own := true }
    curRxDesc := EthIf.incrRxDescIndex s.curRxDesc
    firstAppDesc := s.curRxDesc
    appDescNbr := 0 }

section Ring
variable {s : EthIf} {n : Nat}

/-- `low_level_input` finds a frame: it comes off the ring whether or not the pool has an entry. -/
theorem lowLevelInput_frame (happ : s.appDescNbr = 0) (hown : (s.rxDesc s.curRxDesc).own = false) :
    s.lowLevelInput = (takeFrame s).pbufAlloc (s.rxDesc s.curRxDesc).backupAddr0
      ((s.rxDesc s.curRxDesc).pl) := by
  rw [EthIf.lowLevelInput, getRxDataBuffer_frame happ hown]
  rfl

/-- Without an entry of the pool it returns null all the same. -/
theorem lowLevelInput_drop (happ : s.appDescNbr = 0) (hown : (s.rxDesc s.curRxDesc).own = false)
    (hpool : rxPoolSize ≤ s.pbufs.length) : s.lowLevelInput = (none, takeFrame s) := by
  rw [lowLevelInput_frame happ hown]
  exact if_neg (Nat.not_lt.2 hpool)

/-- With one it returns the pbuf. -/
theorem lowLevelInput_pbuf (happ : s.appDescNbr = 0) (hown : (s.rxDesc s.curRxDesc).own = false)
    (hpool : s.pbufs.length < rxPoolSize) : ∃ p : PbufCustom,
      s.lowLevelInput = (some p, { takeFrame s with pbufs := s.pbufs ++ [p] }) := by
  rw [lowLevelInput_frame happ hown]
  exact ⟨_, if_pos hpool⟩

/-- The current descriptor is completed iff the block is not empty. -/
theorem Ring.cur (hs : Ring s n) : (s.rxDesc s.curRxDesc).own = decide (n = 0) := by
  have h := hs.own 0
  rw [Fin.add_zero] at h
  rw [h]
  exact decide_eq_decide.2 (by simp)

/-- The descriptor behind it is completed iff the block has two. -/
theorem Ring.second (hs : Ring s n) : (s.rxDesc (s.curRxDesc + 1)).own = decide (n ≤ 1) := hs.own 1

/-- Every descriptor belongs to the DMA iff the block is empty. -/
theorem Ring.empty_iff (hs : Ring s n) : (∀ d, (s.rxDesc d).own = true) ↔ n = 0 := by
  constructor
  · intro h
    have hcur := hs.cur.symm.trans (h _)
    simpa using hcur
  · rintro rfl d
    have hd := hs.own (d - s.curRxDesc)
    rw [ring_add_sub] at hd
    rw [hd]
    rfl

/-- The next descriptor of the DMA is its own iff the block leaves room. -/
theorem Ring.room (hs : Ring s n) :
    (s.rxDesc s.dmaDesc).own = decide (n < ethRxDescCnt) := by
  have hle : n ≤ 4 := hs.le
  rw [hs.dmaDesc, hs.own]
  refine decide_eq_decide.2 ?_
  show n ≤ n % 4 ↔ n < 4
  omega

/-- A frame extends the block if there is room. The block gets the descriptor of the DMA, which is
the one behind its last. -/
theorem Ring.receive (hs : Ring s n) (hroom : n < ethRxDescCnt) (f : Frame) :
    Ring (s.receive f) (n + 1) := by
  have hown : (s.rxDesc s.dmaDesc).own = true := by
    rw [hs.room]
    exact decide_eq_true hroom
  rw [EthIf.receive, if_pos hown]
  exact {
    appDescNbr := hs.appDescNbr
    le := hroom
    dmaDesc := by
      show s.dmaDesc + 1 = s.curRxDesc + Fin.ofNat 4 (n + 1)
      rw [hs.dmaDesc, ring_add_succ]
      exact ring_add_right_comm _ _
    own := by
      intro i
      show (Function.update s.rxDesc s.dmaDesc _ (s.curRxDesc + i)).own = _
      -- the frame is in the first descriptor behind the block, the others stay
      by_cases hi : i.val = n
      · rw [hs.dmaDesc, (ring_add_inj _ i hroom).2 hi, Function.update_self]
        exact (decide_eq_false (by omega)).symm
      · have hne : s.curRxDesc + i ≠ s.dmaDesc := by
          rw [hs.dmaDesc]
          exact fun h => hi ((ring_add_inj _ i hroom).1 h)
        rw [Function.update_of_ne hne, hs.own]
        exact decide_eq_decide.2 (by omega) }

/-- A full ring takes no frame. -/
theorem Ring.receive_full (hs : Ring s n) (hfull : ¬ n < ethRxDescCnt) (f : Frame) :
    s.receive f = s := by
  have hown : ¬ (s.rxDesc s.dmaDesc).own = true := by
    rw [hs.room]
    simpa using hfull
  rw [EthIf.receive, if_neg hown]

/-- Taking a frame shortens the block. The current descriptor goes back to the DMA, and the block
begins with the next one. -/
theorem Ring.takeFrame (hs : Ring s (n + 1)) : Ring (Eth.takeFrame s) n where
  appDescNbr := rfl
  le := Nat.le_of_succ_le hs.le
  dmaDesc := by
    show s.dmaDesc = s.curRxDesc + 1 + Fin.ofNat 4 n
    rw [hs.dmaDesc, ring_add_succ]
  own := by
    intro i
    have hle : n + 1 ≤ 4 := hs.le
    show (Function.update s.rxDesc s.curRxDesc _ (s.curRxDesc + 1 + i)).own = _
    by_cases hi : i = 3
    · -- the descriptor that was taken is the last one now
      rw [(ring_succ_eq s.curRxDesc i).2 hi, Function.update_self, hi]
      exact (decide_eq_true (Nat.le_of_lt_succ hle)).symm
    · obtain ⟨hadd, hval⟩ := ring_succ_add s.curRxDesc i hi
      have hne : s.curRxDesc + 1 + i ≠ s.curRxDesc := fun h => hi ((ring_succ_eq _ i).1 h)
      rw [Function.update_of_ne hne, hadd, hs.own, hval]
      exact decide_eq_decide.2 (by omega)

/-- The stack's pbufs are no part of the ring. -/
theorem Ring.pbufs (hs : Ring s n) (pbufs : List PbufCustom) : Ring { s with pbufs } n :=
  ⟨hs.appDescNbr, hs.le, hs.dmaDesc, hs.own⟩

/-- To free a pbuf leaves the ring alone: its descriptor has been armed again before. -/
theorem Ring.pbufFreeCustom (hs : Ring s n) (i : Nat) : Ring (s.pbufFreeCustom i) n := hs.pbufs _

end Ring

/-! ### One step -/

namespace InputTask

/-- The task does not wait for a notification while a frame waits in the ring. -/
def Drained (s : InputTask) : Prop :=
  s.pc = .take → s.notified = 0 → ∀ d, (s.eth.rxDesc d).own = true

instance : DecidablePred Drained := fun s =>
  inferInstanceAs (Decidable (s.pc = .take → s.notified = 0 → ∀ d, (s.eth.rxDesc d).own = true))

/-- The step takes a frame off the ring and has no pbuf for it. -/
def Drops (s : InputTask) : InputEvent → Prop
  | .input _ => s.pc = .input ∧ (s.eth.rxDesc s.eth.curRxDesc).own = false ∧
      rxPoolSize ≤ s.eth.pbufs.length
  | .frame _ | .take | .free _ => False

/-- The step drops a frame in front of another one, with no notification pending. -/
def Strands (s : InputTask) (e : InputEvent) : Prop :=
  s.Drops e ∧ (s.eth.rxDesc (EthIf.incrRxDescIndex s.eth.curRxDesc)).own = false ∧ s.notified = 0

/-- What a step owes to the frames. -/
structure Drains (s : InputTask) (e : InputEvent) : Prop where
  /-- a task that waits leaves no completed descriptor -/
  drained : (s.step e).Drained
  /-- a dropped frame gives its descriptor back, and the task goes on with the others -/
  dropped : s.Drops e → ((s.step e).eth.rxDesc s.eth.curRxDesc).own = true ∧
    ((∃ d, ((s.step e).eth.rxDesc d).own = false) →
      (s.step e).pc = .input ∨ (s.step e).notified ≠ 0)

/-- Between steps the completed descriptors are a block, and none is left behind. -/
def Inv (s : InputTask) : Prop := (∃ n, Ring s.eth n) ∧ s.Drained

section Step
variable {s : InputTask} {n : Nat}

/-- A task that waits without a notification has an empty ring. -/
theorem drained_iff (hs : Ring s.eth n) : s.Drained ↔ (s.pc = .take → s.notified = 0 → n = 0) :=
  forall_congr' fun _ => forall_congr' fun _ => hs.empty_iff

/-- A frame that comes in is notified, so the task does not wait past it. The count of the
notifications is positive afterwards, or the ring was full. -/
theorem inv_frame (hs : Ring s.eth n) (hdrained : s.Drained) (f : Frame) : (s.frame f).Inv := by
  rw [frame]
  by_cases hroom : n < ethRxDescCnt
  · refine ⟨⟨n + 1, hs.receive hroom f⟩, fun _ hnotified => ?_⟩
    have hown : (s.eth.rxDesc s.eth.dmaDesc).own = true := by
      rw [hs.room]
      exact decide_eq_true hroom
    rw [if_pos hown] at hnotified
    exact absurd hnotified (Nat.succ_ne_zero _)
  · -- the frame is lost, and nothing changes
    have hown : ¬ (s.eth.rxDesc s.eth.dmaDesc).own = true := by
      rw [hs.room]
      simpa using hroom
    rw [hs.receive_full hroom f, if_neg hown]
    exact ⟨⟨n, hs⟩, hdrained⟩

/-- A task that sees a notification looks at the ring. -/
theorem inv_take (hs : Ring s.eth n) (hdrained : s.Drained) : s.take.Inv := by
  rw [take]
  split_ifs
  · exact ⟨⟨n, hs⟩, hdrained⟩
  · exact ⟨⟨n, hs⟩, fun hpc => InputPc.noConfusion hpc⟩

/-- What the body of the inner loop does: it finds no frame and ends the loop, it passes a frame on,
or it drops one and ends the loop. By whether there is a frame and whether the pool has an entry for
it. -/
theorem input_cases (hs : Ring s.eth n) (ok : Bool) :
    (n = 0 ∧ s.input ok = { s with pc := .take }) ∨
    (∃ m, n = m + 1 ∧ s.eth.pbufs.length < rxPoolSize ∧ Ring (s.input ok).eth m ∧
      (s.input ok).pc = s.pc ∧ (s.input ok).notified = s.notified) ∨
    (∃ m, n = m + 1 ∧ rxPoolSize ≤ s.eth.pbufs.length ∧ Ring (s.input ok).eth m ∧
      s.input ok = { s with eth := takeFrame s.eth, pc := .take }) := by
  cases n with
  | zero =>
    have hnone := lowLevelInput_none hs.appDescNbr hs.cur
    refine .inl ⟨rfl, ?_⟩
    rw [input, hnone]
  | succ m =>
    refine .inr ?_
    have hown : (s.eth.rxDesc s.eth.curRxDesc).own = false := by
      rw [hs.cur]
      rfl
    by_cases hpool : s.eth.pbufs.length < rxPoolSize
    · obtain ⟨p, hp⟩ := lowLevelInput_pbuf hs.appDescNbr hown hpool
      refine .inl ⟨m, rfl, hpool, ?_⟩
      rw [input, hp]
      refine ⟨?_, rfl, rfl⟩
      -- the stack keeps the pbuf, or refuses it and it is freed
      cases ok with
      | true => exact hs.takeFrame.pbufs _
      | false => exact (hs.takeFrame.pbufs _).pbufFreeCustom _
    · have hdrop := lowLevelInput_drop hs.appDescNbr hown (Nat.le_of_not_lt hpool)
      refine .inr ⟨m, rfl, Nat.le_of_not_lt hpool, ?_⟩
      rw [input, hdrop]
      exact ⟨hs.takeFrame, rfl⟩

/-- A turn of the loop that does not drop a frame in front of another one leaves none behind. By
these cases: only a dropped frame ends the loop with frames left. -/
theorem inv_input (hs : Ring s.eth n) (hpc : s.pc = .input) (ok : Bool)
    (hstrands : ¬ s.Strands (.input ok)) : (s.input ok).Inv := by
  rcases input_cases hs ok with ⟨hn, heq⟩ | ⟨m, -, -, hring, hpc', -⟩ | ⟨m, hn, hpool, hring, heq⟩
  · subst hn
    rw [heq]
    exact ⟨⟨0, hs⟩, fun _ _ => hs.empty_iff.2 rfl⟩
  · -- the loop goes on
    refine ⟨⟨m, hring⟩, fun htake => ?_⟩
    rw [hpc', hpc] at htake
    cases htake
  · refine ⟨⟨m, hring⟩, (drained_iff hring).2 fun _ hnotified => ?_⟩
    subst hn
    -- a frame behind the dropped one is what the hypothesis excludes
    by_contra hm
    refine hstrands ⟨⟨hpc, ?_, hpool⟩, ?_, ?_⟩
    · rw [hs.cur]
      rfl
    · rw [hs.second]
      exact decide_eq_false (by omega)
    · rw [heq] at hnotified
      exact hnotified

/-- A step that does not drop a frame in front of another one keeps the invariant. By the event. -/
theorem Inv.step (hs : s.Inv) (e : InputEvent) (hstrands : ¬ s.Strands e) : (s.step e).Inv := by
  obtain ⟨⟨n, hring⟩, hdrained⟩ := hs
  cases e with
  | frame f => exact inv_frame hring hdrained f
  | take =>
    show (ite (s.pc = .take) s.take s).Inv
    split_ifs
    · exact inv_take hring hdrained
    · exact ⟨⟨n, hring⟩, hdrained⟩
  | input ok =>
    show (ite (s.pc = .input) (s.input ok) s).Inv
    split_ifs with hpc
    · exact inv_input hring hpc ok hstrands
    · exact ⟨⟨n, hring⟩, hdrained⟩
  | free i => exact ⟨⟨n, hring.pbufFreeCustom i⟩, hdrained⟩

/-- A step that drops a frame gives the descriptor back, leaves the notifications as they are and
ends the loop. This is the second end of the loop in `input_cases`. -/
theorem Drops.step {e : InputEvent} (hs : Ring s.eth n) (h : s.Drops e) :
    s.step e = { s with eth := takeFrame s.eth, pc := .take } := by
  cases e with
  | frame f => exact h.elim
  | take => exact h.elim
  | free i => exact h.elim
  | input ok =>
    obtain ⟨hpc, hown, hpool⟩ := h
    show ite (s.pc = .input) (s.input ok) s = _
    rw [if_pos hpc]
    rcases input_cases hs ok with ⟨hn, -⟩ | ⟨m, -, hroom, -⟩ | ⟨m, -, -, -, heq⟩
    · rw [hs.cur, hn] at hown
      cases hown
    · exact absurd hroom (Nat.not_lt.2 hpool)
    · exact heq

/-- A step owes the frames nothing more iff it does not drop one in front of another. A frame behind
the dropped one waits in its descriptor, and nothing else can go wrong. -/
theorem drains_iff (hs : s.Inv) (e : InputEvent) : s.Drains e ↔ ¬ s.Strands e := by
  obtain ⟨n, hring⟩ := hs.1
  constructor
  · rintro ⟨hdrained, -⟩ ⟨hdrops, hsecond, hnotified⟩
    have hstep := hdrops.step hring
    rw [hstep] at hdrained
    -- the frame behind the dropped one is still in its descriptor
    have hall := hdrained rfl hnotified (s.eth.curRxDesc + 1)
    have hne : s.eth.curRxDesc + 1 ≠ s.eth.curRxDesc := by
      intro h
      exact absurd ((ring_succ_eq _ 0).1 ((Fin.add_zero _).trans h)) (by decide)
    rw [show (takeFrame s.eth).rxDesc (s.eth.curRxDesc + 1) = s.eth.rxDesc (s.eth.curRxDesc + 1)
      from Function.update_of_ne hne _ _, hsecond] at hall
    cases hall
  · intro hstrands
    have hinv := hs.step e hstrands
    refine ⟨hinv.2, fun hdrops => ⟨?_, ?_⟩⟩
    · rw [hdrops.step hring]
      show (Function.update s.eth.rxDesc s.eth.curRxDesc _ s.eth.curRxDesc).own = true
      rw [Function.update_self]
    · rintro ⟨d, hd⟩
      by_contra hwait
      obtain ⟨-, hnotified⟩ := not_or.1 hwait
      have hpc : (s.step e).pc = .take := by rw [hdrops.step hring]
      have hown := hinv.2 hpc (not_not.1 hnotified) d
      rw [hd] at hown
      cases hown

end Step

/-! ### Runs -/

/-- At the start the ring is empty and the task waits. -/
theorem inv_init : init.Inv := ⟨⟨0, ring_init⟩, fun _ _ _ => rfl⟩

/-- Along a run the task waits only for an empty ring, and a dropped frame delays no other, iff no
step drops a frame in front of another one with no notification pending. The frames arrive between
any two steps of the task, and an allocation of a pbuf may fail at any of them. `low_level_input`
returns null for an empty ring and for a frame that it has dropped alike. -/
theorem input_drains_iff (es : List InputEvent) :
    Along step Drains init es ↔ Along step (fun s e => ¬ s.Strands e) init es := by
  have hstep : ∀ s e, s.Inv → s.Drains e → (step s e).Inv :=
    fun s e hs he => hs.step e ((drains_iff hs e).1 he)
  exact along_congr hstep (fun s e hs => drains_iff hs e) inv_init es

/-- A frame of one byte. -/
def oneByte : Frame := ⟨[0], by decide⟩

/-- Ten frames whose pbufs the stack keeps, and then two: the first of them is dropped, and the
task waits while the second one is in the ring. -/
theorem input_strands : ¬ ∀ es : List InputEvent, Along step Drains init es := by
  intro h
  have hdrained : Along step (fun s e => (s.step e).Drained) init
      ((List.replicate 10 [.frame oneByte, .take, .input true, .input true]).flatten ++
        [.frame oneByte, .frame oneByte, .take, .input true]) :=
    along_mono (fun _ _ hdrains => hdrains.drained) (h _)
  exact absurd hdrained (by decide +kernel)

end InputTask

end NucleoH743.Eth
