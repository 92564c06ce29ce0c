import Mathlib.Logic.Function.Iterate
import NucleoH743.Proofs.Eth.TxBuffer

/-!
# `Proofs.Eth.Transmit`: what the stack learns of a frame

`HAL_ETH_Transmit` refuses a frame when the handle is not ready or a descriptor is busy, and gives
it up on a bus error or after 20 ms. `low_level_output` drops its result, so such a frame is
reported as sent. A frame that is given up leaves the handle in the error state, and from then on
every frame is lost.

A call fails in three ways, and each is reduced to a condition on the state and the hardware before
the call. The handle is not ready. One of the descriptors that the frame needs belongs to the DMA;
the `while` loop of `ETH_Prepare_Tx_Descriptors` takes them one by one, and as it changes only those
that it has passed, they can all be looked at before (`prepareRest_fst`). Or a round of the wait
gives up, which is the first round that finds neither an owned descriptor released nor a reason to
go on.

`low_level_output` is right when it refuses a chain that is too long, and when the HAL takes the
frame; else it returns `ERR_OK` for a frame that is not sent.

- `prepare_fst`: the descriptors are taken iff all of them are free.
- `waitLoop_error_iff`, `waitLoop_isSome_iff`: when the wait gives up, and when it ends.
- `halEthTransmit_error_iff`: when the HAL fails.
- `output_right_iff`: the states, chains and hardware for which the call does what it says.
- `lost_unless_ready`, `lost_after_error`: no frame is sent once the handle is not ready, and so
  none after one that was given up.
-/

set_option autoImplicit false

namespace NucleoH743.Eth

attribute [local instance] ethTxDescCnt_neZero

/-! ### The descriptors -/

/-- The `n` descriptors from `idx` on are free. -/
def Free (t : TxDescs) (idx : Fin ethTxDescCnt) (n : Nat) : Prop :=
  ∀ j < n, ¬ (t (incrTxDescIndex^[j] idx)).owned

/-- The next descriptors are free iff this one is and those behind it are. -/
theorem free_succ {t : TxDescs} {idx : Fin ethTxDescCnt} {n : Nat} :
    Free t idx (n + 1) ↔ ¬ (t idx).owned ∧ Free t (incrTxDescIndex idx) n := by
  constructor
  · intro h
    exact ⟨h 0 (by omega), fun j hj => h (j + 1) (by omega)⟩
  · rintro ⟨hfirst, hrest⟩ j hj
    cases j with
    | zero => exact hfirst
    | succ j => exact hrest j (by omega)

/-- A descriptor is itself again only after a whole turn. -/
theorem incr_iterate_ne (idx : Fin ethTxDescCnt) {n : Nat} (hpos : 0 < n) (hn : n < ethTxDescCnt) :
    incrTxDescIndex^[n] idx ≠ idx := by
  have hall : ∀ idx : Fin ethTxDescCnt, ∀ n < ethTxDescCnt, 0 < n →
      incrTxDescIndex^[n] idx ≠ idx := by decide
  exact hall idx n hn hpos

/-- The `OWN` bit stays when another bit is cleared. -/
theorem clearBit_own (x : UInt32) :
    clearBit x ethDmatxndescrfFd &&& ethDmatxndescrfOwn = x &&& ethDmatxndescrfOwn := by
  rw [clearBit, UInt32.and_assoc]
  rfl

section Prepare
variable {cfg : EthTxPacketConfig} {first idx : Fin ethTxDescCnt} {t : TxDescs} {nbr : Nat}

/-- The start of a round leaves the next descriptor free or busy. -/
theorem startRound_owned :
    (startRound t idx (incrTxDescIndex idx)).owned ↔ (t (incrTxDescIndex idx)).owned := by
  have hne : incrTxDescIndex idx ≠ idx := incr_iterate_ne idx (n := 1) (by omega) (by decide)
  simp only [startRound, TxDescs.setDesc3, TxDesc.owned, Function.update_self,
    Function.update_of_ne hne, clearBit_own]

/-- A round changes two descriptors. -/
theorem startRound_update {a : Fin ethTxDescCnt} (d : TxDesc) (ha : a ≠ idx)
    (ha' : a ≠ incrTxDescIndex idx) :
    Function.update (startRound t idx) (incrTxDescIndex idx) d a = t a := by
  rw [Function.update_of_ne ha', startRound, TxDescs.setDesc3, Function.update_of_ne ha',
    TxDescs.setDesc3, Function.update_of_ne ha]

/-- A round of the `while` loop: it ends at a busy descriptor, else it goes on with the next one and
leaves the others as they are. By whether the next descriptor is owned, and by whether one or two
buffers are left. -/
theorem prepareRest_cons (cfg : EthTxPacketConfig) (first idx : Fin ethTxDescCnt) (t : TxDescs)
    (nbr : Nat) (b : EthBuffer) (bufs : List EthBuffer) :
    (t (incrTxDescIndex idx)).owned ∧ (prepareRest cfg first t idx nbr (b :: bufs)).1 = none ∨
    ¬ (t (incrTxDescIndex idx)).owned ∧
      ∃ t', (∀ a, a ≠ idx → a ≠ incrTxDescIndex idx → t' a = t a) ∧
        prepareRest cfg first t idx nbr (b :: bufs) =
          prepareRest cfg first t' (incrTxDescIndex idx) (nbr + 1) bufs.tail := by
  by_cases hbusy : (t (incrTxDescIndex idx)).owned
  · refine .inl ⟨hbusy, ?_⟩
    cases bufs with
    | nil => rw [prepareRest, if_pos (startRound_owned.2 hbusy)]
    | cons b2 bufs => rw [prepareRest, if_pos (startRound_owned.2 hbusy)]
  · refine .inr ⟨hbusy, ?_⟩
    cases bufs with
    | nil =>
      have hstep : prepareRest cfg first t idx nbr (b :: []) = prepareRest cfg first
          (Function.update (startRound t idx) (incrTxDescIndex idx)
            ((startRound t idx (incrTxDescIndex idx)).setNext cfg b none))
          (incrTxDescIndex idx) (nbr + 1) [] :=
        if_neg (startRound_owned.not.2 hbusy)
      exact ⟨_, fun a => startRound_update _, hstep⟩
    | cons b2 bufs =>
      have hstep : prepareRest cfg first t idx nbr (b :: b2 :: bufs) = prepareRest cfg first
          (Function.update (startRound t idx) (incrTxDescIndex idx)
            ((startRound t idx (incrTxDescIndex idx)).setNext cfg b (some b2)))
          (incrTxDescIndex idx) (nbr + 1) bufs :=
        if_neg (startRound_owned.not.2 hbusy)
      exact ⟨_, fun a => startRound_update _, hstep⟩

/-- The descriptors that `k` buffers take. -/
def descsFor (k : Nat) : Nat := (k + 1) / 2

/-- The result is `last` if the descriptors are free, and else busy. -/
def TakenIf (free : Prop) (last : Fin ethTxDescCnt) (r : Option (Fin ethTxDescCnt)) : Prop :=
  (free → r = some last) ∧ (¬ free → r = none)

/-- Descriptors that a round does not reach stay free or busy. -/
theorem free_congr {t' : TxDescs} {n : Nat} (hn : n + 2 ≤ ethTxDescCnt)
    (hframe : ∀ a, a ≠ idx → a ≠ incrTxDescIndex idx → t' a = t a) :
    Free t' (incrTxDescIndex^[2] idx) n ↔ Free t (incrTxDescIndex^[2] idx) n := by
  refine forall₂_congr fun j hj => ?_
  have h2 := incr_iterate_ne idx (n := j + 2) (by omega) (by omega)
  have h1 := incr_iterate_ne (incrTxDescIndex idx) (n := j + 1) (by omega) (by omega)
  rw [← Function.iterate_add_apply, hframe _ h2 h1]

/-- The loop ends with its last descriptor iff the next `n` ones, which it needs, are free. By
induction on the descriptors that the loop needs; a round changes two of them, neither of which is
looked at again. -/
theorem prepareRest_fst (cfg : EthTxPacketConfig) (first idx : Fin ethTxDescCnt) (t : TxDescs)
    (nbr : Nat) {bufs : List EthBuffer} {n : Nat} (hlen : descsFor bufs.length = n)
    (hn : n < ethTxDescCnt) :
    TakenIf (Free t (incrTxDescIndex idx) n) (incrTxDescIndex^[n] idx)
      (prepareRest cfg first t idx nbr bufs).1 := by
  induction n generalizing bufs t idx nbr with
  | zero =>
    have hnil : bufs = [] := List.length_eq_zero_iff.1 (by unfold descsFor at hlen; omega)
    subst hnil
    refine ⟨fun _ => rfl, fun h => absurd ?_ h⟩
    intro j hj
    omega
  | succ n ih =>
    have hpos : 0 < bufs.length := by
      unfold descsFor at hlen
      omega
    obtain ⟨b, rest, rfl⟩ := List.exists_cons_of_length_pos hpos
    rw [free_succ]
    obtain ⟨hbusy, hnone⟩ | ⟨hfree, t', hframe, heq⟩ := prepareRest_cons cfg first idx t nbr b rest
    · exact ⟨fun h => absurd hbusy h.1, fun _ => hnone⟩
    · have htail : descsFor rest.tail.length = n := by
        unfold descsFor at hlen ⊢
        simp at hlen ⊢
        omega
      have ih := ih (incrTxDescIndex idx) t' (nbr + 1) htail (by omega)
      have hfree_iff := free_congr (n := n) (by omega) hframe
      simp only [Function.iterate_succ_apply, Function.iterate_zero, id_eq] at hfree_iff
      rw [TakenIf, hfree_iff] at ih
      rw [heq]
      exact ⟨fun h => ih.1 h.2, fun h => ih.2 fun h' => h ⟨hfree, h'⟩⟩

/-- The descriptors of a frame are taken iff all of them are free, and then the last of them is the
result. The first descriptor is taken before the loop, which takes the others. -/
theorem prepare_fst {n : Nat} (hbufs : descsFor (txList cfg.txBuffer).length = n + 1)
    (hn : n < ethTxDescCnt) :
    TakenIf (Free t idx (n + 1)) (incrTxDescIndex^[n] idx)
      (ethPrepareTxDescriptors t idx cfg).1 := by
  rw [free_succ]
  by_cases hbusy : (t idx).owned
  · rw [ethPrepareTxDescriptors, if_pos hbusy]
    exact ⟨fun h => absurd hbusy h.1, fun _ => rfl⟩
  · -- the first descriptor is not one of those the loop looks at
    have hframe : ∀ d, Free (Function.update t idx d) (incrTxDescIndex idx) n ↔
        Free t (incrTxDescIndex idx) n := by
      intro d
      refine forall₂_congr fun j hj => ?_
      have hne := incr_iterate_ne idx (n := j + 1) (by omega) (by omega)
      rw [← Function.iterate_succ_apply, Function.update_of_ne hne]
    rw [ethPrepareTxDescriptors, if_neg hbusy]
    match hlist : txList cfg.txBuffer, hbufs with
    | [b1], hbufs =>
      obtain rfl : n = 0 := by simp [descsFor] at hbufs; omega
      have hnil : descsFor ([] : List EthBuffer).length = 0 := rfl
      have h := prepareRest_fst cfg idx idx
        (Function.update t idx ((t idx).setFirst cfg b1 none)) 1 hnil hn
      rw [TakenIf, hframe] at h
      exact ⟨fun hfree => h.1 hfree.2, fun hfree => h.2 fun h' => hfree ⟨hbusy, h'⟩⟩
    | b1 :: b2 :: rest, hbufs =>
      have hrest : descsFor rest.length = n := by simp [descsFor] at hbufs ⊢; omega
      have h := prepareRest_fst cfg idx idx
        (Function.update t idx ((t idx).setFirst cfg b1 (some b2))) 1 hrest hn
      rw [TakenIf, hframe] at h
      exact ⟨fun hfree => h.1 hfree.2, fun hfree => h.2 fun h' => hfree ⟨hbusy, h'⟩⟩
end Prepare

/-! ### The wait -/

section Wait
variable {timeout : UInt32} {desc : Fin ethTxDescCnt} {w : TxWait} {heth : EthHandle}

/-- Round `n` finds the descriptor released. -/
def TxWait.Released (w : TxWait) (desc : Fin ethTxDescCnt) (n : Nat) : Prop :=
  ((w.poll n).txDesc desc).desc3 &&& ethDmatxndescrfOwn = 0

/-- Round `n` finds a bus error, or the time is over. -/
def TxWait.Fails (w : TxWait) (timeout : UInt32) (n : Nat) : Prop :=
  (w.poll n).dmacsr &&& ethDmacsrFbe ≠ 0 ∨
    timeout ≠ halMaxDelay ∧ ((w.poll n).tick - w.tickstart > timeout ∨ timeout = 0)

/-- Round `m` ends the wait with an error. -/
def TxWait.GivesUp (w : TxWait) (timeout : UInt32) (desc : Fin ethTxDescCnt) (m : Nat) : Prop :=
  (∀ i ≤ m, ¬ w.Released desc i) ∧ w.Fails timeout m

/-- One round of the wait. By what the round reads. -/
theorem waitLoop_succ (timeout : UInt32) (desc : Fin ethTxDescCnt) (w : TxWait)
    (heth : EthHandle) (fuel n : Nat) :
    w.Released desc n ∧ (∃ h, waitLoop timeout desc w (fuel + 1) n heth = some (.ok, h)) ∨
    ¬ w.Released desc n ∧ w.Fails timeout n ∧
      (∃ h, waitLoop timeout desc w (fuel + 1) n heth = some (.error, h) ∧
        h.gState = halEthStateError) ∨
    ¬ w.Released desc n ∧ ¬ w.Fails timeout n ∧
      waitLoop timeout desc w (fuel + 1) n heth =
        waitLoop timeout desc w fuel (n + 1) { heth with txDesc := (w.poll n).txDesc } := by
  unfold TxWait.Released TxWait.Fails
  rw [waitLoop]
  split_ifs with hrel hfbe htime
  · exact .inl ⟨hrel, _, rfl⟩
  · exact .inr (.inl ⟨hrel, .inl hfbe, _, rfl, rfl⟩)
  · exact .inr (.inl ⟨hrel, .inr htime, _, rfl, rfl⟩)
  · exact .inr (.inr ⟨hrel, fun h => h.elim hfbe htime, rfl⟩)

/-- The wait ends with an error iff one of its rounds gives up. By induction on the rounds, by what
the first one finds. -/
theorem waitLoop_error_iff (fuel n : Nat) :
    (∃ h, waitLoop timeout desc w fuel n heth = some (.error, h)) ↔
      ∃ m, n ≤ m ∧ m < n + fuel ∧
        (∀ i, n ≤ i → i ≤ m → ¬ w.Released desc i) ∧ w.Fails timeout m := by
  induction fuel generalizing n heth with
  | zero =>
    constructor
    · rintro ⟨h, heq⟩
      cases heq
    · rintro ⟨m, hle, hlt, -⟩
      omega
  | succ fuel ih =>
    obtain ⟨hrel, h, heq⟩ | ⟨hrel, hfails, h, heq, -⟩ | ⟨hrel, hfails, heq⟩ :=
      waitLoop_succ timeout desc w heth fuel n
    · -- released in round `n`: the loop ends well
      rw [heq]
      constructor
      · rintro ⟨h', hh'⟩
        cases hh'
      · rintro ⟨m, hle, -, howned, -⟩
        exact absurd hrel (howned n (by omega) hle)
    · -- it fails in round `n`
      refine ⟨fun _ => ⟨n, by omega, by omega, fun i hi hi' => ?_, hfails⟩, fun _ => ⟨h, heq⟩⟩
      obtain rfl : i = n := by omega
      exact hrel
    · -- the first failing round comes later
      rw [heq, ih (n + 1)]
      constructor
      · rintro ⟨m, hle, hlt, howned, hm⟩
        refine ⟨m, by omega, by omega, fun i hi hi' => ?_, hm⟩
        rcases Nat.eq_or_lt_of_le hi with rfl | hlt'
        · exact hrel
        · exact howned i hlt' hi'
      · rintro ⟨m, hle, hlt, howned, hm⟩
        have hne : m ≠ n := by
          rintro rfl
          exact hfails hm
        exact ⟨m, by omega, by omega, fun i hi hi' => howned i (by omega) hi', hm⟩

/-- The wait ends iff one of its rounds finds the descriptor released or fails. By induction on the
rounds. -/
theorem waitLoop_isSome_iff (fuel n : Nat) :
    (waitLoop timeout desc w fuel n heth).isSome ↔
      ∃ m, n ≤ m ∧ m < n + fuel ∧ (w.Released desc m ∨ w.Fails timeout m) := by
  induction fuel generalizing n heth with
  | zero =>
    constructor
    · intro h
      cases h
    · rintro ⟨m, hle, hlt, -⟩
      omega
  | succ fuel ih =>
    obtain ⟨hrel, h, heq⟩ | ⟨-, hfails, h, heq, -⟩ | ⟨hrel, hfails, heq⟩ :=
      waitLoop_succ timeout desc w heth fuel n
    · exact ⟨fun _ => ⟨n, by omega, by omega, .inl hrel⟩, fun _ => by rw [heq]; rfl⟩
    · exact ⟨fun _ => ⟨n, by omega, by omega, .inr hfails⟩, fun _ => by rw [heq]; rfl⟩
    · rw [heq, ih (n + 1)]
      constructor
      · rintro ⟨m, hle, hlt, hm⟩
        exact ⟨m, by omega, by omega, hm⟩
      · rintro ⟨m, hle, hlt, hm⟩
        have hne : m ≠ n := by
          rintro rfl
          exact hm.elim hrel hfails
        exact ⟨m, by omega, by omega, hm⟩

/-- A wait that gives up leaves the handle in the error state. -/
theorem waitLoop_error_state {fuel n : Nat} {h : EthHandle}
    (heq : waitLoop timeout desc w fuel n heth = some (.error, h)) :
    h.gState = halEthStateError := by
  induction fuel generalizing n heth with
  | zero => cases heq
  | succ fuel ih =>
    obtain ⟨-, h', heq'⟩ | ⟨-, -, h', heq', hstate⟩ | ⟨-, -, heq'⟩ :=
      waitLoop_succ timeout desc w heth fuel n
    · rw [heq'] at heq
      cases heq
    · rw [heq'] at heq
      cases heq
      exact hstate
    · exact ih (heq'.symm.trans heq)

/-- A wait leaves the state of the handle as it was, or sets it to the error state. By induction on
the rounds. -/
theorem waitLoop_gState {fuel n : Nat} {r : HalStatus × EthHandle}
    (heq : waitLoop timeout desc w fuel n heth = some r) :
    r.2.gState = heth.gState ∨ r.2.gState = halEthStateError := by
  induction fuel generalizing n heth with
  | zero => cases heq
  | succ fuel ih =>
    rw [waitLoop] at heq
    split_ifs at heq with hrel hfbe htime
    · cases heq
      exact .inl rfl
    · cases heq
      exact .inr rfl
    · cases heq
      exact .inr rfl
    · -- a round sets the descriptors alone
      have hrest := ih heq
      exact hrest

end Wait

/-! ### The call -/

/-- What a call of `low_level_output` is to do: pass on the list of a chain that fits, nothing of
one that does not, and return `ERR_OK` only for a frame that the HAL has taken. -/
structure OutputRight (s : EthTx) (p : PbufChain) (w : TxWait) (fuel : Nat) : Prop where
  fits : p.pbufs.length ≤ ethTxDescCnt → ∃ cfg, (lowLevelOutput s p w fuel).handed = some cfg ∧
    Denotes cfg.txBuffer p.pbufs ∧ cfg.length.toNat = p.totLen.toNat ∧
    ((txList cfg.txBuffer).map fun b => b.len.toNat).sum = p.totLen.toNat
  tooLong : ethTxDescCnt < p.pbufs.length → (lowLevelOutput s p w fuel).handed = none
  accepted : (lowLevelOutput s p w fuel).errval = some errOk →
    (lowLevelOutput s p w fuel).halStatus = some .ok

/-- The HAL takes the frame of `k` buffers: it is ready, the descriptors are free, and no round of
the wait gives up. -/
def Taken (heth : EthHandle) (w : TxWait) (k : Nat) : Prop :=
  heth.gState = halEthStateReady ∧ Free heth.txDesc heth.curTxDesc (descsFor k) ∧
    ∀ m, ¬ w.GivesUp ethDmaTransmitTimeout (incrTxDescIndex^[descsFor k - 1] heth.curTxDesc) m

/-- The configuration that `low_level_output` passes on. -/
def handedConfig (s : EthTx) (p : PbufChain) : EthTxPacketConfig :=
  { s.txConfig with length := p.totLen.toUInt32, txBuffer := linked p.pbufs }

section Transmit
variable {heth : EthHandle} {cfg : EthTxPacketConfig} {w : TxWait} {timeout : UInt32} {fuel : Nat}

/-- A handle that is not ready refuses the frame, and stays as it is. -/
theorem halEthTransmit_of_not_ready (h : heth.gState ≠ halEthStateReady) :
    halEthTransmit heth (some cfg) timeout w fuel = some (.error, heth) := by
  rw [halEthTransmit, if_neg h]

/-- A call leaves the state of the handle as it was, or sets it to the error state. A call returns
early or ends with the wait. -/
theorem halEthTransmit_gState {pTxConfig : Option EthTxPacketConfig}
    {r : HalStatus × EthHandle} (heq : halEthTransmit heth pTxConfig timeout w fuel = some r) :
    r.2.gState = heth.gState ∨ r.2.gState = halEthStateError := by
  unfold halEthTransmit at heq
  split at heq
  · cases heq
    exact .inl rfl
  · split at heq
    · split at heq
      · cases heq
        exact .inl rfl
      · -- the wait starts with the new descriptors, in the same state
        obtain hkept | herror := waitLoop_gState heq
        · exact .inl hkept
        · exact .inr herror
    · cases heq
      exact .inl rfl

/-- A frame that needs a busy descriptor is refused. -/
theorem halEthTransmit_of_busy (timeout : UInt32) (w : TxWait) (fuel : Nat)
    (h : heth.gState = halEthStateReady) {n : Nat}
    (hbufs : descsFor (txList cfg.txBuffer).length = n + 1) (hn : n < ethTxDescCnt)
    (hbusy : ¬ Free heth.txDesc heth.curTxDesc (n + 1)) :
    ∃ heth', halEthTransmit heth (some cfg) timeout w fuel = some (.error, heth') := by
  obtain ⟨r, t, hr⟩ : ∃ r t, ethPrepareTxDescriptors heth.txDesc heth.curTxDesc cfg = (r, t) :=
    ⟨_, _, rfl⟩
  obtain rfl : r = none := by
    have hnone := (prepare_fst hbufs hn).2 hbusy
    rwa [hr] at hnone
  rw [halEthTransmit, if_pos h, hr]
  exact ⟨_, rfl⟩

/-- With free descriptors, the HAL does what its wait does. -/
theorem halEthTransmit_of_free (cfg : EthTxPacketConfig) (timeout : UInt32) (w : TxWait)
    (h : heth.gState = halEthStateReady) {n : Nat}
    (hbufs : descsFor (txList cfg.txBuffer).length = n + 1) (hn : n < ethTxDescCnt)
    (hfree : Free heth.txDesc heth.curTxDesc (n + 1)) :
    ∃ heth', ∀ fuel, halEthTransmit heth (some cfg) timeout w fuel =
      waitLoop timeout (incrTxDescIndex^[n] heth.curTxDesc) w fuel 0 heth' := by
  obtain ⟨r, t, hr⟩ : ∃ r t, ethPrepareTxDescriptors heth.txDesc heth.curTxDesc cfg = (r, t) :=
    ⟨_, _, rfl⟩
  obtain rfl : r = some (incrTxDescIndex^[n] heth.curTxDesc) := by
    have hsome := (prepare_fst hbufs hn).1 hfree
    rwa [hr] at hsome
  let curTxDesc := incrTxDescIndex (incrTxDescIndex^[n] heth.curTxDesc)
  refine ⟨{ heth with txDesc := t, curTxDesc := curTxDesc, dmactdtpr := curTxDesc }, fun fuel => ?_⟩
  rw [halEthTransmit, if_pos h, hr]

/-- The HAL fails on a frame iff it does not take it. A handle that is ready and descriptors that
are free leave the wait. -/
theorem halEthTransmit_error_iff (heth : EthHandle) (cfg : EthTxPacketConfig) (w : TxWait)
    (hpos : 0 < (txList cfg.txBuffer).length)
    (hle : (txList cfg.txBuffer).length ≤ ethTxDescCnt) :
    (∃ fuel h, halEthTransmit heth (some cfg) ethDmaTransmitTimeout w fuel = some (.error, h)) ↔
      ¬ Taken heth w (txList cfg.txBuffer).length := by
  obtain ⟨n, hn⟩ : ∃ n, descsFor (txList cfg.txBuffer).length = n + 1 :=
    Nat.exists_eq_add_one.2 (by unfold descsFor; omega)
  have hlt : n < ethTxDescCnt := by
    unfold descsFor at hn
    omega
  rw [Taken, hn, Nat.add_sub_cancel]
  by_cases hready : heth.gState = halEthStateReady
  · by_cases hfree : Free heth.txDesc heth.curTxDesc (n + 1)
    · obtain ⟨heth', heq⟩ := halEthTransmit_of_free cfg ethDmaTransmitTimeout w hready hn hlt hfree
      simp only [heq, waitLoop_error_iff]
      constructor
      · rintro ⟨fuel, m, -, -, howned, hfails⟩ ⟨-, -, hnever⟩
        exact hnever m ⟨fun i hi => howned i (Nat.zero_le i) hi, hfails⟩
      · intro htaken
        have hgives : ∃ m, w.GivesUp ethDmaTransmitTimeout
            (incrTxDescIndex^[n] heth.curTxDesc) m := by
          by_contra hnever
          exact htaken ⟨hready, hfree, fun m hm => hnever ⟨m, hm⟩⟩
        obtain ⟨m, howned, hfails⟩ := hgives
        exact ⟨m + 1, m, Nat.zero_le m, by omega, fun i _ hi => howned i hi, hfails⟩
    · obtain ⟨heth', heq⟩ := halEthTransmit_of_busy ethDmaTransmitTimeout w 0 hready hn hlt hfree
      exact ⟨fun _ h => hfree h.2.1, fun _ => ⟨0, heth', heq⟩⟩
  · exact ⟨fun _ h => hready h.1, fun _ => ⟨0, heth, halEthTransmit_of_not_ready hready⟩⟩
end Transmit

section Output
variable {s : EthTx} {p : PbufChain} {w : TxWait} {fuel : Nat}

/-- A chain that is too long is refused before the HAL is called. -/
theorem lowLevelOutput_of_long (h : ethTxDescCnt < p.pbufs.length) :
    lowLevelOutput s p w fuel =
      { handed := none, halStatus := none, errval := some errIf, state := s } := by
  rw [lowLevelOutput, fillTxbuffer_eq, if_neg (by omega)]

/-- A chain that fits is passed on, and what the HAL returns does not count. The function returns
`ERR_OK` for it in any case. -/
theorem lowLevelOutput_of_fits (s : EthTx) (w : TxWait) (fuel : Nat)
    (h : p.pbufs.length ≤ ethTxDescCnt) :
    (lowLevelOutput s p w fuel).handed = some (handedConfig s p) ∧
    (lowLevelOutput s p w fuel).halStatus =
      (halEthTransmit s.ethHandle (some (handedConfig s p)) ethDmaTransmitTimeout w fuel).map
        Prod.fst ∧
    (lowLevelOutput s p w fuel).errval =
      (halEthTransmit s.ethHandle (some (handedConfig s p)) ethDmaTransmitTimeout w fuel).map
        (fun _ => errOk) ∧
    (lowLevelOutput s p w fuel).state.ethHandle =
      (halEthTransmit s.ethHandle (some (handedConfig s p)) ethDmaTransmitTimeout w fuel).elim
        s.ethHandle Prod.snd := by
  rw [lowLevelOutput, fillTxbuffer_eq, if_pos h]
  unfold handedConfig
  dsimp only
  generalize halEthTransmit s.ethHandle _ ethDmaTransmitTimeout w fuel = r
  cases r with
  | none => exact ⟨rfl, rfl, rfl, rfl⟩
  | some r => exact ⟨rfl, rfl, rfl, rfl⟩

/-- A handle that is not ready takes no frame, and the call leaves it so. -/
theorem lowLevelOutput_of_not_ready (p : PbufChain) (w : TxWait) (fuel : Nat)
    (h : s.ethHandle.gState ≠ halEthStateReady) :
    (lowLevelOutput s p w fuel).halStatus ≠ some .ok ∧
      (lowLevelOutput s p w fuel).state.ethHandle = s.ethHandle := by
  rw [lowLevelOutput, fillTxbuffer_eq]
  by_cases hfits : p.pbufs.length ≤ ethTxDescCnt
  · rw [if_pos hfits]
    dsimp only
    rw [halEthTransmit_of_not_ready h]
    exact ⟨by simp, rfl⟩
  · rw [if_neg hfits]
    exact ⟨by simp, rfl⟩

end Output

/-- The outputs of a run of calls, each with its hardware and the rounds it is watched. -/
def sendAll (s : EthTx) : List (PbufChain × TxWait × Nat) → List EthOutput
  | [] => []
  | (p, w, fuel) :: frames =>
    lowLevelOutput s p w fuel :: sendAll (lowLevelOutput s p w fuel).state frames

/-- Once the handle is not ready, no later frame is sent. By induction on the frames, since a
refused frame leaves the handle as it is. -/
theorem lost_unless_ready {s : EthTx} (h : s.ethHandle.gState ≠ halEthStateReady)
    (frames : List (PbufChain × TxWait × Nat)) :
    ∀ o ∈ sendAll s frames, o.halStatus ≠ some .ok := by
  induction frames generalizing s with
  | nil =>
    intro o ho
    cases ho
  | cons f frames ih =>
    obtain ⟨p, w, fuel⟩ := f
    have hstep := lowLevelOutput_of_not_ready p w fuel h
    intro o ho
    rcases List.mem_cons.1 ho with rfl | ho
    · exact hstep.1
    · exact ih (by rw [hstep.2]; exact h) o ho

/-- A frame that the HAL gives up is the last one: no later frame is sent. The error state is the
state of the handle from then on, and a handle in this state refuses every frame. -/
theorem lost_after_error {s : EthTx} {p : PbufChain} {w : TxWait} {fuel : Nat}
    (hready : s.ethHandle.gState = halEthStateReady) (hfits : p.pbufs.length ≤ ethTxDescCnt)
    (hfree : Free s.ethHandle.txDesc s.ethHandle.curTxDesc (descsFor p.pbufs.length))
    (herror : (lowLevelOutput s p w fuel).halStatus = some .error)
    (frames : List (PbufChain × TxWait × Nat)) :
    ∀ o ∈ sendAll (lowLevelOutput s p w fuel).state frames, o.halStatus ≠ some .ok := by
  have hpos := List.length_pos_iff.2 p.nonempty
  obtain ⟨n, hn⟩ : ∃ n, descsFor p.pbufs.length = n + 1 :=
    Nat.exists_eq_add_one.2 (by unfold descsFor; omega)
  have hlt : n < ethTxDescCnt := by
    unfold descsFor at hn
    omega
  have hlen := (linked_denotes p.nonempty hfits).length_txList hfits
  rw [hn] at hfree
  obtain ⟨-, hstatus, -, hhandle⟩ := lowLevelOutput_of_fits s w fuel hfits
  obtain ⟨heth', heq⟩ := halEthTransmit_of_free (handedConfig s p) ethDmaTransmitTimeout w
    hready (by rw [handedConfig, hlen, hn]) hlt hfree
  rw [heq fuel] at hstatus hhandle
  refine lost_unless_ready ?_ frames
  rw [herror] at hstatus
  -- the wait has failed, and it leaves the handle in the state ERROR
  match hwait : waitLoop ethDmaTransmitTimeout (incrTxDescIndex^[n] s.ethHandle.curTxDesc) w fuel 0
    heth' with
  | none =>
    rw [hwait] at hstatus
    cases hstatus
  | some (.ok, _) =>
    rw [hwait] at hstatus
    cases hstatus
  | some (.error, h) =>
    rw [hwait] at hhandle
    rw [hhandle, Option.elim_some, waitLoop_error_state hwait]
    decide

/-- The states, chains and hardware for which a call does what it says, however long it is watched.
A chain that fits is passed on, and then `ERR_OK` is right iff the HAL takes the frame. -/
theorem output_right_iff (s : EthTx) (p : PbufChain) (w : TxWait) :
    (∀ fuel, OutputRight s p w fuel) ↔
      ethTxDescCnt < p.pbufs.length ∨ Taken s.ethHandle w p.pbufs.length := by
  rcases Nat.lt_or_ge ethTxDescCnt p.pbufs.length with hlong | hfits
  · -- a chain that is too long is refused, which the property allows
    refine ⟨fun _ => .inl hlong, fun _ fuel => ⟨fun h => absurd hlong (by omega), fun _ => ?_, ?_⟩⟩
    · rw [lowLevelOutput_of_long hlong]
    · rw [lowLevelOutput_of_long hlong]
      intro h
      cases h
  · have hden := linked_denotes p.nonempty hfits
    have hlen : (txList (handedConfig s p).txBuffer).length = p.pbufs.length :=
      hden.length_txList hfits
    have herror := halEthTransmit_error_iff s.ethHandle (handedConfig s p) w
      (by rw [hlen]; exact List.length_pos_iff.2 p.nonempty) (by omega)
    rw [hlen] at herror
    -- any other one is right exactly when the HAL takes it
    constructor
    · intro hright
      refine .inr (not_not.1 fun htaken => ?_)
      obtain ⟨fuel, heth, heq⟩ := herror.2 htaken
      obtain ⟨-, hstatus, herrval, -⟩ := lowLevelOutput_of_fits s w fuel hfits
      rw [heq] at hstatus herrval
      have hok := (hright fuel).accepted herrval
      rw [hstatus] at hok
      cases hok
    · rintro (hlong | htaken) fuel
      · omega
      obtain ⟨hhanded, hstatus, herrval, -⟩ := lowLevelOutput_of_fits s w fuel hfits
      refine ⟨fun _ => ⟨_, hhanded, hden, by simp [handedConfig], ?_⟩, fun h => by omega,
        fun hok => ?_⟩
      · exact (hden.sum_txList hfits).trans p.total
      · rw [hstatus]
        rw [herrval] at hok
        match hres : halEthTransmit s.ethHandle (some (handedConfig s p)) ethDmaTransmitTimeout w
          fuel with
        | none => rw [hres] at hok; cases hok
        | some (.ok, _) => rfl
        | some (.error, heth) => exact absurd htaken (herror.1 ⟨fuel, heth, hres⟩)

/-- Descriptors that the DMA does not release. -/
def stuckWait : TxWait :=
  { tickstart := 0
    poll := fun _ => { txDesc := fun _ => ⟨0, 0, 0, ethDmatxndescrfOwn⟩, dmacsr := 0, tick := 21 } }

/-- The interface after `low_level_init`. -/
def readyTx : EthTx :=
  { ethHandle :=
      { gState := halEthStateReady, errorCode := 0, dmaErrorCode := 0
        txDesc := fun _ => ⟨0, 0, 0, 0⟩, curTxDesc := 0, dmactdtpr := 0 }
    txConfig :=
      { length := 0, txBuffer := txBufferZero, crcPadCtrl := 0
        checksumCtrl := ethDmatxndescrfCic } }

/-- The chain of one pbuf with 60 bytes. -/
def shortFrame : PbufChain :=
  { pbufs := [⟨0x24000000, 60⟩], nonempty := by simp, totLen := 60, total := by decide }

/-- A frame that times out is reported as sent. -/
theorem output_timed_out : ¬ ∀ s p w fuel, OutputRight s p w fuel := by
  intro h
  have hok := (h readyTx shortFrame stuckWait 1).accepted (by decide)
  exact absurd hok (by decide)

end NucleoH743.Eth
