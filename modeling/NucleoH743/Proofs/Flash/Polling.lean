import Mathlib.Order.Nat
import NucleoH743.Proofs.Flash.Device

/-!
# `Proofs.Flash.Polling`: the busy poll and the status bytes of the chip

`W25Q128FV_SoftPollingCheckLoMask` reads the three status registers until the bits of its mask
are clear, for at most `time_out / time_check` reads, rounded up. A status read is a command and
the reception of three bytes, and each of the two may fail.

The expression for `temp_status_reg` has `||` where `|` belongs. So the loop takes a chip for
ready iff the mask lacks bit 0 or the first two registers are zero. Besides, `cnt_time` is a
`uint32_t`: with a time-out near `2^32` it wraps and the loop starts its time anew.

The theorem compares the loop with what the poll should do, for any registers that the chip may show
and any times. The reads are numbered, and a read is pending if it neither fails nor looks clear.
The loop goes through pending reads (`poll_pending`) and ends at the first that is not
(`poll_decides`), or when its time is over. So the result depends on which read is the first one
that is not pending, and whether its number is within the rounds that the time-out allows.

Two faults are visible from there: the bits that look clear are not those that are, and the time
that was counted may wrap before it reaches the time-out.

- `softPolling_ends`: the function returns what its loop does.
- `polling_right_iff`: the reads of the chip and the times for which the poll is right.
- `polling_write_latch`: a chip whose write enable latch is set counts as busy.
-/

set_option autoImplicit false

namespace NucleoH743.Flash

/-! ### Status reads -/

/-- How a status read goes: whether the command succeeds, and what is received. -/
structure StatusRead where
  command : Bool
  receive : Option (Nat → UInt8)

/-- The bytes of the read, unless one of its two calls fails. -/
def StatusRead.bytes (r : StatusRead) : Option (Nat → UInt8) :=
  if r.command then r.receive else none

/-- The HAL during a poll. The state counts the status reads that were started, and `reads n`
is how the read after `n` others goes. -/
def polled (reads : Nat → StatusRead) : (o : HalOp) → Nat → o.Res × Nat
  | .command _, n => ((reads n).command, n + 1)
  | .receive, n => ((reads (n - 1)).receive, n)
  | .fastReceive, n => (none, n)
  | .transmit _, n => (true, n)
  | .autoPolling _ _ _, n => (true, n)
  | .delay _, n => ((), n)
  | .init, n => (true, n)
  | .loadPqspi, n => (⟨.none, .spi⟩, n)
  | .storePqspi _, n => ((), n)

/-- The status word of the chip, with register `i` in byte `i`. -/
def statusWord (buf : Nat → UInt8) : UInt32 :=
  (buf 0).toUInt32 ||| (buf 1).toUInt32 <<< 8 ||| (buf 2).toUInt32 <<< 16

/-- The bits of the mask are clear. -/
def Clear (mask : UInt32) (buf : Nat → UInt8) : Prop := statusWord buf &&& mask = 0

/-- The mask lacks bit 0, or the first two registers are zero. -/
def LooksClear (mask : UInt32) (buf : Nat → UInt8) : Prop :=
  mask &&& 1 = 0 ∨ buf 0 = 0 ∧ buf 1 = 0

instance (mask : UInt32) (buf : Nat → UInt8) : Decidable (LooksClear mask buf) :=
  inferInstanceAs (Decidable (_ ∨ _))

/-- `R` holds of one of the first `rounds` reads, and no read fails before it. -/
def SeenWithin (reads : Nat → StatusRead) (rounds : Nat) (R : (Nat → UInt8) → Prop) : Prop :=
  ∃ i < rounds, (∃ buf ∈ (reads i).bytes, R buf) ∧ ∀ j < i, (reads j).bytes ≠ none

/-- `time_out / time_check`, rounded up. -/
def pollRounds (timeCheck timeOut : UInt32) : Nat :=
  (timeOut.toNat + timeCheck.toNat - 1) / timeCheck.toNat

/-- What the code puts together of the registers, with `||` in the place of `|`, has the bits of the
mask off iff the first two registers look clear. -/
theorem tempStatusReg_clear (mask : UInt32) (buf : Nat → UInt8) :
    tempStatusReg buf &&& mask = 0 ↔ LooksClear mask buf := by
  unfold tempStatusReg LooksClear
  -- the word is 0 or 1, so only bit 0 of the mask counts
  by_cases hzero : buf 0 = 0 ∧ buf 1 = 0
  · rw [if_neg (by simp [hzero.1, hzero.2])]
    simp [hzero]
  · rw [if_pos (by tauto), UInt32.and_comm]
    simp [hzero]

/-! ### One round -/

section Loop
variable {mode : Interface} {mask timeCheck timeOut : UInt32} {reads : Nat → StatusRead}

/-- The state of the poll after at most `fuel` rounds, from `cnt_time` and the number of reads. -/
abbrev poll (mode : Interface) (mask timeCheck timeOut : UInt32) (reads : Nat → StatusRead)
    (fuel : Nat) (cntTime : UInt32) (n : Nat) : Option Status × Nat :=
  (pollLoop mode mask timeCheck timeOut fuel cntTime).run (polled reads) n

variable {fuel n : Nat} {cntTime : UInt32}

/-- A poll whose time is over returns an error and reads nothing. -/
theorem poll_over (h : ¬ cntTime < timeOut) :
    poll mode mask timeCheck timeOut reads (fuel + 1) cntTime n = (some .errorCommand, n) := by
  show (pollLoop mode mask timeCheck timeOut (fuel + 1) cntTime).run _ _ = _
  rw [pollLoop, if_neg h]
  rfl

/-- A round reads the status once. The read is two calls, the command and its data, and either may
fail. The status is tested before the time moves on, so the first round takes none. -/
theorem poll_round (h : cntTime < timeOut) :
    poll mode mask timeCheck timeOut reads (fuel + 1) cntTime n =
      match (reads n).bytes with
      | none => (some (if (reads n).command then .errorReceive else .errorCommand), n + 1)
      | some buf =>
        if LooksClear mask buf then (some .ok, n + 1)
        else poll mode mask timeCheck timeOut reads fuel (cntTime + timeCheck) (n + 1) := by
  show (pollLoop mode mask timeCheck timeOut (fuel + 1) cntTime).run _ _ = _
  rw [pollLoop, if_pos h, Prog.run_bind]
  -- the two calls of a status read
  have hcmd : (halCommand (statusCommand mode)).run (polled reads) n =
      ((reads n).command, n + 1) := rfl
  have hrec : halReceive.run (polled reads) (n + 1) = ((reads n).receive, n + 1) := rfl
  rw [hcmd, StatusRead.bytes]
  cases (reads n).command with
  | false => rfl
  | true =>
    dsimp only
    rw [if_pos rfl, if_pos rfl, Prog.run_bind, hrec]
    cases (reads n).receive with
    | none => rfl
    | some buf =>
      dsimp only
      by_cases hlook : LooksClear mask buf
      · rw [if_pos ((tempStatusReg_clear mask buf).2 hlook), if_pos hlook]
        rfl
      · rw [if_neg fun h => hlook ((tempStatusReg_clear mask buf).1 h), if_neg hlook]
        rfl

/-- The read shows bits of the mask, or so it looks. -/
def Pending (mask : UInt32) (r : StatusRead) : Prop := ∃ buf ∈ r.bytes, ¬ LooksClear mask buf

/-- A read is not pending iff one of its calls fails, or the bits look clear. -/
theorem not_pending {r : StatusRead} :
    ¬ Pending mask r ↔ r.bytes = none ∨ ∃ buf ∈ r.bytes, LooksClear mask buf := by
  cases hbytes : r.bytes with
  | none => simp [Pending, hbytes]
  | some buf => simp [Pending, hbytes]

/-- A pending read leads to another round, with more time counted. -/
theorem poll_pending (h : cntTime < timeOut) (hp : Pending mask (reads n)) :
    poll mode mask timeCheck timeOut reads (fuel + 1) cntTime n =
      poll mode mask timeCheck timeOut reads fuel (cntTime + timeCheck) (n + 1) := by
  obtain ⟨buf, hbuf, hlook⟩ := hp
  rw [poll_round h, Option.mem_def.1 hbuf]
  exact if_neg hlook

/-- A read that is not pending ends the poll. It has failed, or it looks clear. Neither depends on
how many rounds are left. -/
theorem poll_decides (mode : Interface) (timeCheck : UInt32) (h : cntTime < timeOut)
    (hp : ¬ Pending mask (reads n)) :
    ∃ s, (∀ fuel, poll mode mask timeCheck timeOut reads (fuel + 1) cntTime n =
      (some s, n + 1)) ∧ (s = .ok ↔ ∃ buf ∈ (reads n).bytes, LooksClear mask buf) := by
  cases hbytes : (reads n).bytes with
  | none =>
    refine ⟨if (reads n).command then .errorReceive else .errorCommand, fun fuel => ?_, ?_⟩
    · rw [poll_round h, hbytes]
    · split <;> simp
  | some buf =>
    have hlook : LooksClear mask buf := by
      by_contra hno
      exact hp ⟨buf, hbytes, hno⟩
    refine ⟨.ok, fun fuel => ?_, ?_⟩
    · rw [poll_round h, hbytes]
      exact if_pos hlook
    · simp [hlook]

/-! ### The whole poll -/

/-- More rounds do not change a result. By induction on the rounds. -/
theorem poll_more {s : Status} {k : Nat}
    (h : poll mode mask timeCheck timeOut reads fuel cntTime n = (some s, k)) (m : Nat) :
    poll mode mask timeCheck timeOut reads (fuel + m) cntTime n = (some s, k) := by
  induction fuel generalizing cntTime n with
  | zero => cases h
  | succ fuel ih =>
    rw [Nat.add_right_comm]
    by_cases hlt : cntTime < timeOut
    -- a read that is not pending ends both, and neither needs more rounds
    · by_cases hp : Pending mask (reads n)
      · rw [poll_pending hlt hp] at h ⊢
        exact ih h
      · obtain ⟨s', hs', -⟩ := poll_decides mode timeCheck hlt hp
        rw [hs'] at h ⊢
        exact h
    · rw [poll_over hlt] at h ⊢
      exact h

/-- The reads are counted upwards. -/
theorem le_poll : n ≤ (poll mode mask timeCheck timeOut reads fuel cntTime n).2 := by
  induction fuel generalizing cntTime n with
  | zero => exact Nat.le_refl n
  | succ fuel ih =>
    by_cases hlt : cntTime < timeOut
    · by_cases hp : Pending mask (reads n)
      · rw [poll_pending hlt hp]
        exact Nat.le_of_succ_le ih
      · obtain ⟨s, hs, -⟩ := poll_decides mode timeCheck hlt hp
        rw [hs]
        exact Nat.le_succ n
    · rw [poll_over hlt]

/-- Before the time-out another read is started. -/
theorem lt_poll (h : cntTime < timeOut) :
    n < (poll mode mask timeCheck timeOut reads (fuel + 1) cntTime n).2 := by
  by_cases hp : Pending mask (reads n)
  · rw [poll_pending h hp]
    exact le_poll
  · obtain ⟨s, hs, -⟩ := poll_decides mode timeCheck h hp
    rw [hs]
    exact Nat.lt_succ_self n

/-- The time that `n` rounds count. -/
abbrev cntAfter (timeCheck : UInt32) (n : Nat) : UInt32 := UInt32.ofNat (n * timeCheck.toNat)

/-- Another round counts the same time again. -/
theorem cntAfter_succ (timeCheck : UInt32) (n : Nat) :
    cntAfter timeCheck n + timeCheck = cntAfter timeCheck (n + 1) := by
  rw [← UInt32.toNat_inj, UInt32.toNat_add, UInt32.toNat_ofNat', UInt32.toNat_ofNat', Nat.succ_mul,
    Nat.mod_add_mod]

/-- A round is within the rounds iff its time is before the time-out. -/
theorem lt_pollRounds (timeOut : UInt32) (hcheck : 0 < timeCheck.toNat) (i : Nat) :
    i < pollRounds timeCheck timeOut ↔ i * timeCheck.toNat < timeOut.toNat := by
  rw [pollRounds, Nat.lt_iff_add_one_le, Nat.le_div_iff_mul_le hcheck, Nat.succ_mul]
  omega

/-- In the rounds that the time-out allows, the time that was counted is below it. -/
theorem cntAfter_lt (hcheck : 0 < timeCheck.toNat) {i : Nat}
    (hi : i < pollRounds timeCheck timeOut) : cntAfter timeCheck i < timeOut := by
  have hlt := (lt_pollRounds timeOut hcheck i).1 hi
  have hout := timeOut.toNat_lt
  -- within the rounds the time does not wrap, since it is below the time-out
  rw [UInt32.lt_iff_toNat_lt, UInt32.toNat_ofNat', Nat.mod_eq_of_lt (by omega)]
  exact hlt

/-- After `m` pending reads within the rounds the loop is at read `m`. -/
theorem poll_reaches (hcheck : 0 < timeCheck.toNat) {m : Nat}
    (hm : m ≤ pollRounds timeCheck timeOut) (hp : ∀ j < m, Pending mask (reads j)) (fuel : Nat) :
    poll mode mask timeCheck timeOut reads (fuel + m) 0 0 =
      poll mode mask timeCheck timeOut reads fuel (cntAfter timeCheck m) m := by
  -- on the reads; the invariant is the time that they have taken
  induction m generalizing fuel with
  | zero => rw [cntAfter, Nat.zero_mul]; rfl
  | succ m ih =>
    have hbefore := ih (Nat.le_of_succ_le hm) (fun j hj => hp j (Nat.lt_succ_of_lt hj)) (fuel + 1)
    rw [← Nat.add_assoc, Nat.add_right_comm, hbefore,
      poll_pending (cntAfter_lt hcheck hm) (hp m (Nat.lt_succ_self m)), cntAfter_succ]

/-- The poll returns `s` after `k` status reads. -/
def PollEnds (mode : Interface) (mask timeCheck timeOut : UInt32) (reads : Nat → StatusRead)
    (s : Status) (k : Nat) : Prop :=
  ∃ fuel, poll mode mask timeCheck timeOut reads fuel 0 0 = (some s, k)

/-- A poll returns one status after one number of reads. -/
theorem pollEnds_unique {s s' : Status} {k k' : Nat}
    (h : PollEnds mode mask timeCheck timeOut reads s k)
    (h' : PollEnds mode mask timeCheck timeOut reads s' k') : s = s' ∧ k = k' := by
  obtain ⟨f, hf⟩ := h
  obtain ⟨f', hf'⟩ := h'
  -- both fuels together give both results
  have hmore := poll_more hf f'
  have hmore' := poll_more hf' f
  rw [Nat.add_comm, hmore', Prod.mk.injEq, Option.some.injEq] at hmore
  exact ⟨hmore.1.symm, hmore.2.symm⟩

/-- Where `cnt_time` cannot wrap, as many rounds as the time-out and one are enough. -/
theorem poll_bounded {s : Status} {k : Nat} (hcheck : 0 < timeCheck.toNat)
    (hout : timeOut.toNat + timeCheck.toNat ≤ 2 ^ 32)
    (h : PollEnds mode mask timeCheck timeOut reads s k) :
    poll mode mask timeCheck timeOut reads (timeOut.toNat + 1) 0 0 = (some s, k) := by
  obtain ⟨fuel, hfuel⟩ := h
  have hmore := poll_more hfuel (timeOut.toNat + 1)
  rw [Nat.add_comm, poll, pollLoop_fuel mode mask hcheck hout fuel _ (by simp)] at hmore
  exact hmore

/-- There the function returns what its loop does. -/
theorem softPolling_ends {s : Status} {k : Nat} (hcheck : 0 < timeCheck.toNat)
    (hout : timeOut.toNat + timeCheck.toNat ≤ 2 ^ 32)
    (h : PollEnds mode mask timeCheck timeOut reads s k) :
    (softPollingCheckLoMask mode mask (timeCheck, timeOut)).run (polled reads) 0 = (s, k) := by
  have hloop : (pollLoop mode mask timeCheck timeOut (timeOut.toNat + 1) 0).run (polled reads) 0 =
      (some s, k) := poll_bounded hcheck hout h
  rw [softPollingCheckLoMask, Prog.run_bind, hloop]
  rfl

/-- A read within the rounds that is not pending ends the poll, and its status tells whether one
of the reads looks clear. -/
theorem poll_decided (mode : Interface) (hcheck : 0 < timeCheck.toNat)
    (h : ∃ i < pollRounds timeCheck timeOut, ¬ Pending mask (reads i)) :
    ∃ s, ∃ k ≤ pollRounds timeCheck timeOut, PollEnds mode mask timeCheck timeOut reads s k ∧
      (s = .ok ↔ SeenWithin reads (pollRounds timeCheck timeOut) (LooksClear mask)) := by
  classical
  -- the poll ends at the first read that is not pending
  have hleast := Nat.find_spec h
  have hbefore : ∀ j < Nat.find h, Pending mask (reads j) := fun j hj => by
    by_contra hno
    exact Nat.find_min h hj ⟨Nat.lt_trans hj hleast.1, hno⟩
  generalize Nat.find h = i at hleast hbefore
  obtain ⟨hi, hno⟩ := hleast
  obtain ⟨s, hends, hs⟩ := poll_decides mode timeCheck (cntAfter_lt hcheck hi) hno
  refine ⟨s, i + 1, hi, ⟨1 + i, ?_⟩, hs.trans ⟨fun hlook => ?_, fun hseen => ?_⟩⟩
  · rw [poll_reaches hcheck (Nat.le_of_lt hi) hbefore]
    exact hends 0
  · refine ⟨i, hi, hlook, fun j hj hfail => ?_⟩
    obtain ⟨buf, hbuf, -⟩ := hbefore j hj
    rw [hfail] at hbuf
    cases hbuf
  · obtain ⟨j, -, ⟨buf, hbuf, hlook⟩, hgood⟩ := hseen
    rcases Nat.lt_trichotomy j i with hlt | rfl | hgt
    · obtain ⟨buf', hbuf', hpend⟩ := hbefore j hlt
      rw [Option.mem_unique hbuf' hbuf] at hpend
      exact absurd hlook hpend
    · exact ⟨buf, hbuf, hlook⟩
    · by_contra hnone
      cases hbytes : (reads i).bytes with
      | none => exact hgood i hgt hbytes
      | some buf' => exact hno ⟨buf', hbytes, fun hl => hnone ⟨buf', hbytes, hl⟩⟩

/-- Where every read is pending, the bits are seen clear in none. -/
theorem not_seen_of_pending (hp : ∀ j < pollRounds timeCheck timeOut, Pending mask (reads j)) :
    ¬ SeenWithin reads (pollRounds timeCheck timeOut) (LooksClear mask) := by
  rintro ⟨i, hi, ⟨buf, hbuf, hlook⟩, -⟩
  obtain ⟨buf', hbuf', hpend⟩ := hp i hi
  rw [Option.mem_unique hbuf' hbuf] at hpend
  exact hpend hlook

/-- After all rounds `cnt_time` is past the time-out, unless it wraps. The number of the rounds is
the least one that takes the sum past the time-out. -/
theorem cntAfter_rounds (hcheck : 0 < timeCheck.toNat) :
    cntAfter timeCheck (pollRounds timeCheck timeOut) < timeOut ↔
      2 ^ 32 ≤ pollRounds timeCheck timeOut * timeCheck.toNat := by
  have hlast := (lt_pollRounds timeOut hcheck (pollRounds timeCheck timeOut)).not.1
    (Nat.lt_irrefl _)
  rw [UInt32.lt_iff_toNat_lt, UInt32.toNat_ofNat']
  -- a time that wraps is below the last `time_check`, and so below the time-out
  by_cases hfits : pollRounds timeCheck timeOut * timeCheck.toNat < 2 ^ 32
  · rw [Nat.mod_eq_of_lt hfits]
    omega
  · cases hrounds : pollRounds timeCheck timeOut with
    | zero =>
      rw [hrounds, Nat.zero_mul] at hfits
      omega
    | succ m =>
      have hm := (lt_pollRounds timeOut hcheck m).1 (hrounds ▸ Nat.lt_succ_self m)
      have hcheckLt := timeCheck.toNat_lt
      have houtLt := timeOut.toNat_lt
      rw [hrounds] at hfits
      rw [Nat.succ_mul] at hfits ⊢
      omega

/-- If all rounds are pending, the poll times out after them, or `cnt_time` wraps. -/
theorem poll_timeout (hcheck : 0 < timeCheck.toNat)
    (hfits : pollRounds timeCheck timeOut * timeCheck.toNat < 2 ^ 32)
    (hp : ∀ j < pollRounds timeCheck timeOut, Pending mask (reads j)) :
    PollEnds mode mask timeCheck timeOut reads .errorCommand (pollRounds timeCheck timeOut) := by
  refine ⟨1 + pollRounds timeCheck timeOut, ?_⟩
  rw [poll_reaches hcheck (Nat.le_refl _) hp]
  exact poll_over ((cntAfter_rounds hcheck).not.2 (Nat.not_le.2 hfits))

/-- Once `cnt_time` has wrapped, the loop starts another read. All rounds of the time are spent with
reads that are pending, and then the time is small again. -/
theorem poll_wraps (hcheck : 0 < timeCheck.toNat)
    (hwrap : 2 ^ 32 ≤ pollRounds timeCheck timeOut * timeCheck.toNat)
    (hp : ∀ j < pollRounds timeCheck timeOut, Pending mask (reads j)) {s : Status} {k : Nat}
    (h : PollEnds mode mask timeCheck timeOut reads s k) :
    pollRounds timeCheck timeOut < k := by
  obtain ⟨fuel, hfuel⟩ := h
  rcases Nat.lt_or_ge (pollRounds timeCheck timeOut) fuel with hlt | hge
  · obtain ⟨f, rfl⟩ : ∃ f, fuel = f + 1 + pollRounds timeCheck timeOut :=
      ⟨fuel - pollRounds timeCheck timeOut - 1, by omega⟩
    have hread : pollRounds timeCheck timeOut < (poll mode mask timeCheck timeOut reads (f + 1)
        (cntAfter timeCheck (pollRounds timeCheck timeOut)) (pollRounds timeCheck timeOut)).2 :=
      lt_poll ((cntAfter_rounds hcheck).2 hwrap)
    rw [poll_reaches hcheck (Nat.le_refl _) hp] at hfuel
    rw [hfuel] at hread
    exact hread
  · have hbefore : poll mode mask timeCheck timeOut reads (0 + fuel) 0 0 = (none, fuel) :=
      poll_reaches hcheck hge (fun j hj => hp j (Nat.lt_of_lt_of_le hj hge)) 0
    rw [Nat.zero_add, hfuel] at hbefore
    cases hbefore

/-! ### When the poll is right -/

/-- The poll returns after at most the rounds that the time-out allows, and it returns OK iff the
bits of the mask are clear in one of these reads, with no failed call before it. -/
def PollsRight (mode : Interface) (mask timeCheck timeOut : UInt32) (reads : Nat → StatusRead) :
    Prop :=
  ∃ s, ∃ k ≤ pollRounds timeCheck timeOut, PollEnds mode mask timeCheck timeOut reads s k ∧
    (s = .ok ↔ SeenWithin reads (pollRounds timeCheck timeOut) (Clear mask))

/-- For a poll that ends, being right is about one thing only: whether the bits look clear iff they
are. -/
theorem pollsRight_of_ends {s : Status} {k : Nat}
    (hk : k ≤ pollRounds timeCheck timeOut)
    (hends : PollEnds mode mask timeCheck timeOut reads s k)
    (hs : s = .ok ↔ SeenWithin reads (pollRounds timeCheck timeOut) (LooksClear mask)) :
    PollsRight mode mask timeCheck timeOut reads ↔
      (SeenWithin reads (pollRounds timeCheck timeOut) (LooksClear mask) ↔
        SeenWithin reads (pollRounds timeCheck timeOut) (Clear mask)) := by
  constructor
  · rintro ⟨s', k', -, hends', hright⟩
    rw [← hs, (pollEnds_unique hends hends').1]
    exact hright
  · intro hsame
    exact ⟨s, k, hk, hends, hs.trans hsame⟩

/-- The poll is right iff two things hold. Its time fits a `uint32_t`, or one of the reads fails or
looks clear before. And one of the reads looks clear iff one of them is clear. The reads, the masks
and the times are any ones. The condition asks the reads only whether they are clear of the mask and
whether they look so to the code, which has `||` in the place of `|`. -/
theorem polling_right_iff (mode : Interface) (mask : UInt32) {timeCheck : UInt32}
    (hcheck : 1 ≤ timeCheck) (timeOut : UInt32) (reads : Nat → StatusRead) :
    PollsRight mode mask timeCheck timeOut reads ↔
      (pollRounds timeCheck timeOut * timeCheck.toNat < 2 ^ 32 ∨
        ∃ i < pollRounds timeCheck timeOut,
          (reads i).bytes = none ∨ ∃ buf ∈ (reads i).bytes, LooksClear mask buf) ∧
      (SeenWithin reads (pollRounds timeCheck timeOut) (LooksClear mask) ↔
        SeenWithin reads (pollRounds timeCheck timeOut) (Clear mask)) := by
  have hpos : 0 < timeCheck.toNat := UInt32.le_iff_toNat_le.1 hcheck
  by_cases hdec : ∃ i < pollRounds timeCheck timeOut, ¬ Pending mask (reads i)
  · -- the first read that is not pending ends the poll in time
    obtain ⟨s, k, hk, hends, hs⟩ := poll_decided mode hpos hdec
    have hsome : ∃ i < pollRounds timeCheck timeOut,
        (reads i).bytes = none ∨ ∃ buf ∈ (reads i).bytes, LooksClear mask buf := by
      obtain ⟨i, hi, hno⟩ := hdec
      exact ⟨i, hi, not_pending.1 hno⟩
    rw [pollsRight_of_ends hk hends hs]
    exact (and_iff_right (Or.inr hsome)).symm
  · -- every read is pending: a time-out, unless the elapsed time wraps before it
    have hp : ∀ j < pollRounds timeCheck timeOut, Pending mask (reads j) := fun j hj => by
      by_contra hno
      exact hdec ⟨j, hj, hno⟩
    have hnone : ¬ ∃ i < pollRounds timeCheck timeOut,
        (reads i).bytes = none ∨ ∃ buf ∈ (reads i).bytes, LooksClear mask buf := by
      rintro ⟨i, hi, hr⟩
      exact not_pending.2 hr (hp i hi)
    by_cases hfits : pollRounds timeCheck timeOut * timeCheck.toNat < 2 ^ 32
    · have hends : PollEnds mode mask timeCheck timeOut reads .errorCommand
          (pollRounds timeCheck timeOut) := poll_timeout hpos hfits hp
      have hs : Status.errorCommand = .ok ↔
          SeenWithin reads (pollRounds timeCheck timeOut) (LooksClear mask) :=
        iff_of_false nofun (not_seen_of_pending hp)
      rw [pollsRight_of_ends (Nat.le_refl _) hends hs]
      exact (and_iff_right (Or.inl hfits)).symm
    · -- the poll goes on after its last round
      refine iff_of_false ?_ fun h => h.1.elim hfits hnone
      rintro ⟨s, k, hk, hends, -⟩
      exact Nat.not_lt.2 hk (poll_wraps hpos (Nat.not_lt.1 hfits) hp hends)

/-- For instance a chip that is ready at the second read. -/
theorem polling_right_ready : PollsRight .spi srBusy 1 5000
    fun n => ⟨true, some fun i => if n = 0 ∧ i = 0 then 1 else 0⟩ := by
  refine (polling_right_iff .spi srBusy (by decide) 5000 _).2 ⟨Or.inl (by decide), ?_⟩
  refine iff_of_true ⟨1, by decide, ⟨_, rfl, by decide⟩, fun j _ => nofun⟩
    ⟨1, by decide, ⟨_, rfl, ?_⟩, fun j _ => nofun⟩
  show statusWord _ &&& _ = 0
  decide

/-- The write enable latch is set, and the chip is not busy. -/
def writeLatched : Nat → StatusRead := fun _ => ⟨true, some fun i => if i = 0 then sr1Wel else 0⟩

/-- A chip that is not busy counts as busy as long as its write enable latch is set. -/
theorem polling_write_latch : ¬ PollsRight .spi srBusy 1 5000 writeLatched := by
  have hp : ∀ j, Pending srBusy (writeLatched j) := fun j => ⟨_, rfl, by decide⟩
  have hends : PollEnds .spi srBusy 1 5000 writeLatched .errorCommand 5000 :=
    poll_timeout (by decide) (by decide) fun j _ => hp j
  -- the poll has timed out, but the first read is clear of the mask
  rintro ⟨s, k, -, hends', hs⟩
  rw [← (pollEnds_unique hends hends').1] at hs
  have hclear : SeenWithin writeLatched (pollRounds 1 5000) (Clear srBusy) :=
    ⟨0, by decide, ⟨_, rfl, by unfold Clear statusWord; decide⟩, fun j _ => nofun⟩
  exact absurd (hs.2 hclear) nofun

end Loop

end NucleoH743.Flash
