import NucleoH743.FatFs.SectorIo

/-!
# `Proofs.FatFs.SectorLoops`: what the sector loops visit and what they report

`w25qxx_read` counts a `UINT` down and `w25qxx_write` counts a `BYTE` up. Neither looks at the
status of a driver call: both return `RES_OK` once they leave their loop.

The driver calls are answered by a flash with the content `mem`, where the `n`-th call fails iff
`fails n`. A call that fails stores no byte.

The two loops differ in their counters and in nothing else that matters here. A `UINT` that counts
down reaches zero for every count. A byte that counts up is compared with the count as a number of
32 bits, so it reaches any count below 256, and none from there on.

That a result can be trusted means that it is not `RES_OK`, or that all driver calls have succeeded.
Both functions return `RES_OK` whenever they return, so the condition is on the driver calls alone,
and for a write that never returns there is nothing to trust.

- `sector_reports_iff`: when `RES_OK` says that every driver call succeeded.
- `sector_visits_iff`: the loops visit the same sectors iff the count fits a byte.
-/

set_option autoImplicit false

namespace NucleoH743.Diskio

open NucleoH743.Flash

/-! ### Driver calls -/

/-- The `size` bytes of the flash from the address on. -/
def stored (mem : Nat → UInt8) (addr : UInt32) (size : Nat) : List UInt8 :=
  (List.range size).map fun i => mem (addr.toNat + i)

/-- What a driver call returns. -/
def BspOp.answer (mem : Nat → UInt8) (fails : Bool) : (o : BspOp) → o.Res
  | eraseBlock _ _ | write _ _ => (if fails then .componentFailure else .none : BspStatus)
  | read readAddr size =>
    (if fails then (.componentFailure, []) else (.none, stored mem readAddr size) :
      BspStatus × List UInt8)

/-- The driver, with the calls so far. -/
def driver (mem : Nat → UInt8) (fails : Nat → Bool) (o : BspOp) (log : List BspOp) :
    o.Res × List BspOp :=
  (o.answer mem (fails log.length), log ++ [o])

/-- The addresses of the sectors that were erased, in order. -/
def erasures (log : List BspOp) : List UInt32 :=
  log.filterMap fun
    | .eraseBlock addr .erase4K => some addr
    | _ => none

/-- The addresses of the sectors that were written. -/
def writes (log : List BspOp) : List UInt32 :=
  log.filterMap fun
    | .write _ addr => some addr
    | _ => none

/-- The addresses of the sectors that were read. -/
def readings (log : List BspOp) : List UInt32 :=
  log.filterMap fun
    | .read addr _ => some addr
    | _ => none

/-- The addresses of `n` sectors from `sector` on. -/
def sectorAddrs (sector : UInt32) (n : Nat) : List UInt32 :=
  (List.range n).map fun k => (sector + UInt32.ofNat k) * flashSubsectorSize

/-- The content of `n` sectors from `sector` on. -/
def sectorBytes (mem : Nat → UInt8) (sector : UInt32) (n : Nat) : List UInt8 :=
  (sectorAddrs sector n).flatMap fun addr => stored mem addr flashSubsectorSize.toNat

/-- The `k + 1`-th sector behind one is the `k`-th behind the next. The sum is one of 32 bits on
both sides. -/
theorem next_sector (sector : UInt32) (k : Nat) :
    sector + UInt32.ofNat (k + 1) = sector + 1 + UInt32.ofNat k := by
  rw [UInt32.ofNat_add, UInt32.add_comm (UInt32.ofNat k), ← UInt32.add_assoc]
  rfl

/-- The addresses of some sectors: the first, and then those from the next sector on. -/
theorem sectorAddrs_succ (sector : UInt32) (n : Nat) :
    sectorAddrs sector (n + 1) =
      sector * flashSubsectorSize :: sectorAddrs (sector + 1) n := by
  rw [sectorAddrs, List.range_succ_eq_map, List.map_cons, List.map_map]
  refine congrArg₂ List.cons ?_ (List.map_congr_left fun k _ => ?_)
  · exact congrArg (· * flashSubsectorSize) (UInt32.add_zero sector)
  · exact congrArg (· * flashSubsectorSize) (next_sector sector k)

/-- Every sector has one address in the list. -/
theorem length_sectorAddrs (sector : UInt32) (n : Nat) : (sectorAddrs sector n).length = n := by
  rw [sectorAddrs, List.length_map, List.length_range]

/-- No call from the `first`-th on fails, for `n` calls. -/
def Succeed (fails : Nat → Bool) (first n : Nat) : Prop := ∀ k < n, fails (first + k) = false

/-- Where all calls succeed, the first one does. -/
theorem Succeed.head {fails : Nat → Bool} {first n : Nat} (h : Succeed fails first (n + 1)) :
    fails first = false := h 0 (Nat.succ_pos n)

/-- The others succeed too. -/
theorem Succeed.tail {fails : Nat → Bool} {first n : Nat} (h : Succeed fails first (n + 1)) :
    Succeed fails (first + 1) n := by
  intro k hk
  rw [Nat.add_assoc, Nat.add_comm 1 k]
  exact h (k + 1) (Nat.succ_lt_succ hk)

/-! ### The loops -/

section Loops
variable {mem : Nat → UInt8} {fails : Nat → Bool}

/-- The calls of `w25qxx_read`. -/
def readOps (sector : UInt32) (n : Nat) : List BspOp :=
  (sectorAddrs sector n).map fun addr => .read addr flashSubsectorSize.toNat

/-- The calls of the loop of `w25qxx_read`: its first round, and then the rounds from the next
sector on. -/
theorem readOps_succ (sector : UInt32) (n : Nat) :
    readOps sector (n + 1) =
      .read (sector * flashSubsectorSize) flashSubsectorSize.toNat :: readOps (sector + 1) n := by
  rw [readOps, sectorAddrs_succ]
  rfl

/-- A read that fails leaves its part of the buffer. -/
theorem answer_bytes (mem : Nat → UInt8) (failed : Bool) (addr : UInt32) (kept : List UInt8)
    {size : Nat} (hsize : 0 < size) :
    (let r : BspStatus × List UInt8 := (BspOp.read addr size).answer mem failed
      if r.2 = [] then kept else r.2) = if failed then kept else stored mem addr size := by
  cases failed with
  | true => rfl
  | false =>
    -- a read that succeeds has bytes, so the test for none of them tells the two apart
    have hne : stored mem addr size ≠ [] := by
      rw [← List.length_pos_iff, stored, List.length_map, List.length_range]
      exact hsize
    exact if_neg hne

/-- One round of `w25qxx_read`. -/
theorem run_readCalls_succ (n : Nat) (buff : List UInt8) (sector : UInt32) (log : List BspOp) :
    (readCalls (n + 1) buff sector).run (driver mem fails) log =
      let rest := (readCalls n (buff.drop flashSubsectorSize.toNat) (sector + 1)).run
        (driver mem fails) (log ++ [.read (sector * flashSubsectorSize) flashSubsectorSize.toNat])
      ((if fails log.length then buff.take flashSubsectorSize.toNat
        else stored mem (sector * flashSubsectorSize) flashSubsectorSize.toNat) ++ rest.1,
        rest.2) := by
  -- a round after the driver call, whatever that returns
  have hround : ∀ (r : BspStatus × List UInt8) (log : List BspOp),
      (readCalls n (buff.drop flashSubsectorSize.toNat) (sector + 1) >>= fun rest =>
        Prog.ret ((if r.2 = [] then buff.take flashSubsectorSize.toNat else r.2) ++ rest)).run
          (driver mem fails) log = _ := fun r log => Prog.run_bind ..
  rw [readCalls, ← answer_bytes mem _ _ _ (by decide)]
  exact hround _ _

/-- The loop of `w25qxx_read` makes its calls whatever they return. -/
theorem readCalls_log (n : Nat) (buff : List UInt8) (sector : UInt32) (log : List BspOp) :
    ((readCalls n buff sector).run (driver mem fails) log).2 = log ++ readOps sector n := by
  induction n generalizing buff sector log with
  | zero => exact (List.append_nil log).symm
  | succ n ih =>
    rw [run_readCalls_succ, readOps_succ]
    exact (ih _ _ _).trans (List.append_cons ..).symm

/-- If no read fails, the buffer holds the content of the flash. -/
theorem readCalls_bytes (n : Nat) (buff : List UInt8) (sector : UInt32) (log : List BspOp)
    (h : Succeed fails log.length n) :
    ((readCalls n buff sector).run (driver mem fails) log).1 = sectorBytes mem sector n := by
  induction n generalizing buff sector log with
  | zero => rfl
  | succ n ih =>
    -- the calls that follow are counted from one more
    have hrest := ih (buff.drop flashSubsectorSize.toNat) (sector + 1)
      (log ++ [.read (sector * flashSubsectorSize) flashSubsectorSize.toNat])
      (by rw [List.length_append]; exact h.tail)
    rw [run_readCalls_succ, h.head, sectorBytes, sectorAddrs_succ, List.flatMap_cons,
      ← sectorBytes, ← hrest]
    rfl

/-- The calls of `w25qxx_write`. -/
def writeOps : List UInt8 → UInt32 → Nat → List BspOp
  | _, _, 0 => []
  | buff, sector, n + 1 =>
    .eraseBlock (sector * flashSubsectorSize) .erase4K ::
      .write (buff.take flashSubsectorSize.toNat) (sector * flashSubsectorSize) ::
        writeOps (buff.drop flashSubsectorSize.toNat) (sector + 1) n

/-- One round of `w25qxx_write`. -/
theorem run_writeCalls_succ {count : UInt32} {i : UInt8} (hi : i.toUInt32 < count) (fuel : Nat)
    (buff : List UInt8) (sector : UInt32) (log : List BspOp) :
    (writeCalls count (fuel + 1) i buff sector).run (driver mem fails) log =
      (writeCalls count fuel (i + 1) (buff.drop flashSubsectorSize.toNat) (sector + 1)).run
        (driver mem fails) (log ++ writeOps buff sector 1) := by
  rw [writeCalls, if_pos hi, writeOps, writeOps, List.append_cons]
  rfl

/-- The loop of `w25qxx_write` compares its counter of 8 bits with a count of 32 bits, as
numbers. -/
theorem counter_lt_iff {i : UInt8} {count : UInt32} :
    i.toUInt32 < count ↔ i.toNat < count.toNat := by
  rw [UInt32.lt_iff_toNat_lt, UInt8.toNat_toUInt32]

/-- The counter before it wraps. -/
theorem counter_succ {i : UInt8} (hi : i.toNat < 255) : (i + 1).toNat = i.toNat + 1 := by
  rw [UInt8.toNat_add, UInt8.toNat_one, Nat.mod_eq_of_lt (by omega)]

/-- With a count that does not fit a byte the loop of `w25qxx_write` does not end. -/
theorem writeCalls_endless {count : UInt32} (hcount : 255 < count.toNat) (fuel : Nat) (i : UInt8)
    (buff : List UInt8) (sector : UInt32) (log : List BspOp) :
    ((writeCalls count fuel i buff sector).run (driver mem fails) log).1 = none := by
  induction fuel generalizing i buff sector log with
  | zero => rfl
  | succ fuel ih =>
    -- no byte reaches the count, so every round is followed by another one
    have hi : i.toNat < count.toNat := by
      have hbyte := i.toNat_lt
      omega
    rw [run_writeCalls_succ (counter_lt_iff.2 hi)]
    exact ih _ _ _ _

/-- With the other counts it makes its calls, two for each sector, whatever they return. -/
theorem writeCalls_log {count : UInt32} (hcount : count.toNat ≤ 255) (n : Nat) {i : UInt8}
    (hi : i.toNat + n = count.toNat) (more : Nat) (buff : List UInt8) (sector : UInt32)
    (log : List BspOp) :
    (writeCalls count (n + 1 + more) i buff sector).run (driver mem fails) log =
      (some (), log ++ writeOps buff sector n) := by
  -- on the sectors that are left
  induction n generalizing i buff sector log with
  | zero =>
    have hend : ¬ i.toUInt32 < count := by
      rw [counter_lt_iff]
      omega
    rw [Nat.zero_add, Nat.add_comm, writeCalls, if_neg hend, writeOps, List.append_nil]
    rfl
  | succ n ih =>
    have hlt : i.toNat < count.toNat := by omega
    have hnext := counter_succ (i := i) (by omega)
    rw [Nat.add_right_comm, run_writeCalls_succ (counter_lt_iff.2 hlt), ih (by omega),
      List.append_assoc]
    rfl

/-- Fewer rounds than it takes. -/
theorem writeCalls_short {count : UInt32} {fuel n : Nat} (hfuel : fuel ≤ n) {i : UInt8}
    (hcount : count.toNat ≤ 255) (hi : i.toNat + n = count.toNat) (buff : List UInt8)
    (sector : UInt32) (log : List BspOp) :
    ((writeCalls count fuel i buff sector).run (driver mem fails) log).1 = none := by
  induction fuel generalizing n i buff sector log with
  | zero => rfl
  | succ fuel ih =>
    have hlt : i.toNat < count.toNat := by omega
    have hnext := counter_succ (i := i) (by omega)
    have hleft : (i + 1).toNat + (n - 1) = count.toNat := by omega
    rw [run_writeCalls_succ (counter_lt_iff.2 hlt)]
    exact ih (Nat.le_sub_one_of_lt hfuel) hleft _ _ _

/-- Every sector takes an erase and a write. -/
theorem length_writeOps (buff : List UInt8) (sector : UInt32) (n : Nat) :
    (writeOps buff sector n).length = 2 * n := by
  induction n generalizing buff sector with
  | zero => rfl
  | succ n ih =>
    rw [writeOps, List.length_cons, List.length_cons, ih]
    omega

/-- The sectors that are erased are those of the range, in order. -/
theorem erasures_writeOps (buff : List UInt8) (sector : UInt32) (n : Nat) :
    erasures (writeOps buff sector n) = sectorAddrs sector n := by
  induction n generalizing buff sector with
  | zero => rfl
  | succ n ih =>
    rw [sectorAddrs_succ, ← ih (buff.drop flashSubsectorSize.toNat)]
    rfl

/-- So are the sectors that are written. -/
theorem writes_writeOps (buff : List UInt8) (sector : UInt32) (n : Nat) :
    writes (writeOps buff sector n) = sectorAddrs sector n := by
  induction n generalizing buff sector with
  | zero => rfl
  | succ n ih =>
    rw [sectorAddrs_succ, ← ih (buff.drop flashSubsectorSize.toNat)]
    rfl

/-- So are those that are read. -/
theorem readings_readOps (sector : UInt32) (n : Nat) :
    readings (readOps sector n) = sectorAddrs sector n := by
  rw [readings, readOps, List.filterMap_map]
  exact List.filterMap_some

/-! ### Whole transfers -/

/-- `w25qxx_write` on the driver, for at most `fuel` rounds: its result and its calls. -/
def runWrite (mem : Nat → UInt8) (fails : Nat → Bool) (fuel : Nat) (buff : List UInt8)
    (sector count : UInt32) : Option DResult × List BspOp :=
  (w25qxxWriteCalls fuel buff sector count).run (driver mem fails) []

/-- `w25qxx_read` on the driver: its result, the buffer and its calls. -/
def runRead (mem : Nat → UInt8) (fails : Nat → Bool) (buff : List UInt8)
    (sector count : UInt32) : (DResult × List UInt8) × List BspOp :=
  (w25qxxReadCalls buff sector count).run (driver mem fails) []

/-- `w25qxx_read` makes the calls of its range and returns `RES_OK`, whatever fails. If nothing
fails, the buffer holds the content of the sectors. By induction on the count. -/
theorem runRead_eq (mem : Nat → UInt8) (fails : Nat → Bool) (buff : List UInt8)
    (sector count : UInt32) :
    ∃ bytes, runRead mem fails buff sector count =
        ((.ok, bytes), readOps sector count.toNat) ∧
      (Succeed fails 0 count.toNat → bytes = sectorBytes mem sector count.toNat) := by
  refine ⟨_, ?_, readCalls_bytes count.toNat buff sector []⟩
  rw [runRead, w25qxxReadCalls, Prog.run_bind, readCalls_log]
  rfl

/-- `w25qxx_write` returns `r` after the calls `log`. -/
def WriteEnds (mem : Nat → UInt8) (fails : Nat → Bool) (buff : List UInt8)
    (sector count : UInt32) (r : DResult) (log : List BspOp) : Prop :=
  ∃ fuel, runWrite mem fails fuel buff sector count = (some r, log)

/-- It returns iff the count fits a byte, and then after two calls for each sector. -/
theorem writeEnds_iff {buff : List UInt8} {sector count : UInt32} {r : DResult}
    {log : List BspOp} :
    WriteEnds mem fails buff sector count r log ↔
      count.toNat ≤ 255 ∧ r = .ok ∧ log = writeOps buff sector count.toNat := by
  have hrun : ∀ fuel, runWrite mem fails fuel buff sector count =
      (((writeCalls count fuel 0 buff sector).run (driver mem fails) []).1.map fun _ => .ok,
        ((writeCalls count fuel 0 buff sector).run (driver mem fails) []).2) := by
    intro fuel
    rw [runWrite, w25qxxWriteCalls, Prog.run_bind]
    rfl
  constructor
  · rintro ⟨fuel, h⟩
    rw [hrun] at h
    -- a wrapping counter and too few rounds both leave the loop going
    rcases Nat.lt_or_ge 255 count.toNat with hbig | hcount
    · rw [writeCalls_endless hbig] at h
      cases h
    rcases Nat.lt_or_ge count.toNat fuel with hlt | hge
    · obtain ⟨more, rfl⟩ := Nat.exists_eq_add_of_le hlt
      rw [writeCalls_log hcount count.toNat (Nat.zero_add _) more] at h
      cases h
      exact ⟨hcount, rfl, rfl⟩
    · rw [writeCalls_short hge hcount (Nat.zero_add _)] at h
      cases h
  · rintro ⟨hcount, rfl, rfl⟩
    refine ⟨count.toNat + 1 + 0, ?_⟩
    rw [hrun, writeCalls_log hcount count.toNat (Nat.zero_add _) 0]
    rfl

/-! ### What `RES_OK` says -/

/-- If `w25qxx_write` returns `RES_OK`, every sector was erased and written, and no driver call
failed. -/
def WriteReports (mem : Nat → UInt8) (fails : Nat → Bool) (buff : List UInt8)
    (sector count : UInt32) : Prop :=
  ∀ log, WriteEnds mem fails buff sector count .ok log →
    erasures log = sectorAddrs sector count.toNat ∧
    writes log = sectorAddrs sector count.toNat ∧ Succeed fails 0 log.length

/-- If `w25qxx_read` returns `RES_OK`, every sector was read, no driver call failed, and the
buffer holds the content of the flash. -/
def ReadReports (mem : Nat → UInt8) (fails : Nat → Bool) (buff : List UInt8)
    (sector count : UInt32) : Prop :=
  ∀ bytes log, runRead mem fails buff sector count = ((.ok, bytes), log) →
    readings log = sectorAddrs sector count.toNat ∧ Succeed fails 0 log.length ∧
      bytes = sectorBytes mem sector count.toNat

/-- The result of `w25qxx_write` can be trusted iff no call of it fails, or the counter wraps and it
never returns. -/
theorem writeReports_iff (buff : List UInt8) (sector count : UInt32) :
    WriteReports mem fails buff sector count ↔
      255 < count.toNat ∨ Succeed fails 0 (2 * count.toNat) := by
  constructor
  · intro h
    rcases Nat.lt_or_ge 255 count.toNat with hbig | hcount
    · exact Or.inl hbig
    · have hgood := (h _ (writeEnds_iff.2 ⟨hcount, rfl, rfl⟩)).2.2
      rw [length_writeOps] at hgood
      exact Or.inr hgood
  · intro h log hends
    obtain ⟨hcount, -, rfl⟩ := writeEnds_iff.1 hends
    refine ⟨erasures_writeOps .., writes_writeOps .., ?_⟩
    rw [length_writeOps]
    exact h.resolve_left (Nat.not_lt.2 hcount)

/-- The result of `w25qxx_read` can be trusted iff no call of it fails. It is `RES_OK` whatever they
return. By the first one that fails. -/
theorem readReports_iff (buff : List UInt8) (sector count : UInt32) :
    ReadReports mem fails buff sector count ↔ Succeed fails 0 count.toNat := by
  obtain ⟨bytes, hrun, hbytes⟩ := runRead_eq mem fails buff sector count
  -- one call for each sector
  have hlen : (readOps sector count.toNat).length = count.toNat := by
    rw [readOps, List.length_map, length_sectorAddrs]
  constructor
  · intro h
    have hgood := (h _ _ hrun).2.1
    rw [hlen] at hgood
    exact hgood
  · intro h bytes' log hrun'
    rw [hrun] at hrun'
    cases hrun'
    exact ⟨readings_readOps .., by rw [hlen]; exact h, hbytes h⟩

end Loops

/-- Both functions ignore what the driver returns. So `w25qxx_write` is right iff no driver call
fails, or it never returns, and `w25qxx_read` iff no driver call fails. -/
theorem sector_reports_iff (mem : Nat → UInt8) (fails : Nat → Bool) (buff : List UInt8)
    (sector count : UInt32) :
    (WriteReports mem fails buff sector count ↔
      255 < count.toNat ∨ ∀ k < 2 * count.toNat, fails k = false) ∧
    (ReadReports mem fails buff sector count ↔ ∀ k < count.toNat, fails k = false) := by
  have hzero : ∀ n, Succeed fails 0 n ↔ ∀ k < n, fails k = false := by
    intro n
    simp only [Succeed, Nat.zero_add]
  constructor
  · rw [writeReports_iff, hzero]
  · rw [readReports_iff, hzero]

/-- The erase of the only sector fails, and `w25qxx_write` returns `RES_OK`. -/
theorem sector_failure_lost :
    ¬ WriteReports (fun _ => 0xFF) (fun k => k = 0) (List.replicate 4096 0) 5 1 := by
  intro h
  -- the loop ends and returns `RES_OK` although its first call fails
  have hgood := (h _ (writeEnds_iff.2 ⟨by decide, rfl, rfl⟩)).2.2
  rw [length_writeOps] at hgood
  exact absurd (hgood 0 (by decide)) (by decide)

/-! ### The sectors of a transfer -/

/-- `w25qxx_write` returns, after it has erased and written the sectors of the range once each
and in order, and `w25qxx_read` reads the same sectors. -/
def VisitsRange (mem : Nat → UInt8) (fails : Nat → Bool) (buff : List UInt8)
    (sector count : UInt32) : Prop :=
  (∃ r log, WriteEnds mem fails buff sector count r log ∧
    erasures log = sectorAddrs sector count.toNat ∧
    writes log = sectorAddrs sector count.toNat) ∧
  readings (runRead mem fails buff sector count).2 = sectorAddrs sector count.toNat

/-- The `BYTE` of `w25qxx_write` wraps before it reaches a count from 256 on. Below that the loop
visits each sector of the range once, in order. A loop that has wrapped begins again with the first
sector and never ends, while the read loop has a counter of the width of its parameter. -/
theorem sector_visits_iff (mem : Nat → UInt8) (fails : Nat → Bool) (buff : List UInt8)
    (sector count : UInt32) :
    VisitsRange mem fails buff sector count ↔ count.toNat ≤ 255 := by
  constructor
  · rintro ⟨⟨r, log, hends, -⟩, -⟩
    exact (writeEnds_iff.1 hends).1
  · intro hcount
    obtain ⟨bytes, hrun, -⟩ := runRead_eq mem fails buff sector count
    have hends : WriteEnds mem fails buff sector count .ok
        (writeOps buff sector count.toNat) := writeEnds_iff.2 ⟨hcount, rfl, rfl⟩
    refine ⟨⟨_, _, hends, erasures_writeOps .., writes_writeOps ..⟩, ?_⟩
    rw [hrun]
    exact readings_readOps ..

/-- A write of 256 sectors does not end. -/
theorem sector_counter_wraps :
    ¬ VisitsRange (fun _ => 0xFF) (fun _ => false) (List.replicate (256 * 4096) 0) 0 256 := by
  rintro ⟨⟨r, log, hends, -⟩, -⟩
  exact absurd (writeEnds_iff.1 hends).1 (by decide)

end NucleoH743.Diskio
