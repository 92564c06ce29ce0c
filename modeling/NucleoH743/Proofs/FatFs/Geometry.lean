import NucleoH743.Proofs.FatFs.Partitions

/-!
# `Proofs.FatFs.Geometry`: what FatFs learns of the drive

`w25qxx_ioctl` stores 16 bits of the number of sectors and of the block size, and its callers pass
variables of 32 bits. What such a variable held in its high half stays there. `f_mkfs` clears its
own variables before it asks, `create_partition` does not.

The theorems answer two questions. The first is about a single answer: the caller's variable is
right if its upper half was zero before. The second is what follows from a wrong answer, and the
only caller with a variable that is not cleared is `create_partition`. There the wrong count matters
for partitions that are given in percent or that are cut at the end of the drive, and for the
cylinders in the MBR.

`f_mkfs` asks for one partition that fits the chip, so its calls keep the sizes whatever the stack
held.

- `storeLow_toNat`: what the variable holds afterwards.
- `mbr_singlePartition`: the MBR of a formatted drive depends on the answer in the cylinders alone.
- `mbr_kept_iff`: it is that of the drive iff the variable of `create_partition` held less than
  `2 ^ 19`.
- `keeps_formatting`: `f_mkfs` asks for one partition of 4033 sectors, which fits the chip.
- `geometry_right_iff`: when the answers are right, and for which lists the partition sizes are.
-/

set_option autoImplicit false

namespace NucleoH743.Mkfs

open Diskio

/-! ### The answer -/

/-- The high half of a number. -/
theorem and_high (x : Nat) (hx : x < 2 ^ 32) : x &&& 0xFFFF0000 = 2 ^ 16 * (x / 2 ^ 16) := by
  have hmask : 0xFFFF0000 = (2 ^ 16 - 1) * 2 ^ 16 := rfl
  refine Nat.eq_of_testBit_eq fun i => ?_
  rw [Nat.testBit_and, hmask, Nat.testBit_mul_two_pow, Nat.testBit_two_pow_sub_one, Nat.mul_comm,
    Nat.testBit_mul_two_pow, Nat.testBit_div_two_pow]
  by_cases hi : 16 ≤ i
  · rw [Nat.sub_add_cancel hi]
    by_cases hlt : i < 32
    · have hin : i - 16 < 16 := by omega
      simp [hi, hin]
    · have hpow : 2 ^ 32 ≤ 2 ^ i := Nat.pow_le_pow_right (by decide) (by omega)
      rw [Nat.testBit_lt_two_pow (Nat.lt_of_lt_of_le hx hpow), Bool.false_and, Bool.and_false]
  · simp [hi]

/-- A store of 16 bits leaves the high half. -/
theorem storeLow_toNat (buff value : UInt32) (h : value.toNat < 2 ^ 16) :
    (storeLow buff value).toNat = 2 ^ 16 * (buff.toNat / 2 ^ 16) + value.toNat := by
  rw [storeLow, UInt32.toNat_or, UInt32.toNat_and, Nat.two_pow_add_eq_or_of_lt h]
  exact congrArg (· ||| value.toNat) (and_high _ buff.toNat_lt)

/-- The stored value is there iff the high half was 0. -/
theorem storeLow_eq_iff (buff value : UInt32) (h : value.toNat < 2 ^ 16) :
    storeLow buff value = value ↔ buff.toNat < 2 ^ 16 := by
  rw [← UInt32.toNat_inj, storeLow_toNat buff value h]
  omega

/-- The questions about the geometry that FatFs asks. -/
inductive Query where
  | sectorCount | blockSize
  deriving DecidableEq, Repr

namespace Query

def cmd : Query → UInt8
  | sectorCount => getSectorCount
  | blockSize => getBlockSize

/-- The answer for the chip: 4096 sectors of 4 KB, erased one by one. -/
def answer : Query → UInt32
  | sectorCount => 4096
  | blockSize => 1

/-- When the variable of the caller holds `prior` before, and `disk_ioctl` returns `RES_OK`, the
variable holds the answer. -/
def Right (q : Query) (prior : UInt32) : Prop :=
  (diskIoctl q.cmd prior).1 = .ok → (diskIoctl q.cmd prior).2 = q.answer

instance (q : Query) (prior : UInt32) : Decidable (q.Right prior) :=
  inferInstanceAs (Decidable (_ → _))

end Query

/-- `disk_ioctl` answers a question by a store of 16 bits to the variable of the caller. -/
theorem diskIoctl_query (q : Query) (prior : UInt32) :
    diskIoctl q.cmd prior = (.ok, storeLow prior q.answer) := by
  cases q with
  | sectorCount => rfl
  | blockSize => rfl

/-- So the variable holds the answer iff its upper half was zero before. -/
theorem right_iff (q : Query) (prior : UInt32) : q.Right prior ↔ prior.toNat < 2 ^ 16 := by
  have hlow : q.answer.toNat < 2 ^ 16 := by cases q <;> decide
  rw [Query.Right, diskIoctl_query, ← storeLow_eq_iff prior _ hlow]
  exact imp_iff_right rfl

/-- What `create_partition` takes for the number of sectors. -/
def countFound (stack : UInt32) : UInt32 := (diskIoctl getSectorCount stack).2

/-- The number of sectors that `create_partition` finds has the upper half of what the stack
held. -/
theorem countFound_toNat (stack : UInt32) :
    (countFound stack).toNat = 2 ^ 16 * (stack.toNat / 2 ^ 16) + 4096 :=
  storeLow_toNat stack 4096 (by decide)

/-! ### The partition sizes -/

/-- The sizes in the table that `create_partition` makes for the list are those for the chip, when
the stack holds `stack`. -/
def SizesKept (plst : PartList) (stack : UInt32) : Prop :=
  ∀ sys buf, ∀ i < 4,
    (entryAt (mbr (countFound stack) plst sys buf) i).2 = (entryAt (mbr 4096 plst sys buf) i).2

/-- The partition sizes are those for the chip iff the upper half was zero, or the list asks for
numbers of sectors that fit the chip. A size in percent, and one that is cut at the end of the chip,
take the count. -/
theorem sizesKept_iff (plst : PartList) (stack : UInt32) :
    SizesKept plst stack ↔ stack.toNat < 2 ^ 16 ∨ SizesFit 4096 plst := by
  have hsizes : SizesKept plst stack ↔
      partitionSizes (countFound stack).toNat plst = partitionSizes 4096 plst := by
    constructor
    · intro h
      exact (entry_sizes_iff 4096 (countFound stack) plst 0 fun _ => 0).1 (h _ _)
    · intro h sys buf
      exact (entry_sizes_iff 4096 (countFound stack) plst sys buf).2 h
  rw [hsizes, countFound_toNat]
  by_cases hlow : stack.toNat < 2 ^ 16
  · have hcount : 2 ^ 16 * (stack.toNat / 2 ^ 16) + 4096 = 4096 := by omega
    rw [hcount]
    exact ⟨fun _ => .inl hlow, fun _ => rfl⟩
  · rw [sizes_eq_iff (by omega) (by decide), or_iff_right hlow]

/-! ### Formatting -/

/-- `f_mkfs` when the driver answers `disk_ioctl`. -/
def driverIoctl : (o : MkfsOp) → MkfsProg o.Res
  | .disk (.ioctl cmd buff) => (return diskIoctl cmd buff : MkfsProg (DResult × UInt32))
  | o => Prog.call o

/-- The calls of a formatting. -/
def formatting (c : MkfsCall) : MkfsProg MkfsResult := (mkfsCalls c).interp driverIoctl

/-- The sizes are kept if the call is one of `create_partition`. -/
def CallKept (stack : UInt32) : MkfsOp → Prop
  | .disk _ => True
  | .createPartition plst _ _ => SizesKept plst stack

/-- Every call that the program makes keeps the sizes. -/
abbrev Keeps {α : Type} (stack : UInt32) (p : MkfsProg α) : Prop :=
  p.Wp (fun _ : Unit => CallKept stack) (fun _ _ _ => ()) (fun _ _ => True) ()

/-- `f_mkfs` asks for one partition of 4033 sectors, which does not depend on it. -/
theorem sizesKept_singlePartition (stack : UInt32) :
    SizesKept (singlePartition 4033) stack := by
  refine (sizesKept_iff _ _).2 (.inr ?_)
  show FitsFrom 4096 63 [4033, 0]
  rw [fitsFrom_cons (by decide), fitsFrom_zero_cons]
  decide

section Calls
variable {α β : Type} {stack : UInt32}

/-- Two parts whose calls keep the sizes make one whose calls do. -/
theorem keeps_bind {p : MkfsProg α} {f : α → MkfsProg β} (hp : Keeps stack (p.interp driverIoctl))
    (hf : ∀ a, Keeps stack ((f a).interp driverIoctl)) :
    Keeps stack ((p >>= f).interp driverIoctl) := by
  rw [Prog.interp_bind]
  exact Prog.wp_bind (Prog.wp_mono (fun a _ _ => hf a) hp)

/-- The disk functions make no partitions. -/
theorem keeps_onDisk (p : DiskProg α) : Keeps stack ((onDisk p).interp driverIoctl) := by
  induction p with
  | ret a => trivial
  | op d k ih =>
    cases d with
    | init => exact ⟨trivial, ih⟩
    | status => exact ⟨trivial, ih⟩
    | read buff sector count => exact ⟨trivial, ih⟩
    | write buff sector count => exact ⟨trivial, ih⟩
    | ioctl cmd buff => exact ih (diskIoctl cmd buff)

/-- The variable of `f_mkfs` is cleared, so the volume has the sectors of the chip. -/
theorem locateVolume_interp (fsopt : UInt8) :
    (onDisk (locateVolume fsopt)).interp driverIoctl =
      Prog.ret (some (if fsopt &&& fmSfd = 0 then (63, 4033) else (0, 4096))) := by
  by_cases hsfd : fsopt &&& fmSfd = 0
  · rw [if_pos hsfd]
    show Prog.interp driverIoctl (onDisk (if fsopt &&& fmSfd = 0 ∧ (63 : UInt32) < 4096 then _
      else _)) = _
    rw [if_pos ⟨hsfd, by decide⟩]
    rfl
  · rw [if_neg hsfd]
    show Prog.interp driverIoctl (onDisk (if fsopt &&& fmSfd = 0 ∧ (63 : UInt32) < 4096 then _
      else _)) = _
    rw [if_neg fun h => hsfd h.1]
    rfl

/-- The end of `f_mkfs` calls `create_partition` for its one partition only. That one has the size
of the volume, which is the number of sectors that the driver has. -/
theorem keeps_finish {m : MkfsSetup} (hm : m.fsopt &&& fmSfd = 0 → m.szVol = 4033) (l : Layout)
    (buf : Buf) : Keeps stack ((finish m l buf).interp driverIoctl) := by
  have hrest : ∀ fr : MkfsResult, Keeps stack
      ((if fr ≠ .ok then Prog.ret fr
        else onDisk (ioctl ctrlSync 0) >>= fun r =>
          if r.1 ≠ .ok then Prog.ret .diskErr else Prog.ret .ok : MkfsProg MkfsResult).interp
            driverIoctl) := by
    intro fr
    split
    · trivial
    · refine keeps_bind (keeps_onDisk _) fun r => ?_
      split <;> trivial
  unfold finish
  by_cases hsfd : m.fsopt &&& fmSfd = 0
  · rw [if_pos hsfd, hm hsfd]
    exact ⟨sizesKept_singlePartition stack, hrest⟩
  · rw [if_neg hsfd]
    exact hrest .ok

/-- What is written in front of it are sectors. -/
theorem keeps_makeVolume {m : MkfsSetup} (hm : m.fsopt &&& fmSfd = 0 → m.szVol = 4033)
    (szAu : UInt32) (szBuf : { n : UInt32 // n ≠ 0 }) (work : Buf) :
    Keeps stack ((makeVolume m szAu szBuf work).interp driverIoctl) := by
  unfold makeVolume
  cases configure m szAu with
  | error res => trivial
  | ok l =>
    refine keeps_bind (keeps_onDisk _) fun r => ?_
    cases r with
    | none => trivial
    | some buf => exact keeps_finish hm l buf

/-- So `f_mkfs` on the drive keeps the sizes, from its first question on. Every question to the
driver stores 16 bits over what the variable held, and the sizes are computed from there. -/
theorem keeps_mkfsDrive (c : MkfsCall) : Keeps stack ((mkfsDrive c).interp driverIoctl) := by
  unfold mkfsDrive
  refine keeps_bind ⟨trivial, fun _ => trivial⟩ fun ds => ?_
  split
  · trivial
  split
  · trivial
  refine keeps_bind (keeps_onDisk _) fun szBlk => ?_
  cases c.work with
  | none => trivial
  | some work =>
    dsimp only
    split
    · rw [Prog.interp_bind, locateVolume_interp, Prog.ret_bind]
      by_cases hsfd : (c.opt.getD defopt).fmt &&& (fmAny ||| fmSfd) &&& fmSfd = 0
      · rw [if_pos hsfd]
        exact keeps_makeVolume (fun _ => rfl) _ _ work
      · -- without a partition table
        rw [if_neg hsfd]
        exact keeps_makeVolume (fun h => absurd h hsfd) _ _ work
    · trivial

/-- Every call of `create_partition` in a formatting. -/
theorem keeps_formatting (c : MkfsCall) (stack : UInt32) : Keeps stack (formatting c) := by
  unfold formatting mkfsCalls
  cases getLdnumber c.path with
  | none => trivial
  | some vol => exact keeps_mkfsDrive c

end Calls

section Layers
variable (fuel : Nat) (idCode : Nat → UInt8) (stack : UInt32)

/-- What `create_partition` does above the driver: it writes the MBR for the number of sectors
that it has found. -/
theorem createPartition_interp (plst : PartList) (sys : UInt8) (buf : Buf) :
    (createPartition stack plst sys buf).interp (diskFn fuel idCode) =
      (diskWrite (mbr (countFound stack) plst sys buf) 0 1 >>= fun res =>
        if res ≠ .ok then Prog.ret .diskErr else Prog.ret .ok).interp (diskFn fuel idCode) := rfl

/-- `f_mkfs` above the driver makes the calls of the formatting. So what is proved of the calls
holds of `f_mkfs` on the disk functions. -/
theorem fMkfs_interp (c : MkfsCall) :
    (fMkfs stack c).interp (diskFn fuel idCode) =
      (formatting c).interp fun o => (o.body stack).interp (diskFn fuel idCode) := by
  rw [fMkfs, formatting, Prog.interp_interp, Prog.interp_interp]
  congr 1
  funext o
  cases o with
  | createPartition plst sys buf => exact (Prog.bind_ret _).symm
  | disk d =>
    cases d with
    | ioctl cmd buff => rfl
    | init => exact (Prog.bind_ret _).symm
    | status => exact (Prog.bind_ret _).symm
    | read buff sector count => exact (Prog.bind_ret _).symm
    | write buff sector count => exact (Prog.bind_ret _).symm

end Layers

/-! ### The MBR -/

/-- The loop puts the one entry, also in a drive that looks larger. The list asks for a number of
sectors that the drive has, so the size of the drive does not come in. -/
theorem partLoop_singlePartition {szDrv32 : UInt32} (h : 4096 ≤ szDrv32.toNat) (sys nHd : UInt8)
    (buf : Buf) :
    partLoop szDrv32 sys nHd ((singlePartition 4033).sizes.take 4) nSecTrack mbrTable buf =
      putEntry sys nHd mbrTable nSecTrack 4033 buf := by
  have hfirst : nSecTrack < szDrv32 := UInt32.lt_iff_toNat_lt.2 (by
    show 63 < szDrv32.toNat
    omega)
  have hsize : clipAtDrive szDrv32 nSecTrack 4033 = 4033 := by
    refine UInt32.toNat_inj.1 ((clipAtDrive_toNat szDrv32 hfirst 4033).trans ?_)
    show min 4033 (szDrv32.toNat - 63) = 4033
    omega
  show partLoop szDrv32 sys nHd [4033, 0] nSecTrack mbrTable buf = _
  rw [partLoop, if_pos ⟨by decide, hfirst⟩, hsize]
  dsimp only
  rw [if_neg (by decide), partLoop]
  by_cases hlt : nSecTrack + 4033 < szDrv32
  · have hzero : clipAtDrive szDrv32 (nSecTrack + 4033) 0 = 0 := by
      refine UInt32.toNat_inj.1 ((clipAtDrive_toNat szDrv32 hlt 0).trans ?_)
      show min (szDrv32.toNat / 100 * 0) _ = 0
      omega
    rw [if_pos ⟨by decide, hlt⟩, hzero]
    rfl
  · rw [if_neg fun hand => hlt hand.2]

/-- The MBR of a formatted drive depends on the number of heads alone. -/
theorem mbr_singlePartition {szDrv32 : UInt32} (h : 4096 ≤ szDrv32.toNat) (sys : UInt8)
    (buf : Buf) :
    mbr szDrv32 (singlePartition 4033) sys buf =
      stWord bs55AA 0xAA55
        (putEntry sys (heads szDrv32) mbrTable nSecTrack 4033 (memClear ss buf)) := by
  unfold mbr
  dsimp only
  rw [partLoop_singlePartition h]

/-- There are eight heads up to 1024 cylinders, and more of them for a larger drive. The loop
doubles the number until the cylinders fit, and gives 255 where a byte does not hold it any more. -/
theorem heads_cases (szDrv32 : UInt32) :
    (szDrv32.toNat / 8 / 63 ≤ 1024 ∧ heads szDrv32 = 8) ∨
      (1024 < szDrv32.toNat / 8 / 63 ∧
        (heads szDrv32 = 16 ∨ heads szDrv32 = 32 ∨ heads szDrv32 = 64 ∨ heads szDrv32 = 128 ∨
          heads szDrv32 = 255)) := by
  have hcyl : 1024 < szDrv32 / (8 : UInt8).toUInt32 / nSecTrack ↔
      1024 < szDrv32.toNat / 8 / 63 := by
    rw [UInt32.lt_iff_toNat_lt, UInt32.toNat_div, UInt32.toNat_div]
    rfl
  by_cases hlt : 1024 < szDrv32 / (8 : UInt8).toUInt32 / nSecTrack
  · refine .inr ⟨hcyl.1 hlt, ?_⟩
    have hround : headLoop szDrv32 5 8 = headLoop szDrv32 4 16 := if_pos ⟨by decide, hlt⟩
    -- from 128 the byte wraps to 0
    have hends : headLoop szDrv32 4 16 = 16 ∨ headLoop szDrv32 4 16 = 32 ∨
        headLoop szDrv32 4 16 = 64 ∨ headLoop szDrv32 4 16 = 128 ∨ headLoop szDrv32 4 16 = 0 := by
      simp only [headLoop]
      split_ifs <;> decide
    unfold heads
    rw [hround]
    rcases hends with hn | hn | hn | hn | hn <;> rw [hn] <;> decide
  · refine .inl ⟨Nat.le_of_not_lt (mt hcyl.2 hlt), ?_⟩
    have hround : headLoop szDrv32 5 8 = 8 := if_neg fun hand => hlt hand.2
    unfold heads
    rw [hround]
    rfl

/-- A store of a word leaves the bytes in front of it alone. -/
theorem stWord_of_lt {ptr a : Nat} (h : a < ptr) (val : UInt16) (buf : Buf) :
    stWord ptr val buf a = buf a :=
  Blocks.combine_of_outside (fun _ b => b) buf ptr (.inl h)

/-- A byte that was copied stands at its place. -/
theorem memCpy_of_lt (ptr : Nat) {src : List UInt8} {i : Nat} (h : i < src.length) (buf : Buf) :
    memCpy ptr src buf (ptr + i) = src[i] :=
  Blocks.combine_of_mem (fun _ b => b) buf ptr h

/-- The end cylinder in the entry, at offset 453 of the MBR. -/
theorem mbr_endCylinder {szDrv32 : UInt32} (h : 4096 ≤ szDrv32.toNat) (sys : UInt8) (buf : Buf) :
    mbr szDrv32 (singlePartition 4033) sys buf 453 =
      ((65 : UInt32) / (heads szDrv32).toUInt32).toUInt8 := by
  have hin : 2 < (chs (heads szDrv32) 4095).length := by
    rw [length_chs]
    decide
  rw [mbr_singlePartition h]
  -- the signature lies behind it
  have hsign : 453 < bs55AA := by decide
  rw [stWord_of_lt hsign, putEntry]
  exact memCpy_of_lt (mbrTable + pteEdHead) hin _

/-- The sector that is written as MBR is that of the drive iff the variable of `create_partition`
held less than `2 ^ 19`: then there are eight heads as well. -/
theorem mbr_kept_iff (sys : UInt8) (buf : Buf) (stack : UInt32) :
    sectors 1 (mbr (countFound stack) (singlePartition 4033) sys buf) =
        sectors 1 (mbr 4096 (singlePartition 4033) sys buf) ↔
      stack.toNat < 2 ^ 19 := by
  have hcount := countFound_toNat stack
  have hbig : 4096 ≤ (countFound stack).toNat := by omega
  have hdrv : 4096 ≤ (4096 : UInt32).toNat := Nat.le_refl _
  constructor
  · intro heq
    have hcell := congrArg (·[453]?) heq
    have hbyte : mbr (countFound stack) (singlePartition 4033) sys buf 453 =
        mbr 4096 (singlePartition 4033) sys buf 453 := by
      simpa [sectors, Blocks.slice, ss] using hcell
    rw [mbr_endCylinder hbig, mbr_endCylinder hdrv] at hbyte
    rcases heads_cases (countFound stack) with ⟨hle, -⟩ | ⟨-, hheads⟩
    · omega
    · -- with another number of heads the cylinder is another one
      rcases hheads with hh | hh | hh | hh | hh <;> rw [hh] at hbyte <;>
        exact absurd hbyte (by decide)
  · intro hlt
    have hheads : heads (countFound stack) = heads 4096 := by
      rcases heads_cases (countFound stack) with ⟨-, height⟩ | ⟨hgt, -⟩
      · rw [height]
        rfl
      · omega
    rw [mbr_singlePartition hbig, mbr_singlePartition hdrv, hheads]

/-! ### When the answers are right -/

/-- An answer about the geometry is right iff the variable of the caller held less than `2 ^ 16`.
`create_partition` makes the partition sizes of the chip iff its variable did, or the list fits
the chip, as the list of every formatting does. -/
theorem geometry_right_iff (q : Query) (plst : PartList) (c : MkfsCall) (prior : UInt32) :
    (q.Right prior ↔ prior.toNat < 2 ^ 16) ∧
      (SizesKept plst prior ↔ prior.toNat < 2 ^ 16 ∨ SizesFit 4096 plst) ∧
      Keeps prior (formatting c) := by
  refine ⟨?_, ?_, ?_⟩
  · exact right_iff q prior
  · exact sizesKept_iff plst prior
  · exact keeps_formatting c prior

/-- The variable keeps the high half that it had. -/
theorem geometry_high_half :
    ¬ Query.sectorCount.Right 0x00010000 ∧ ¬ Query.blockSize.Right 0x00010000 ∧
      diskIoctl getSectorCount 0x00010000 = (.ok, 69632) := by
  decide

end NucleoH743.Mkfs
