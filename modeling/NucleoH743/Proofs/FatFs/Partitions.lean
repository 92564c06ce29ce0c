import Mathlib.Data.List.TakeWhile
import NucleoH743.FatFs.Mkfs
import NucleoH743.Lib.Extents

/-!
# `Proofs.FatFs.Partitions`: the partition table that `create_partition` writes

The loop of `create_partition` places the partitions one behind the other from sector 63 on, each
clipped at the end of the drive. Its arithmetic has 32 bits and does not overflow.

The sizes are computed by a product and a quotient of 32 bits, and clipped by a comparison of a sum.
The sum can wrap for a list that asks for more than the drive has, and the comparison finds this
case, as the code tests it from both sides. Once the numbers are known to be those of the natural
numbers, the loop is `Extents.place`, and what is said of the table is said of the extents.

For a drive that looks larger, the extents are compared one by one: as long as they are equal the
next ones begin at the same place.

- `clipAtDrive_toNat`: the size of a partition.
- `mbr_entryAt`: the entries of the table are the extents that `Extents.place` gives.
- `partitions_in_drive`, `partitions_disjoint`: so they lie in the drive and do not overlap.
- `sizes_eq_iff`: a drive that looks larger than it is gets the same sizes iff the list asks for
  sectors, and for no more than the drive has.
-/

set_option autoImplicit false

namespace NucleoH743.Mkfs

open Extents (place)

/-! ### The size of a partition -/

/-- The number of sectors that an entry of the list asks for. -/
def asked (szDrv size : Nat) : Nat :=
  if size ≤ 100 then if size = 100 then szDrv else szDrv / 100 * size else size

section Size
variable (szDrv32 : UInt32)

/-- The size of a partition as the code computes it: up to 100 it is a percentage of the drive. -/
theorem sizeInSectors_toNat (size : UInt32) :
    (sizeInSectors szDrv32 size).toNat = asked szDrv32.toNat size.toNat := by
  have hsmall : size ≤ 100 ↔ size.toNat ≤ 100 := UInt32.le_iff_toNat_le
  have hall : size = 100 ↔ size.toNat = 100 := UInt32.toNat_inj.symm
  unfold sizeInSectors asked
  by_cases hle : size ≤ 100
  · rw [if_pos hle, if_pos (hsmall.1 hle)]
    by_cases heq : size = 100
    · rw [if_pos heq, if_pos (hall.1 heq)]
    · rw [if_neg heq, if_neg (mt hall.2 heq)]
      -- a percentage is less than the drive
      have hlt := szDrv32.toNat_lt
      have hmul : szDrv32.toNat / 100 * size.toNat ≤ szDrv32.toNat / 100 * 100 :=
        Nat.mul_le_mul_left _ (hsmall.1 hle)
      have hdiv : szDrv32.toNat / 100 * 100 ≤ szDrv32.toNat := Nat.div_mul_le_self _ _
      rw [UInt32.toNat_mul, UInt32.toNat_div]
      exact Nat.mod_eq_of_lt (by show szDrv32.toNat / 100 * size.toNat < 2 ^ 32; omega)
  · rw [if_neg hle, if_neg (mt hsmall.2 hle)]

/-- The test of the source finds a partition that leaves the drive, also when the sum wraps. -/
theorem clipAtDrive_toNat {sLba32 : UInt32} (h : sLba32 < szDrv32) (size : UInt32) :
    (clipAtDrive szDrv32 sLba32 size).toNat =
      min (asked szDrv32.toNat size.toNat) (szDrv32.toNat - sLba32.toNat) := by
  rw [← sizeInSectors_toNat]
  have hlt := UInt32.lt_iff_toNat_lt.1 h
  have hdrv := szDrv32.toNat_lt
  have hsize := (sizeInSectors szDrv32 size).toNat_lt
  unfold clipAtDrive
  simp only [UInt32.lt_iff_toNat_lt, UInt32.toNat_add]
  split_ifs with hclip
  · rw [UInt32.toNat_sub_of_le _ _ (UInt32.le_of_lt h)]
    omega
  · omega

end Size

/-! ### The table -/

/-- Start and size in the entry `i` of the table. -/
def entryAt (buf : Buf) (i : Nat) : Nat × Nat :=
  (LittleEndian.load 4 buf (mbrTable + szPte * i + pteStLba),
    LittleEndian.load 4 buf (mbrTable + szPte * i + pteSizLba))

/-- A store that does not touch the entry. -/
theorem entryAt_of_disjoint {buf : Buf} {ptr i : Nat} {data : List UInt8}
    (h : ptr + data.length ≤ mbrTable + szPte * i + 8 ∨ mbrTable + szPte * i + 16 ≤ ptr) :
    entryAt (Blocks.store buf ptr data) i = entryAt buf i := by
  unfold entryAt pteStLba pteSizLba
  rw [LittleEndian.load_of_disjoint _ (by omega), LittleEndian.load_of_disjoint _ (by omega)]

/-- A place on the drive, as cylinder, head and sector, takes three bytes. -/
@[simp] theorem length_chs (nHd : UInt8) (lba : UInt32) : (chs nHd lba).length = 3 := rfl

/-- The entry that has been put. -/
theorem entryAt_putEntry (sys nHd : UInt8) (i : Nat) (sLba32 nLba32 : UInt32) (buf : Buf) :
    entryAt (putEntry sys nHd (mbrTable + szPte * i) sLba32 nLba32 buf) i =
      (sLba32.toNat, nLba32.toNat) := by
  have hs := sLba32.toNat_lt
  have hn := nLba32.toNat_lt
  unfold putEntry memCpy
  rw [entryAt_of_disjoint (by rw [length_chs, pteEdHead]; omega),
    entryAt_of_disjoint (by rw [length_chs, pteStHead]; omega),
    entryAt_of_disjoint (by rw [List.length_singleton, pteSystem]; omega)]
  unfold entryAt stDword
  rw [LittleEndian.load_store, LittleEndian.load_of_disjoint _
      (by rw [LittleEndian.length_bytes, pteStLba, pteSizLba]; omega), LittleEndian.load_store]
  exact Prod.ext (Nat.mod_eq_of_lt hs) (Nat.mod_eq_of_lt hn)

/-- The other entries. -/
theorem entryAt_putEntry_of_ne (sys nHd : UInt8) {i j : Nat} (hij : j ≠ i)
    (sLba32 nLba32 : UInt32) (buf : Buf) :
    entryAt (putEntry sys nHd (mbrTable + szPte * i) sLba32 nLba32 buf) j = entryAt buf j := by
  have hdisj : szPte * j + 16 ≤ szPte * i ∨ szPte * i + 16 ≤ szPte * j := by
    unfold szPte
    omega
  unfold putEntry memCpy stDword
  rw [entryAt_of_disjoint (by rw [length_chs, pteEdHead]; omega),
    entryAt_of_disjoint (by rw [length_chs, pteStHead]; omega),
    entryAt_of_disjoint (by rw [List.length_singleton, pteSystem]; omega),
    entryAt_of_disjoint (by rw [LittleEndian.length_bytes, pteSizLba]; omega),
    entryAt_of_disjoint (by rw [LittleEndian.length_bytes, pteStLba]; omega)]

/-- What the entries of a list ask for. -/
def requests (szDrv : Nat) (plst : List UInt32) : List Nat :=
  plst.map fun size => asked szDrv size.toNat

section Step
variable {szDrv32 sLba32 size : UInt32} (hlt : sLba32 < szDrv32)
include hlt

/-- The end of a partition does not wrap. -/
theorem toNat_partition_end :
    (sLba32 + clipAtDrive szDrv32 sLba32 size).toNat =
      sLba32.toNat + (clipAtDrive szDrv32 sLba32 size).toNat := by
  have hroom := UInt32.lt_iff_toNat_lt.1 hlt
  have hdrv := szDrv32.toNat_lt
  have hclip := clipAtDrive_toNat szDrv32 hlt size
  rw [UInt32.toNat_add]
  omega

/-- No sector to allocate. -/
theorem place_requests_none (hzero : clipAtDrive szDrv32 sLba32 size = 0) (plst : List UInt32) :
    place szDrv32.toNat sLba32.toNat (requests szDrv32.toNat (size :: plst)) = [] := by
  have hroom := UInt32.lt_iff_toNat_lt.1 hlt
  have hclip : 0 = min _ _ := hzero ▸ clipAtDrive_toNat szDrv32 hlt size
  have hasked : asked szDrv32.toNat size.toNat = 0 := by omega
  show place _ _ (asked szDrv32.toNat size.toNat :: requests szDrv32.toNat plst) = []
  rw [hasked, Extents.place_zero_cons]

/-- One partition, and those behind it. -/
theorem place_requests_cons (hne : clipAtDrive szDrv32 sLba32 size ≠ 0) (plst : List UInt32) :
    place szDrv32.toNat sLba32.toNat (requests szDrv32.toNat (size :: plst)) =
      (sLba32.toNat, (clipAtDrive szDrv32 sLba32 size).toNat) ::
        place szDrv32.toNat (sLba32 + clipAtDrive szDrv32 sLba32 size).toNat
          (requests szDrv32.toNat plst) := by
  have hroom := UInt32.lt_iff_toNat_lt.1 hlt
  have hsize : (clipAtDrive szDrv32 sLba32 size).toNat ≠ 0 := fun heq =>
    hne (UInt32.toNat_inj.1 heq)
  have hclip := clipAtDrive_toNat szDrv32 hlt size
  rw [hclip] at hsize
  rw [toNat_partition_end hlt, hclip]
  show place _ _ (asked szDrv32.toNat size.toNat :: requests szDrv32.toNat plst) = _
  exact Extents.place_cons (by omega) hroom

end Step

/-- The loop from the entry `i` on puts the extents of the list there. By induction on the list.
Entries in front of `i` are left alone, and so are those behind the end of the list. -/
theorem partLoop_entryAt (szDrv32 : UInt32) (sys nHd : UInt8) {plst : List UInt32}
    {sLba32 : UInt32} (hpos : 0 < sLba32.toNat) (i j : Nat) (buf : Buf) :
    entryAt (partLoop szDrv32 sys nHd plst sLba32 (mbrTable + szPte * i) buf) j =
      if j < i then entryAt buf j
      else
        ((place szDrv32.toNat sLba32.toNat (requests szDrv32.toNat plst))[j - i]?).getD
          (entryAt buf j) := by
  induction plst generalizing sLba32 i buf with
  | nil => simp [partLoop, requests]
  | cons size plst ih =>
    have hne : sLba32 ≠ 0 := fun heq => by simp [heq] at hpos
    rw [partLoop]
    by_cases hlt : sLba32 < szDrv32
    · rw [if_pos ⟨hne, hlt⟩]
      dsimp only
      by_cases hzero : clipAtDrive szDrv32 sLba32 size = 0
      · rw [if_pos hzero, place_requests_none hlt hzero]
        simp
      · have hnext : 0 < (sLba32 + clipAtDrive szDrv32 sLba32 size).toNat := by
          rw [toNat_partition_end hlt]
          omega
        have hpte : mbrTable + szPte * i + szPte = mbrTable + szPte * (i + 1) := by ring
        rw [if_neg hzero, hpte, ih hnext (i + 1), place_requests_cons hlt hzero]
        rcases Nat.lt_trichotomy j i with hji | rfl | hij
        · rw [if_pos (by omega), if_pos hji, entryAt_putEntry_of_ne _ _ (by omega)]
        · rw [if_pos (by omega), if_neg (by omega), entryAt_putEntry, Nat.sub_self]
          rfl
        · -- an entry that the rest of the list puts
          have hsub : j - i = (j - (i + 1)) + 1 := by omega
          rw [if_neg (by omega), if_neg (by omega), entryAt_putEntry_of_ne _ _ (by omega), hsub,
            List.getElem?_cons_succ]
    · have hfull := Nat.le_of_not_lt (mt UInt32.lt_iff_toNat_lt.2 hlt)
      rw [if_neg fun h => hlt h.2, Extents.place_of_limit_le hfull]
      simp

/-- The partitions that `create_partition` makes. -/
def partitions (szDrv : Nat) (plst : PartList) : List (Nat × Nat) :=
  place szDrv nSecTrack.toNat (requests szDrv (plst.sizes.take 4))

/-- The table has at most four partitions. -/
theorem length_partitions_le (szDrv : Nat) (plst : PartList) :
    (partitions szDrv plst).length ≤ 4 := by
  have hlen := Extents.length_place_le szDrv nSecTrack.toNat (requests szDrv (plst.sizes.take 4))
  have htake : (requests szDrv (plst.sizes.take 4)).length ≤ 4 := by simp [requests]
  exact Nat.le_trans hlen htake

/-- The cleared buffer has no entries. Start and size of each are read from zero bytes. -/
theorem entryAt_clear {i : Nat} (hi : i < 4) (buf : Buf) :
    entryAt (memClear ss buf) i = (0, 0) := by
  have hzero : ∀ ptr, ptr + 4 ≤ 4096 → LittleEndian.load 4 (memClear ss buf) ptr = 0 := by
    intro ptr hptr
    have hcell : ∀ k < 4, memClear ss buf (ptr + k) = 0 := by
      intro k hk
      have hin : ptr + k < (List.replicate ss.toNat (0 : UInt8)).length := by
        rw [List.length_replicate]
        show ptr + k < 4096
        omega
      have hmem := Blocks.combine_of_mem (fun _ b => b) buf 0 hin
      rw [Nat.zero_add, List.getElem_replicate] at hmem
      exact hmem
    have hslice : Blocks.slice (memClear ss buf) ptr 4 = List.replicate 4 0 :=
      List.map_eq_replicate_iff.2 fun k hk => hcell k (List.mem_range.1 hk)
    rw [LittleEndian.load, hslice]
    rfl
  have hbound : mbrTable + szPte * i + 16 ≤ 4096 := by
    show 446 + 16 * i + 16 ≤ 4096
    omega
  unfold entryAt pteStLba pteSizLba
  rw [hzero _ (by omega), hzero _ (by omega)]

/-- The table in the MBR. -/
theorem mbr_entryAt (szDrv32 : UInt32) (plst : PartList) (sys : UInt8) (buf : Buf) {i : Nat}
    (hi : i < 4) :
    entryAt (mbr szDrv32 plst sys buf) i = ((partitions szDrv32.toNat plst)[i]?).getD (0, 0) := by
  have hsign : mbrTable + szPte * i + 16 ≤ bs55AA := by
    show 446 + 16 * i + 16 ≤ 510
    omega
  have hpos : 0 < nSecTrack.toNat := by decide
  have hloop := @partLoop_entryAt szDrv32 sys (heads szDrv32) (plst.sizes.take 4) nSecTrack hpos 0 i
    (memClear ss buf)
  rw [if_neg (Nat.not_lt_zero i), Nat.sub_zero, entryAt_clear hi] at hloop
  unfold mbr stWord
  rw [entryAt_of_disjoint (.inr hsign)]
  exact hloop

/-- A partition has a sector, starts behind the first track and ends in the drive. -/
theorem partitions_in_drive {szDrv : Nat} {plst : PartList} {e : Nat × Nat}
    (h : e ∈ partitions szDrv plst) : 63 ≤ e.1 ∧ 0 < e.2 ∧ e.1 + e.2 ≤ szDrv :=
  Extents.mem_place h

/-- The partitions do not overlap, and stand in order. -/
theorem partitions_disjoint (szDrv : Nat) (plst : PartList) :
    (partitions szDrv plst).Pairwise fun e e' => e.1 + e.2 ≤ e'.1 :=
  Extents.pairwise_place _ _ _

/-! ### Drives that look larger than they are -/

/-- The sizes of the partitions. -/
def partitionSizes (szDrv : Nat) (plst : PartList) : List Nat :=
  (partitions szDrv plst).map Prod.snd

/-- Up to its first 0 the list asks for sectors, and for no more than there are from `start` on. -/
def FitsFrom (szDrv start : Nat) (sizes : List UInt32) : Prop :=
  (∀ size ∈ sizes.takeWhile (· ≠ 0), 100 < size.toNat) ∧
    start + ((sizes.takeWhile (· ≠ 0)).map UInt32.toNat).sum ≤ szDrv

/-- The partitions fit the drive. -/
def SizesFit (szDrv : Nat) (plst : PartList) : Prop :=
  FitsFrom szDrv nSecTrack.toNat (plst.sizes.take 4)

section Larger
variable {szDrv szDrv' : Nat}

/-- The first partition fits, and the rest behind it. -/
theorem fitsFrom_cons {start : Nat} {size : UInt32} (hne : size ≠ 0) (sizes : List UInt32) :
    FitsFrom szDrv start (size :: sizes) ↔
      100 < size.toNat ∧ FitsFrom szDrv (start + size.toNat) sizes := by
  unfold FitsFrom
  rw [List.takeWhile_cons_of_pos (by simpa using hne), List.forall_mem_cons, List.map_cons,
    List.sum_cons, Nat.add_assoc, and_assoc]

/-- The list ends with its first 0. -/
theorem fitsFrom_zero_cons {start : Nat} (sizes : List UInt32) :
    FitsFrom szDrv start (0 :: sizes) ↔ start ≤ szDrv := by
  simp [FitsFrom]

/-- Partitions that fit begin on the drive or at its end. -/
theorem FitsFrom.le {start : Nat} {sizes : List UInt32} (h : FitsFrom szDrv start sizes) :
    start ≤ szDrv := by
  have hsum := h.2
  omega

/-- An entry that is not kept gets more from the larger drive. A percentage of the larger drive is
larger, and a size that was cut at the end of the drive is cut later. -/
theorem asked_lt {start : Nat} {size : UInt32} (h : szDrv + 100 ≤ szDrv') (hs : start ≤ szDrv)
    (hne : size ≠ 0) (hfit : ¬ (100 < size.toNat ∧ start + size.toNat ≤ szDrv)) :
    min (asked szDrv size.toNat) (szDrv - start) <
      min (asked szDrv' size.toNat) (szDrv' - start) := by
  have hpos : size.toNat ≠ 0 := fun heq => hne (UInt32.toNat_inj.1 heq)
  unfold asked
  by_cases hle : size.toNat ≤ 100
  · rw [if_pos hle, if_pos hle]
    by_cases hall : size.toNat = 100
    · rw [if_pos hall, if_pos hall]
      omega
    · -- one percent of the larger drive is at least a sector more
      rw [if_neg hall, if_neg hall]
      have hdiv : szDrv / 100 + 1 ≤ szDrv' / 100 := by omega
      have hmul := Nat.mul_le_mul_right size.toNat hdiv
      rw [Nat.add_mul, Nat.one_mul] at hmul
      omega
  · rw [if_neg hle, if_neg hle]
    omega

/-- The sizes from `start` on. By induction on the list: both drives give the partitions the same
sizes iff every entry of the list asks for sectors and not for a percentage, and all of them fit the
smaller drive. -/
theorem sizes_place_eq_iff (h : szDrv + 100 ≤ szDrv') {sizes : List UInt32} {start : Nat}
    (hs : start ≤ szDrv) :
    (place szDrv' start (requests szDrv' sizes)).map Prod.snd =
        (place szDrv start (requests szDrv sizes)).map Prod.snd ↔
      FitsFrom szDrv start sizes := by
  induction sizes generalizing start with
  | nil => simpa [requests, FitsFrom] using hs
  | cons size sizes ih =>
    show (place szDrv' start (asked szDrv' size.toNat :: requests szDrv' sizes)).map Prod.snd =
        (place szDrv start (asked szDrv size.toNat :: requests szDrv sizes)).map Prod.snd ↔ _
    by_cases hne : size = 0
    · -- the list ends
      subst hne
      have hzero : ∀ drv, asked drv (0 : UInt32).toNat = 0 := fun drv => Nat.mul_zero _
      rw [hzero, hzero, Extents.place_zero_cons, Extents.place_zero_cons, fitsFrom_zero_cons]
      exact ⟨fun _ => hs, fun _ => rfl⟩
    · rw [fitsFrom_cons hne]
      -- a size in sectors that fits is the same on both drives, any other depends on the drive
      by_cases hfit : 100 < size.toNat ∧ start + size.toNat ≤ szDrv
      · obtain ⟨hlarge, hend⟩ := hfit
        have hasked : ∀ drv, asked drv size.toNat = size.toNat := fun drv =>
          if_neg (by omega)
        have hmin : min size.toNat (szDrv - start) = size.toNat := by omega
        have hmin' : min size.toNat (szDrv' - start) = size.toNat := by omega
        rw [hasked, hasked, Extents.place_cons (by omega) (by omega),
          Extents.place_cons (by omega) (by omega), hmin, hmin', List.map_cons, List.map_cons,
          List.cons_inj_right, ih hend]
        exact (and_iff_right hlarge).symm
      · constructor
        · intro heq
          have hhead := congrArg (List.headD · 0) heq
          rw [Extents.head_place, Extents.head_place] at hhead
          exact absurd hhead.symm (Nat.ne_of_lt (asked_lt h hs hne hfit))
        · rintro ⟨hlarge, hrest⟩
          exact absurd ⟨hlarge, hrest.le⟩ hfit

/-- A drive that looks larger gets the same partition sizes iff the list fits the smaller one. -/
theorem sizes_eq_iff (h : szDrv + 100 ≤ szDrv') (hs : 63 ≤ szDrv) (plst : PartList) :
    partitionSizes szDrv' plst = partitionSizes szDrv plst ↔ SizesFit szDrv plst :=
  sizes_place_eq_iff h hs

end Larger

/-- Two lists of positive numbers are equal if they are when zeros are put behind them. A zero tells
where a list has ended. -/
theorem ext_getD {l l' : List Nat} {n : Nat} (hlen : l.length ≤ n) (hlen' : l'.length ≤ n)
    (hpos : ∀ x ∈ l, 0 < x) (hpos' : ∀ x ∈ l', 0 < x)
    (h : ∀ i < n, (l[i]?).getD 0 = (l'[i]?).getD 0) : l = l' := by
  refine List.ext_getElem? fun i => ?_
  by_cases hi : i < n
  · have hget := h i hi
    cases hl : l[i]? with
    | none =>
      cases hr : l'[i]? with
      | none => rfl
      | some y =>
        rw [hl, hr] at hget
        exact absurd hget.symm (Nat.ne_of_gt (hpos' y (List.mem_of_getElem? hr)))
    | some x =>
      cases hr : l'[i]? with
      | none =>
        rw [hl, hr] at hget
        exact absurd hget (Nat.ne_of_gt (hpos x (List.mem_of_getElem? hl)))
      | some y =>
        rw [hl, hr] at hget
        exact congrArg some hget
  · rw [List.getElem?_eq_none (by omega), List.getElem?_eq_none (by omega)]

/-- Every partition in the table has a sector. -/
theorem partitionSizes_pos (szDrv : Nat) (plst : PartList) :
    ∀ n ∈ partitionSizes szDrv plst, 0 < n := by
  intro n hn
  obtain ⟨e, he, rfl⟩ := List.mem_map.1 hn
  exact (partitions_in_drive he).2.1

/-- So at most four sizes are given. -/
theorem length_partitionSizes_le (szDrv : Nat) (plst : PartList) :
    (partitionSizes szDrv plst).length ≤ 4 := by
  rw [partitionSizes, List.length_map]
  exact length_partitions_le szDrv plst

/-- The size in an entry of the table, 0 for an entry without a partition. -/
theorem mbr_sizeAt (szDrv32 : UInt32) (plst : PartList) (sys : UInt8) (buf : Buf) {i : Nat}
    (hi : i < 4) :
    (entryAt (mbr szDrv32 plst sys buf) i).2 =
      ((partitionSizes szDrv32.toNat plst)[i]?).getD 0 := by
  rw [mbr_entryAt _ _ _ _ hi, partitionSizes, List.getElem?_map]
  cases (partitions szDrv32.toNat plst)[i]? with
  | none => rfl
  | some e => rfl

/-- The sizes in two tables are equal iff those of the partitions are. -/
theorem entry_sizes_iff (szDrv32 szDrv32' : UInt32) (plst : PartList) (sys : UInt8) (buf : Buf) :
    (∀ i < 4,
        (entryAt (mbr szDrv32' plst sys buf) i).2 = (entryAt (mbr szDrv32 plst sys buf) i).2) ↔
      partitionSizes szDrv32'.toNat plst = partitionSizes szDrv32.toNat plst := by
  constructor
  · intro heq
    refine ext_getD (length_partitionSizes_le _ _) (length_partitionSizes_le _ _)
      (partitionSizes_pos _ _) (partitionSizes_pos _ _) fun i hi => ?_
    have hget := heq i hi
    rw [mbr_sizeAt _ _ _ _ hi, mbr_sizeAt _ _ _ _ hi] at hget
    exact hget
  · intro heq i hi
    rw [mbr_sizeAt _ _ _ _ hi, mbr_sizeAt _ _ _ _ hi, heq]

end NucleoH743.Mkfs
