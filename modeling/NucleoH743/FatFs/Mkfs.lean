import NucleoH743.FatFs.Diskio
import NucleoH743.Lib.LittleEndian

/-!
# `FatFs.Mkfs`: formatting the drive

`f_mkfs` of `ff.c` and what it calls: `get_ldnumber`, `create_partition`, and the disk functions.
FatFs is built with sectors of 4096 bytes, one logical drive, LBA of 32 bits, and without exFAT,
long names, trimming and multiple partitions. The work buffer is a memory that starts at 0. What
`f_mkfs` does to a mounted filesystem object is not part of the model.

`create_partition` does not initialise the variable that it passes to `disk_ioctl` for the number
of sectors, so what the stack holds there is an input.

The choice of a sub-type and a cluster size is a loop in `f_mkfs`: a round computes a layout from
both, and starts again with others when the number of clusters does not suit the sub-type. That the
loop ends is a theorem here (`configRound_again`), and `configLoop` recurs by it, without a bound on
its rounds.
-/

set_option autoImplicit false

namespace NucleoH743.Mkfs

open Diskio

/-- The codes of `FRESULT` that `f_mkfs` returns. -/
inductive MkfsResult where
  | ok | diskErr | notReady | writeProtected | invalidDrive | mkfsAborted | notEnoughCore
  | invalidParameter
  deriving DecidableEq, Repr

/-! ### Constants -/

/-- The size of a sector (`FF_MAX_SS`). -/
def ss : UInt32 := 4096

/-- `FF_VOLUMES` -/
def ffVolumes : Nat := 1

def ctrlSync : UInt8 := 0
def getSectorCount : UInt8 := 1
def getBlockSize : UInt8 := 3

def fmFat : UInt8 := 0x01
def fmFat32 : UInt8 := 0x02
def fmAny : UInt8 := 0x07
def fmSfd : UInt8 := 0x08

def maxFat12 : UInt32 := 0xFF5
def maxFat16 : UInt32 := 0xFFF5
def maxFat32 : UInt32 := 0x0FFFFFF5

/-- The size of a directory entry. -/
def szdire : UInt32 := 32

/-- Sectors per track. -/
def nSecTrack : UInt32 := 63

/-- The offsets in the MBR and in an entry of its partition table. -/
def mbrTable : Nat := 446
def szPte : Nat := 16
def pteStHead : Nat := 1
def pteSystem : Nat := 4
def pteEdHead : Nat := 5
def pteStLba : Nat := 8
def pteSizLba : Nat := 12
def bs55AA : Nat := 510

/-! ### The work buffer -/

/-- The work buffer. -/
abbrev Buf := Nat → UInt8

/-- `mem_set(buf, 0, cnt)` -/
def memClear (cnt : UInt32) (buf : Buf) : Buf :=
  Blocks.store buf 0 (List.replicate cnt.toNat 0)

/-- `mem_cpy`, and a store of single bytes. -/
def memCpy (ptr : Nat) (src : List UInt8) (buf : Buf) : Buf := Blocks.store buf ptr src

/-- `st_word` -/
def stWord (ptr : Nat) (val : UInt16) (buf : Buf) : Buf := LittleEndian.store 2 buf ptr val.toNat

/-- `st_dword` -/
def stDword (ptr : Nat) (val : UInt32) (buf : Buf) : Buf := LittleEndian.store 4 buf ptr val.toNat

/-- The first `n` sectors of the buffer. -/
def sectors (n : UInt32) (buf : Buf) : List UInt8 := Blocks.slice buf 0 (n.toNat * ss.toNat)

/-! ### The disk functions -/

/-- `disk_ioctl` -/
def diskIoctl (cmd : UInt8) (buff : UInt32) : DResult × UInt32 := w25qxxIoctl cmd buff

/-- A program over the disk functions. -/
abbrev DiskProg (α : Type) := Prog DiskOp DiskOp.Res α

/-- A call of `disk_ioctl` with a variable that holds `buff`. -/
def ioctl (cmd : UInt8) (buff : UInt32) : DiskProg (DResult × UInt32) :=
  Prog.call (DiskOp.ioctl cmd buff)

/-- A call of `disk_write` with the first `count` sectors of the buffer. -/
def diskWrite (buf : Buf) (sector count : UInt32) : DiskProg DResult :=
  Prog.call (DiskOp.write (sectors count buf) sector count)

/-! ### `create_partition` -/

/-- The sizes of the partitions. The list ends with a zero, or has the four entries that are
read. -/
structure PartList where
  sizes : List UInt32
  ended : 4 ≤ sizes.length ∨ 0 ∈ sizes

/-- The loop that doubles the number of heads, for at most `fuel` rounds. -/
def headLoop (szDrv32 : UInt32) : Nat → UInt8 → UInt8
  | 0, nHd => nHd
  | fuel + 1, nHd =>
    if nHd ≠ 0 ∧ 1024 < szDrv32 / nHd.toUInt32 / nSecTrack then headLoop szDrv32 fuel (nHd * 2)
    else nHd

/-- The number of heads. After five rounds the byte is 0, and the loop ends. -/
def heads (szDrv32 : UInt32) : UInt8 :=
  let nHd := headLoop szDrv32 5 8
  if nHd = 0 then 255 else nHd

/-- The number of sectors for an entry `size` of the list: sizes up to 100 are percentages. -/
def sizeInSectors (szDrv32 size : UInt32) : UInt32 :=
  if size ≤ 100 then if size = 100 then szDrv32 else szDrv32 / 100 * size else size

/-- The size of a partition that starts at `sLba32`: the rest of the drive if the entry asks for
more. -/
def clipAtDrive (szDrv32 sLba32 size : UInt32) : UInt32 :=
  let nLba32 := sizeInSectors szDrv32 size
  if szDrv32 < sLba32 + nLba32 ∨ sLba32 + nLba32 < sLba32 then szDrv32 - sLba32 else nLba32

/-- Head, sector and cylinder of a sector, as the three bytes that stand in an entry one behind the
other. -/
def chs (nHd : UInt8) (lba : UInt32) : List UInt8 :=
  let cy := lba / nSecTrack / nHd.toUInt32
  let hd := (lba / nSecTrack % nHd.toUInt32).toUInt8
  let sc := (lba % nSecTrack + 1).toUInt8
  [hd, (cy >>> 2 &&& 0xC0 ||| sc.toUInt32).toUInt8, cy.toUInt8]

/-- The entry at `pte`. -/
def putEntry (sys nHd : UInt8) (pte : Nat) (sLba32 nLba32 : UInt32) (buf : Buf) : Buf :=
  let buf := stDword (pte + pteStLba) sLba32 buf
  let buf := stDword (pte + pteSizLba) nLba32 buf
  let buf := memCpy (pte + pteSystem) [sys] buf
  let buf := memCpy (pte + pteStHead) (chs nHd sLba32) buf
  memCpy (pte + pteEdHead) (chs nHd (sLba32 + nLba32 - 1)) buf

/-- The loop over the entries of the list. -/
def partLoop (szDrv32 : UInt32) (sys nHd : UInt8) : List UInt32 → UInt32 → Nat → Buf → Buf
  | [], _, _, buf => buf
  | size :: plst, sLba32, pte, buf =>
    if sLba32 ≠ 0 ∧ sLba32 < szDrv32 then
      let nLba32 := clipAtDrive szDrv32 sLba32 size
      if nLba32 = 0 then buf
      else
        partLoop szDrv32 sys nHd plst (sLba32 + nLba32) (pte + szPte)
          (putEntry sys nHd pte sLba32 nLba32 buf)
    else buf

/-- The buffer when it is written to the MBR. -/
def mbr (szDrv32 : UInt32) (plst : PartList) (sys : UInt8) (buf : Buf) : Buf :=
  let buf := memClear ss buf
  let buf := partLoop szDrv32 sys (heads szDrv32) (plst.sizes.take 4) nSecTrack mbrTable buf
  stWord bs55AA 0xAA55 buf

/-- `create_partition`. Before the query `sz_drv` holds `stack`. -/
def createPartition (stack : UInt32) (plst : PartList) (sys : UInt8) (buf : Buf) :
    DiskProg MkfsResult := do
  let (res, szDrv) ← ioctl getSectorCount stack
  if res ≠ .ok then return .diskErr
  else
    let res ← diskWrite (mbr szDrv plst sys buf) 0 1
    if res ≠ .ok then return .diskErr else return .ok

/-! ### The configuration of the volume -/

/-- `MKFS_PARM` -/
structure MkfsParm where
  fmt : UInt8
  nFat : UInt8
  align : UInt32
  nRoot : UInt32
  auSize : UInt32
  deriving DecidableEq, Repr

def defopt : MkfsParm := ⟨fmAny, 0, 0, 0, 0⟩

/-- The FAT sub-type. -/
inductive FatType where
  | fat12 | fat16 | fat32
  deriving DecidableEq, Repr

/-- Where the volume is to be located, and the options that count for its configuration. -/
structure MkfsSetup where
  fsopt : UInt8
  szBlk : UInt32
  nFat : UInt32
  nRoot : UInt32
  bVol : UInt32
  szVol : UInt32

/-- The configuration that the loop ends with. -/
structure Layout where
  fsty : FatType
  pau : UInt32
  szRsv : UInt32
  szFat : UInt32
  szDir : UInt32
  nClst : UInt32
  bFat : UInt32

/-- How a round of the loop ends. -/
inductive Round where
  | leave (res : MkfsResult)
  /-- `continue` -/
  | again (fsty : FatType) (szAu : UInt32)
  /-- `break` -/
  | done (l : Layout)

/-- The cluster size boundaries of `cst` and `cst32`, without the 0 at their end. -/
def cst : List UInt32 := [1, 4, 16, 64, 256, 512]
def cst32 : List UInt32 := [1, 2, 4, 8, 16, 32]

/-- The loop that gets the cluster size from a table. -/
def tableSize (n : UInt32) : List UInt32 → UInt32 → UInt32
  | [], pau => pau
  | c :: cs, pau => if c ≤ n then tableSize n cs (pau <<< 1) else pau

/-- The first half of a round: the cluster size, and the layout before its alignment. -/
def preLayout (m : MkfsSetup) (fsty : FatType) (szAu : UInt32) : Layout :=
  match fsty with
  | .fat32 =>
    let pau := if szAu = 0 then tableSize (m.szVol / 0x20000) cst32 1 else szAu
    let nClst := m.szVol / pau
    { fsty, pau, nClst, szFat := (nClst * 4 + 8 + ss - 1) / ss, szRsv := 32, szDir := 0
      bFat := m.bVol + 32 }
  | .fat12 | .fat16 =>
    let pau := if szAu = 0 then tableSize (m.szVol / 0x1000) cst 1 else szAu
    let nClst := m.szVol / pau
    let n := if maxFat12 < nClst then nClst * 2 + 4 else (nClst * 3 + 1) / 2 + 3
    { fsty := if maxFat12 < nClst then fsty else .fat12
      pau, nClst, szFat := (n + ss - 1) / ss, szRsv := 1, szDir := m.nRoot * szdire / ss
      bFat := m.bVol + 1 }

/-- The base of the data area. -/
def Layout.bData (m : MkfsSetup) (l : Layout) : UInt32 := l.bFat + l.szFat * m.nFat + l.szDir

/-- The layout with the data area aligned to the erase block boundary. -/
def alignData (m : MkfsSetup) (l : Layout) : Layout :=
  let bData := l.bData m
  let n := (bData + m.szBlk - 1 &&& ~~~(m.szBlk - 1)) - bData
  if l.fsty = .fat32 then { l with szRsv := l.szRsv + n, bFat := l.bFat + n }
  else if n % m.nFat ≠ 0 then
    { l with
      szRsv := l.szRsv + 1
      bFat := l.bFat + 1
      szFat := l.szFat + (n - 1) / m.nFat }
  else { l with szFat := l.szFat + n / m.nFat }

/-- The final check of the FAT sub-type. -/
def checkClusters (m : MkfsSetup) (szAu : UInt32) (l : Layout) : Round :=
  match l.fsty with
  | .fat32 =>
    if l.nClst ≤ maxFat16 then
      if szAu = 0 ∧ l.pau / 2 ≠ 0 then .again .fat32 (l.pau / 2) else .leave .mkfsAborted
    else .done l
  | .fat16 =>
    if maxFat16 < l.nClst then
      if szAu = 0 ∧ l.pau * 2 ≤ 64 then .again .fat16 (l.pau * 2)
      else if m.fsopt &&& fmFat32 ≠ 0 then .again .fat32 szAu
      else if szAu = 0 ∧ l.pau * 2 ≤ 128 then .again .fat16 (l.pau * 2)
      else .leave .mkfsAborted
    else if l.nClst ≤ maxFat12 then
      if szAu = 0 ∧ l.pau * 2 ≤ 128 then .again .fat16 (l.pau * 2) else .leave .mkfsAborted
    else .done l
  | .fat12 => if maxFat12 < l.nClst then .leave .mkfsAborted else .done l

/-- A round of the loop. -/
def configRound (m : MkfsSetup) (fsty : FatType) (szAu : UInt32) : Round :=
  let pre := preLayout m fsty szAu
  if fsty = .fat32 ∧ (pre.nClst ≤ maxFat16 ∨ maxFat32 < pre.nClst) then .leave .mkfsAborted
  else
    let l := alignData m pre
    if m.szVol < pre.bData m + l.pau * 16 - m.bVol then .leave .mkfsAborted
    else
      checkClusters m szAu
        { l with nClst := (m.szVol - l.szRsv - l.szFat * m.nFat - l.szDir) / l.pau }

/-- A bound on the rounds that can follow: the cluster size is set once, and the sub-type changes
to FAT32 once. -/
def roundsLeft (fsty : FatType) (szAu : UInt32) : Nat :=
  (if szAu = 0 then 1 else 0) + (if fsty = .fat32 then 0 else 1)

/-- A cluster size from the tables, doubled, is not 0: they are small powers of two. -/
theorem tableSize_double_ne (n : UInt32) {tbl : List UInt32} (htbl : tbl = cst ∨ tbl = cst32) :
    tableSize n tbl 1 * 2 ≠ 0 := by
  rcases htbl with rfl | rfl <;> simp only [cst, cst32, tableSize] <;> split_ifs <;> decide

/-- So the size that a round chooses by itself can be doubled. -/
theorem preLayout_double_ne (m : MkfsSetup) (fsty : FatType) :
    (preLayout m fsty 0).pau * 2 ≠ 0 := by
  cases fsty with
  | fat12 => exact tableSize_double_ne _ (.inl rfl)
  | fat16 => exact tableSize_double_ne _ (.inl rfl)
  | fat32 => exact tableSize_double_ne _ (.inr rfl)

/-- A round that was asked for FAT32 works on it, and no other round does. -/
theorem preLayout_fat32_iff (m : MkfsSetup) (fsty : FatType) (szAu : UInt32) :
    (preLayout m fsty szAu).fsty = .fat32 ↔ fsty = .fat32 := by
  cases fsty with
  | fat12 => simp [preLayout]
  | fat16 =>
    simp only [preLayout]
    split_ifs <;> simp
  | fat32 => simp [preLayout]

/-- To align the data area keeps the sub-type. -/
@[simp] theorem alignData_fsty (m : MkfsSetup) (l : Layout) : (alignData m l).fsty = l.fsty := by
  unfold alignData
  dsimp only
  split_ifs <;> rfl

/-- It keeps the cluster size. -/
@[simp] theorem alignData_pau (m : MkfsSetup) (l : Layout) : (alignData m l).pau = l.pau := by
  unfold alignData
  dsimp only
  split_ifs <;> rfl

/-- What a round that is repeated has changed. The cluster size is tried smaller or larger where the
caller left the choice, and a FAT16 volume with too many clusters becomes a FAT32 one. -/
theorem checkClusters_again {m : MkfsSetup} {szAu szAu' : UInt32} {l : Layout} {fsty' : FatType}
    (h : checkClusters m szAu l = .again fsty' szAu') :
    (l.fsty = fsty' ∧ szAu = 0 ∧ (szAu' = l.pau / 2 ∧ szAu' ≠ 0 ∨ szAu' = l.pau * 2)) ∨
      (l.fsty = .fat16 ∧ fsty' = .fat32 ∧ szAu' = szAu) := by
  unfold checkClusters at h
  cases hfsty : l.fsty with
  | fat12 =>
    simp only [hfsty] at h
    split_ifs at h
  | fat32 =>
    simp only [hfsty] at h
    split_ifs at h with hfew hhalf
    cases h
    exact .inl ⟨rfl, hhalf.1, .inl ⟨rfl, hhalf.2⟩⟩
  | fat16 =>
    simp only [hfsty] at h
    split_ifs at h with hmany hsmall hfat32 hlarge hfew hdouble
    · cases h
      exact .inl ⟨rfl, hsmall.1, .inr rfl⟩
    · cases h
      exact .inr ⟨rfl, rfl, rfl⟩
    · cases h
      exact .inl ⟨rfl, hlarge.1, .inr rfl⟩
    · cases h
      exact .inl ⟨rfl, hdouble.1, .inr rfl⟩

/-- Every round that is repeated leaves fewer to come: it has set the cluster size, which was 0, or
it has changed FAT16 for FAT32. -/
theorem configRound_again {m : MkfsSetup} {fsty fsty' : FatType} {szAu szAu' : UInt32}
    (h : configRound m fsty szAu = .again fsty' szAu') :
    roundsLeft fsty' szAu' < roundsLeft fsty szAu := by
  unfold configRound at h
  dsimp only at h
  split_ifs at h
  rcases checkClusters_again h with ⟨hfsty, rfl, hau⟩ | ⟨hfsty, rfl, rfl⟩
  · dsimp only at hfsty hau
    rw [alignData_fsty] at hfsty
    rw [alignData_pau] at hau
    have hne : szAu' ≠ 0 := by
      rcases hau with ⟨-, hne⟩ | rfl
      · exact hne
      · exact preLayout_double_ne m fsty
    have htype := preLayout_fat32_iff m fsty 0
    rw [hfsty] at htype
    simp [roundsLeft, hne, htype]
  · dsimp only at hfsty
    rw [alignData_fsty] at hfsty
    have htype := preLayout_fat32_iff m fsty szAu'
    rw [hfsty] at htype
    have hne : fsty ≠ .fat32 := fun heq => absurd (htype.2 heq) (by decide)
    simp [roundsLeft, hne]

/-- The loop. -/
def configLoop (m : MkfsSetup) (fsty : FatType) (szAu : UInt32) : Except MkfsResult Layout :=
  match h : configRound m fsty szAu with
  | .leave res => .error res
  | .again fsty' szAu' =>
    have := configRound_again h
    configLoop m fsty' szAu'
  | .done l => .ok l
termination_by roundsLeft fsty szAu

/-- The sub-type to start with, and the loop. -/
def configure (m : MkfsSetup) (szAu : UInt32) : Except MkfsResult Layout :=
  let szAu := if 128 < szAu then 128 else szAu
  if m.fsopt &&& fmFat32 ≠ 0 ∧ m.fsopt &&& fmFat = 0 then configLoop m .fat32 szAu
  else if m.fsopt &&& fmFat = 0 then .error .invalidParameter
  else configLoop m .fat16 szAu

/-! ### The volume -/

/-- `get_fattime` of the glue layer. -/
def getFattime : UInt32 := 0

/-- The VBR of the volume in the buffer. -/
def vbr (m : MkfsSetup) (l : Layout) (buf : Buf) : Buf :=
  let buf := memClear ss buf
  -- the boot jump code and the OEM name "MSDOS5.0"
  let buf := memCpy 0 [0xEB, 0xFE, 0x90, 0x4D, 0x53, 0x44, 0x4F, 0x53, 0x35, 0x2E, 0x30] buf
  let buf := stWord 11 ss.toUInt16 buf
  let buf := memCpy 13 [l.pau.toUInt8] buf
  let buf := stWord 14 l.szRsv.toUInt16 buf
  let buf := memCpy 16 [m.nFat.toUInt8] buf
  let buf := stWord 17 (if l.fsty = .fat32 then 0 else m.nRoot.toUInt16) buf
  let buf :=
    if m.szVol < 0x10000 then stWord 19 m.szVol.toUInt16 buf else stDword 32 m.szVol buf
  let buf := memCpy 21 [0xF8] buf
  let buf := stWord 24 63 buf
  let buf := stWord 26 255 buf
  let buf := stDword 28 m.bVol buf
  let buf :=
    if l.fsty = .fat32 then
      let buf := stDword 67 getFattime buf
      let buf := stDword 36 l.szFat buf
      let buf := stDword 44 2 buf
      let buf := stWord 48 1 buf
      let buf := stWord 50 6 buf
      let buf := memCpy 64 [0x80] buf
      let buf := memCpy 66 [0x29] buf
      -- "NO NAME    FAT32   "
      memCpy 71
        [0x4E, 0x4F, 0x20, 0x4E, 0x41, 0x4D, 0x45, 0x20, 0x20, 0x20, 0x20,
          0x46, 0x41, 0x54, 0x33, 0x32, 0x20, 0x20, 0x20] buf
    else
      let buf := stDword 39 getFattime buf
      let buf := stWord 22 l.szFat.toUInt16 buf
      let buf := memCpy 36 [0x80] buf
      let buf := memCpy 38 [0x29] buf
      -- "NO NAME    FAT     "
      memCpy 43
        [0x4E, 0x4F, 0x20, 0x4E, 0x41, 0x4D, 0x45, 0x20, 0x20, 0x20, 0x20,
          0x46, 0x41, 0x54, 0x20, 0x20, 0x20, 0x20, 0x20] buf
  stWord bs55AA 0xAA55 buf

/-- The FSINFO record of a FAT32 volume in the buffer. -/
def fsinfo (l : Layout) (buf : Buf) : Buf :=
  let buf := memClear ss buf
  let buf := stDword 0 0x41615252 buf
  let buf := stDword 484 0x61417272 buf
  let buf := stDword 488 (l.nClst - 1) buf
  let buf := stDword 492 2 buf
  stWord bs55AA 0xAA55 buf

/-- The first entries of a FAT. -/
def fatHead (fsty : FatType) (buf : Buf) : Buf :=
  match fsty with
  | .fat32 => stDword 8 0x0FFFFFFF (stDword 4 0xFFFFFFFF (stDword 0 0xFFFFFFF8 buf))
  | .fat16 => stDword 0 0xFFFFFFF8 buf
  | .fat12 => stDword 0 0xFFFFF8 buf

/-- The number of sectors that are written next. -/
def chunk (szBuf nsect : UInt32) : UInt32 := if szBuf < nsect then szBuf else nsect

/-- Each turn of a loop that writes sectors leaves fewer of them. -/
theorem sub_chunk_lt {szBuf nsect : UInt32} (hbuf : szBuf ≠ 0)
    (h : nsect - chunk szBuf nsect ≠ 0) :
    (nsect - chunk szBuf nsect).toNat < nsect.toNat := by
  unfold chunk at h ⊢
  split_ifs at h ⊢ with hlt
  · have hpos : szBuf.toNat ≠ 0 := fun hzero => hbuf (UInt32.toNat_inj.1 hzero)
    have hle := UInt32.lt_iff_toNat_lt.1 hlt
    rw [UInt32.toNat_sub_of_le _ _ (UInt32.le_of_lt hlt)]
    omega
  · have hself := UInt32.sub_self nsect
    exact absurd hself h

/-- A `do` loop that writes `nsect` sectors from `sect` on, as many as the buffer holds at a time.
With `clear` the first sector of the buffer is cleared after each write. The value is the next
sector, and `none` for `FR_DISK_ERR`. -/
def fillLoop (szBuf : { n : UInt32 // n ≠ 0 }) (clear : Bool) (sect nsect : UInt32) (buf : Buf) :
    DiskProg (Option (UInt32 × Buf)) := do
  let res ← diskWrite buf sect (chunk szBuf nsect)
  if res ≠ .ok then return none
  else
    let buf := if clear then memClear ss buf else buf
    let sect := sect + chunk szBuf nsect
    if h : nsect - chunk szBuf nsect ≠ 0 then
      have := sub_chunk_lt szBuf.property h
      fillLoop szBuf clear sect (nsect - chunk szBuf nsect) buf
    else return some (sect, buf)
termination_by nsect.toNat

/-- The loop over the FATs. -/
def fatLoop (szBuf : { n : UInt32 // n ≠ 0 }) (l : Layout) :
    Nat → UInt32 → Buf → DiskProg (Option (UInt32 × Buf))
  | 0, sect, buf => return some (sect, buf)
  | nFat + 1, sect, buf => do
    match ← fillLoop szBuf true sect l.szFat (fatHead l.fsty buf) with
    | some (sect, buf) => fatLoop szBuf l nFat sect buf
    | none => return none

/-- The FSINFO record and the backups, whose writes are not checked. -/
def writeFsinfo (m : MkfsSetup) (l : Layout) (buf : Buf) : DiskProg Buf := do
  let _ ← diskWrite buf (m.bVol + 6) 1
  let buf := fsinfo l buf
  let _ ← diskWrite buf (m.bVol + 7) 1
  let _ ← diskWrite buf (m.bVol + 1) 1
  return buf

/-- What is written for the volume: the VBR, the FSINFO record, the FATs and the root directory.
The value is the buffer afterwards, and `none` for `FR_DISK_ERR`. -/
def writeVolume (m : MkfsSetup) (l : Layout) (szBuf : { n : UInt32 // n ≠ 0 }) (buf : Buf) :
    DiskProg (Option Buf) := do
  let buf := vbr m l buf
  let res ← diskWrite buf m.bVol 1
  if res ≠ .ok then return none
  else
    let buf ← if l.fsty = .fat32 then writeFsinfo m l buf else pure buf
    let buf := memClear (szBuf.val * ss) buf
    match ← fatLoop szBuf l m.nFat.toNat l.bFat buf with
    | none => return none
    | some (sect, buf) =>
      let nsect := if l.fsty = .fat32 then l.pau else l.szDir
      match ← fillLoop szBuf false sect nsect buf with
      | none => return none
      | some (_, buf) => return some buf

/-- The system ID in the partition table. -/
def systemId (fsty : FatType) (szVol : UInt32) : UInt8 :=
  if fsty = .fat32 then 0x0C
  else if 0x10000 ≤ szVol then 0x06
  else if fsty = .fat16 then 0x04
  else 0x01

/-! ### `f_mkfs` -/

/-- What `f_mkfs` calls. -/
inductive MkfsOp where
  | disk (d : DiskOp)
  | createPartition (plst : PartList) (sys : UInt8) (buf : Buf)

/-- What these return. -/
def MkfsOp.Res : MkfsOp → Type
  | disk d => d.Res
  | createPartition _ _ _ => MkfsResult

/-- A program over these functions. -/
abbrev MkfsProg (α : Type) := Prog MkfsOp MkfsOp.Res α

/-- The functions themselves. -/
def MkfsOp.body (stack : UInt32) : (o : MkfsOp) → DiskProg o.Res
  | disk d => Prog.call d
  | createPartition plst sys buf => Mkfs.createPartition stack plst sys buf

/-- Calls of the disk functions. -/
def onDisk {α : Type} (p : DiskProg α) : MkfsProg α := p.interp fun d => Prog.call (MkfsOp.disk d)

/-- The arguments of `f_mkfs`. -/
structure MkfsCall where
  /-- up to the NUL, `none` for a null pointer -/
  path : Option (List UInt8)
  opt : Option MkfsParm
  work : Option Buf
  len : UInt32

/-- `get_ldnumber`, `none` for -1. -/
def getLdnumber : Option (List UInt8) → Option Nat
  | none => none
  | some path =>
    let drive := path.takeWhile fun c => 33 ≤ c ∧ c ≠ 58
    if path[drive.length]? = some 58 then
      match drive with
      | [c] => if 48 ≤ c ∧ c ≤ 57 ∧ c.toNat - 48 < ffVolumes then some (c.toNat - 48) else none
      | _ => none
    else some 0

/-- The block size of the drive. -/
def blockSize (align : UInt32) : DiskProg UInt32 := do
  let szBlk ←
    if align = 0 then do
      let (res, szBlk) ← ioctl getBlockSize align
      pure (if res ≠ .ok then 1 else szBlk)
    else pure align
  return if szBlk = 0 ∨ 0x8000 < szBlk ∨ szBlk &&& (szBlk - 1) ≠ 0 then 1 else szBlk

/-- Where the volume is to be located, `(b_vol, sz_vol)`, and `none` for `FR_DISK_ERR`. -/
def locateVolume (fsopt : UInt8) : DiskProg (Option (UInt32 × UInt32)) := do
  let (res, szVol) ← ioctl getSectorCount 0
  if res ≠ .ok then return none
  else if fsopt &&& fmSfd = 0 ∧ nSecTrack < szVol then return some (nSecTrack, szVol - nSecTrack)
  else return some (0, szVol)

/-- The options of a call that count. -/
def MkfsParm.setup (opt : MkfsParm) (szBlk bVol szVol : UInt32) : MkfsSetup where
  fsopt := opt.fmt &&& (fmAny ||| fmSfd)
  szBlk
  nFat := if 1 ≤ opt.nFat ∧ opt.nFat ≤ 2 then opt.nFat.toUInt32 else 1
  nRoot :=
    if 1 ≤ opt.nRoot ∧ opt.nRoot ≤ 32768 ∧ opt.nRoot % (ss / szdire) = 0 then opt.nRoot else 512
  bVol
  szVol

/-- The cluster size asked for, in sectors. -/
def MkfsParm.szAu (opt : MkfsParm) : UInt32 :=
  (if opt.auSize ≤ 0x1000000 ∧ opt.auSize &&& (opt.auSize - 1) = 0 then opt.auSize else 0) / ss

/-- The size list of a volume as a new single partition. -/
def singlePartition (szVol : UInt32) : PartList := ⟨[szVol, 0], .inr (by simp)⟩

/-- The end of `f_mkfs`, when the volume has been written: the partition table, and
`CTRL_SYNC`. -/
def finish (m : MkfsSetup) (l : Layout) (buf : Buf) : MkfsProg MkfsResult := do
  let fr : MkfsResult ←
    if m.fsopt &&& fmSfd = 0 then
      Prog.call
        (MkfsOp.createPartition (singlePartition m.szVol) (systemId l.fsty m.szVol) buf)
    else pure .ok
  if fr ≠ .ok then return fr
  else
    let (res, _) ← onDisk (ioctl ctrlSync 0)
    if res ≠ .ok then return .diskErr else return .ok

/-- `f_mkfs` from the configuration of the volume on. -/
def makeVolume (m : MkfsSetup) (szAu : UInt32) (szBuf : { n : UInt32 // n ≠ 0 }) (work : Buf) :
    MkfsProg MkfsResult :=
  match configure m szAu with
  | .error res => return res
  | .ok l => do
    match ← onDisk (writeVolume m l szBuf work) with
    | none => return .diskErr
    | some buf => finish m l buf

/-- `f_mkfs` on the drive. -/
def mkfsDrive (c : MkfsCall) : MkfsProg MkfsResult := do
  let opt := c.opt.getD defopt
  let ds : DResult ← Prog.call (MkfsOp.disk .init)
  -- `RES_ERROR` is the bit `STA_NOINIT`, `RES_PARERR` the bit `STA_PROTECT`
  if ds = .error then return .notReady
  else if ds = .parerr then return .writeProtected
  else
    let szBlk ← onDisk (blockSize opt.align)
    match c.work with
    | none => return .notEnoughCore
    | some work =>
      if h : c.len / ss ≠ 0 then
        match ← onDisk (locateVolume (opt.fmt &&& (fmAny ||| fmSfd))) with
        | none => return .diskErr
        | some (bVol, szVol) =>
          if szVol < 128 then return .mkfsAborted
          else makeVolume (opt.setup szBlk bVol szVol) opt.szAu ⟨c.len / ss, h⟩ work
      else return .notEnoughCore

/-- `f_mkfs`, over the functions that it calls. -/
def mkfsCalls (c : MkfsCall) : MkfsProg MkfsResult :=
  match getLdnumber c.path with
  | none => return .invalidDrive
  | some _ => mkfsDrive c

/-- `f_mkfs`. Before its query the variable of `create_partition` holds `stack`. -/
def fMkfs (stack : UInt32) (c : MkfsCall) : DiskProg MkfsResult :=
  (mkfsCalls c).interp (MkfsOp.body stack)

end NucleoH743.Mkfs
