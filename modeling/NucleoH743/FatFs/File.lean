import NucleoH743.FatFs.Clusters

/-!
# `FatFs.File`: file objects

`f_read`, `f_write`, `f_lseek`, `f_sync` and `f_close` of `ff.c` on a file object `FIL` with its
sector buffer, and the last part of `f_open`, which fills the object from the directory entry. The
object belongs to the one filesystem object of the firmware.

A loop takes a bound on its rounds. Each round of the transfers moves a byte at least, and each
round of a seek a cluster.

A transfer is a loop that goes on while bytes are left, and a round of it is of one of two kinds:
whole sectors that go between the caller's memory and the disk at once, or a part of a sector that
goes through the buffer of the file object. At the start of a cluster a round begins with a step
along the chain. The model has one definition for each part of a round.

The arithmetic is that of the code, on 32 bits: the offset in a sector is a remainder, and the
sector in a cluster a bitwise and.
-/

set_option autoImplicit false

namespace NucleoH743.Ff

open Diskio Mkfs

/-- What the open sets. -/
structure FilOpen where
  /-- `obj.fs` is not null -/
  hasFs : Bool
  /-- `obj.id` -/
  id : UInt16
  faRead : Bool
  faWrite : Bool
  dirSect : UInt32
  /-- `dir_ptr`, as an offset in the window -/
  dirPtr : Nat
  deriving DecidableEq, Repr

/-- What is known of the file. -/
structure FilInfo where
  /-- `obj.sclust` -/
  sclust : UInt32
  /-- `obj.objsize` -/
  objsize : UInt32
  faModified : Bool
  err : FResult
  deriving DecidableEq, Repr

/-- The file object `FIL`. The bits of `flag` are fields of their own. -/
structure Fil extends FilOpen, FilInfo where
  fptr : UInt32
  clust : UInt32
  faDirty : Bool
  sect : UInt32
  buf : Buf

/-- The pointer `buf + n`. -/
def advance (n : Nat) (buf : Buf) : Buf := fun i => buf (n + i)

/-- `validate` -/
def validate (fs : Fatfs) (fp : Fil) : DiskProg FResult :=
  if fp.hasFs ∧ fs.fsType ≠ none ∧ fp.id = fs.id then do
    let stat : DResult ← Prog.call DiskOp.status
    -- `STA_NOINIT` is the lowest bit
    if stat ≠ .error then return .ok else return .invalidObject
  else return .invalidObject

/-! ### The sector buffer -/

/-- Write the buffer back while it is dirty. -/
def flushSector (fp : Fil) : DiskProg (FResult × Fil) :=
  if fp.faDirty then do
    let res ← diskWrite fp.buf fp.sect 1
    if res ≠ .ok then return (.diskErr, fp) else return (.ok, { fp with faDirty := false })
  else return (.ok, fp)

/-- Read a sector into the buffer. -/
def readSector (fp : Fil) (sect : UInt32) : DiskProg (FResult × Fil) := do
  let (r, data) ← diskRead fp.buf sect 1
  let fp := { fp with buf := memCpy 0 data fp.buf }
  if r ≠ .ok then return (.diskErr, fp) else return (.ok, fp)

/-- Have the sector in the buffer. -/
def loadSector (fp : Fil) (sect : UInt32) : DiskProg (FResult × Fil) :=
  if fp.sect ≠ sect then do
    let (res, fp) ← flushSector fp
    if res ≠ .ok then return (res, fp)
    else
      let (res, fp) ← readSector fp sect
      if res ≠ .ok then return (res, fp) else return (.ok, { fp with sect := sect })
  else return (.ok, fp)

/-- The sector offset in the cluster. -/
def csectOf (g : Geometry) (fp : Fil) : UInt32 := fp.fptr / ss &&& g.csize.toUInt32 - 1

/-- Clip at the cluster boundary. -/
def clip (g : Geometry) (csect cc : UInt32) : UInt32 :=
  if g.csize.toUInt32 < csect + cc then g.csize.toUInt32 - csect else cc

/-- Clip at the end of the sector. -/
def clipSector (fp : Fil) (n : UInt32) : UInt32 :=
  let cnt := ss - fp.fptr % ss
  if n < cnt then n else cnt

/-- How a round of a transfer ends. -/
inductive Round where
  /-- so many bytes have been transferred -/
  | done (cnt : UInt32)
  /-- there is no free cluster -/
  | full
  /-- `ABORT` -/
  | abort (res : FResult)
  deriving DecidableEq, Repr

/-! ### `f_read` -/

/-- The current cluster of a read. -/
def readClust (fs : Fatfs) (fp : Fil) (csect : UInt32) :
    DiskProg (Except FResult UInt32 × Fatfs) :=
  if csect = 0 then do
    let (clst, fs) ←
      (if fp.fptr = 0 then pure (fp.sclust, fs) else getFat fs fp.clust :
        DiskProg (UInt32 × Fatfs))
    if clst < 2 then return (.error .intErr, fs)
    else if clst = 0xFFFFFFFF then return (.error .diskErr, fs)
    else return (.ok clst, fs)
  else return (.ok fp.clust, fs)

/-- Read sectors directly. The one that is in the buffer is taken from there while it is dirty. -/
def readDirect (fp : Fil) (buff : Buf) (br sect cc : UInt32) : DiskProg (Round × Buf) := do
  let (r, data) ← diskRead (advance br.toNat buff) sect cc
  let buff := memCpy br.toNat data buff
  if r ≠ .ok then return (.abort .diskErr, buff)
  else
    let buff :=
      if fp.faDirty ∧ fp.sect - sect < cc then
        memCpy (br.toNat + ((fp.sect - sect) * ss).toNat) (sectors 1 fp.buf) buff
      else buff
    return (.done (ss * cc), buff)

/-- Extract a partial sector. -/
def copyOut (fp : Fil) (buff : Buf) (btr br : UInt32) : Round × Buf :=
  let rcnt := clipSector fp btr
  (.done rcnt,
    memCpy br.toNat (Blocks.slice fp.buf (fp.fptr % ss).toNat rcnt.toNat) buff)

/-- A round of the loop of `f_read` at the begin of a sector, in the current cluster. -/
def readAt (g : Geometry) (fp : Fil) (buff : Buf) (btr br csect : UInt32) :
    DiskProg (Round × Buf × Fil) :=
  let sect := clst2sect g fp.clust
  if sect = 0 then return (.abort .intErr, buff, fp)
  else
    let sect := sect + csect
    let cc := btr / ss
    if 0 < cc then do
      let (r, buff) ← readDirect fp buff br sect (clip g csect cc)
      return (r, buff, fp)
    else do
      let (res, fp) ← loadSector fp sect
      if res ≠ .ok then return (.abort res, buff, fp)
      else
        let (r, buff) := copyOut fp buff btr br
        return (r, buff, fp)

/-- A round of the loop of `f_read`. -/
def readRound (fs : Fatfs) (fp : Fil) (buff : Buf) (btr br : UInt32) :
    DiskProg (Round × Buf × Fil × Fatfs) :=
  if fp.fptr % ss = 0 then do
    let csect := csectOf fs.toGeometry fp
    match ← readClust fs fp csect with
    | (.error res, fs) => return (.abort res, buff, fp, fs)
    | (.ok clst, fs) =>
      let (r, buff, fp) ← readAt fs.toGeometry { fp with clust := clst } buff btr br csect
      return (r, buff, fp, fs)
  else
    let (r, buff) := copyOut fp buff btr br
    return (r, buff, fp, fs)

/-- The loop of `f_read`, for at most `fuel` rounds. -/
def readLoop : Nat → Fatfs → Fil → Buf → UInt32 → UInt32 →
    DiskProg (FResult × UInt32 × Buf × Fil × Fatfs)
  | 0, fs, fp, buff, _, br => return (.ok, br, buff, fp, fs)
  | fuel + 1, fs, fp, buff, btr, br =>
    if btr = 0 then return (.ok, br, buff, fp, fs)
    else do
      match ← readRound fs fp buff btr br with
      | (.done rcnt, buff, fp, fs) =>
        readLoop fuel fs { fp with fptr := fp.fptr + rcnt } buff (btr - rcnt) (br + rcnt)
      | (.full, buff, fp, fs) => return (.ok, br, buff, fp, fs)
      | (.abort res, buff, fp, fs) => return (res, br, buff, { fp with err := res }, fs)

/-- `f_read` into `buff`, with the number of bytes read. -/
def fRead (fs : Fatfs) (fp : Fil) (buff : Buf) (btr : UInt32) :
    DiskProg (FResult × UInt32 × Buf × Fil × Fatfs) := do
  let res ← validate fs fp
  if res ≠ .ok then return (res, 0, buff, fp, fs)
  else if fp.err ≠ .ok then return (fp.err, 0, buff, fp, fs)
  else if ¬ fp.faRead then return (.denied, 0, buff, fp, fs)
  else
    let remain := fp.objsize - fp.fptr
    let btr := if remain < btr then remain else btr
    readLoop btr.toNat fs fp buff btr 0

/-! ### `f_write` -/

/-- The current cluster of a write. Without a value the round goes on. -/
def writeClust (fs : Fatfs) (fp : Fil) (csect : UInt32) :
    DiskProg (Option Round × Fil × Fatfs) :=
  if csect = 0 then do
    let (clst, fs) ←
      (if fp.fptr = 0 then
          if fp.sclust = 0 then createChain fs 0 else pure (fp.sclust, fs)
        else createChain fs fp.clust :
        DiskProg (UInt32 × Fatfs))
    if clst = 0 then return (some .full, fp, fs)
    else if clst = 1 then return (some (.abort .intErr), fp, fs)
    else if clst = 0xFFFFFFFF then return (some (.abort .diskErr), fp, fs)
    else
      let fp := { fp with clust := clst }
      return (none, if fp.sclust = 0 then { fp with sclust := clst } else fp, fs)
  else return (none, fp, fs)

/-- Write sectors directly. The one that is in the buffer is put there as well. -/
def writeDirect (fp : Fil) (wbuff : Buf) (bw sect cc : UInt32) : DiskProg (Round × Fil) := do
  let res ← diskWrite (advance bw.toNat wbuff) sect cc
  if res ≠ .ok then return (.abort .diskErr, fp)
  else
    let fp :=
      if fp.sect - sect < cc then
        { fp with
          buf :=
            memCpy 0 (sectors 1 (advance (bw.toNat + ((fp.sect - sect) * ss).toNat) wbuff)) fp.buf
          faDirty := false }
      else fp
    return (.done (ss * cc), fp)

/-- Fit data to the sector. -/
def copyIn (fp : Fil) (wbuff : Buf) (btw bw : UInt32) : Round × Fil :=
  let wcnt := clipSector fp btw
  (.done wcnt,
    { fp with
      buf := memCpy (fp.fptr % ss).toNat (Blocks.slice wbuff bw.toNat wcnt.toNat) fp.buf
      faDirty := true })

/-- A round of the loop of `f_write` at the begin of a sector, in the current cluster. -/
def writeAt (g : Geometry) (fp : Fil) (wbuff : Buf) (btw bw csect : UInt32) :
    DiskProg (Round × Fil) := do
  let (res, fp) ← flushSector fp
  if res ≠ .ok then return (.abort res, fp)
  else
    let sect := clst2sect g fp.clust
    if sect = 0 then return (.abort .intErr, fp)
    else
      let sect := sect + csect
      let cc := btw / ss
      if 0 < cc then writeDirect fp wbuff bw sect (clip g csect cc)
      else
        let (res, fp) ←
          (if fp.sect ≠ sect ∧ fp.fptr < fp.objsize then readSector fp sect
            else pure (.ok, fp) : DiskProg (FResult × Fil))
        if res ≠ .ok then return (.abort res, fp)
        else return copyIn { fp with sect := sect } wbuff btw bw

/-- A round of the loop of `f_write`. -/
def writeRound (fs : Fatfs) (fp : Fil) (wbuff : Buf) (btw bw : UInt32) :
    DiskProg (Round × Fil × Fatfs) :=
  if fp.fptr % ss = 0 then do
    let csect := csectOf fs.toGeometry fp
    match ← writeClust fs fp csect with
    | (some r, fp, fs) => return (r, fp, fs)
    | (none, fp, fs) =>
      let (r, fp) ← writeAt fs.toGeometry fp wbuff btw bw csect
      return (r, fp, fs)
  else
    let (r, fp) := copyIn fp wbuff btw bw
    return (r, fp, fs)

/-- The file pointer behind `cnt` bytes that have been written. -/
def Fil.grow (fp : Fil) (cnt : UInt32) : Fil :=
  let fptr := fp.fptr + cnt
  { fp with fptr, objsize := if fp.objsize < fptr then fptr else fp.objsize }

/-- The loop of `f_write`, for at most `fuel` rounds. -/
def writeLoop : Nat → Fatfs → Fil → Buf → UInt32 → UInt32 →
    DiskProg (FResult × UInt32 × Fil × Fatfs)
  | 0, fs, fp, _, _, bw => return (.ok, bw, { fp with faModified := true }, fs)
  | fuel + 1, fs, fp, wbuff, btw, bw =>
    if btw = 0 then return (.ok, bw, { fp with faModified := true }, fs)
    else do
      match ← writeRound fs fp wbuff btw bw with
      | (.done wcnt, fp, fs) => writeLoop fuel fs (fp.grow wcnt) wbuff (btw - wcnt) (bw + wcnt)
      | (.full, fp, fs) => return (.ok, bw, { fp with faModified := true }, fs)
      | (.abort res, fp, fs) => return (res, bw, { fp with err := res }, fs)

/-- `f_write`, with the number of bytes written. -/
def fWrite (fs : Fatfs) (fp : Fil) (wbuff : Buf) (btw : UInt32) :
    DiskProg (FResult × UInt32 × Fil × Fatfs) := do
  let res ← validate fs fp
  if res ≠ .ok then return (res, 0, fp, fs)
  else if fp.err ≠ .ok then return (fp.err, 0, fp, fs)
  else if ¬ fp.faWrite then return (.denied, 0, fp, fs)
  else
    -- a file has less than 4 GiB
    let btw := if fp.fptr + btw < fp.fptr then 0xFFFFFFFF - fp.fptr else btw
    writeLoop btw.toNat fs fp wbuff btw 0

/-! ### `f_lseek` -/

/-- The cluster from which a seek follows the chain, and what is left of the offset. -/
def seekStart (fs : Fatfs) (fp : Fil) (ifptr ofs bcs : UInt32) :
    DiskProg (Except FResult (UInt32 × UInt32) × Fil × Fatfs) :=
  if 0 < ifptr ∧ (ifptr - 1) / bcs ≤ (ofs - 1) / bcs then
    -- the current cluster
    let fptr := (ifptr - 1) &&& ~~~(bcs - 1)
    return (.ok (fp.clust, ofs - fptr), { fp with fptr }, fs)
  else if fp.sclust = 0 then do
    let (clst, fs) ← createChain fs 0
    if clst = 1 then return (.error .intErr, fp, fs)
    else if clst = 0xFFFFFFFF then return (.error .diskErr, fp, fs)
    else return (.ok (clst, ofs), { fp with sclust := clst, clust := clst }, fs)
  else return (.ok (fp.sclust, ofs), { fp with clust := fp.sclust }, fs)

/-- The cluster following loop, for at most `fuel` rounds. The value is the last cluster, 0 if
there is no free one, and what is left of the offset. -/
def seekLoop (bcs : UInt32) : Nat → Fatfs → Fil → UInt32 → UInt32 →
    DiskProg (Except FResult (UInt32 × UInt32) × Fil × Fatfs)
  | 0, fs, fp, clst, ofs => return (.ok (clst, ofs), fp, fs)
  | fuel + 1, fs, fp, clst, ofs =>
    if bcs < ofs then do
      let ofs := ofs - bcs
      let fp := { fp with fptr := fp.fptr + bcs }
      let (clst, fs) ←
        (if fp.faWrite then createChain fs clst else getFat fs clst :
          DiskProg (UInt32 × Fatfs))
      if fp.faWrite ∧ clst = 0 then return (.ok (0, 0), fp, fs)
      else if clst = 0xFFFFFFFF then return (.error .diskErr, fp, fs)
      else if clst ≤ 1 ∨ fs.nFatent ≤ clst then return (.error .intErr, fp, fs)
      else seekLoop bcs fuel fs { fp with clust := clst } clst ofs
    else return (.ok (clst, ofs), fp, fs)

/-- The seek along the chain, to an offset that is not 0. The value is the sector that the buffer
has to show, 0 if none. -/
def seekChain (fs : Fatfs) (fp : Fil) (ifptr ofs : UInt32) :
    DiskProg (Except FResult UInt32 × Fil × Fatfs) := do
  let bcs := fs.csize.toUInt32 * ss
  match ← seekStart fs fp ifptr ofs bcs with
  | (.error res, fp, fs) => return (.error res, fp, fs)
  | (.ok (clst, ofs), fp, fs) =>
    if clst ≠ 0 then
      match ← seekLoop bcs ofs.toNat fs fp clst ofs with
      | (.error res, fp, fs) => return (.error res, fp, fs)
      | (.ok (clst, ofs), fp, fs) =>
        let fp := { fp with fptr := fp.fptr + ofs }
        if ofs % ss ≠ 0 then
          let nsect := clst2sect fs.toGeometry clst
          if nsect = 0 then return (.error .intErr, fp, fs)
          else return (.ok (nsect + ofs / ss), fp, fs)
        else return (.ok 0, fp, fs)
    else return (.ok 0, fp, fs)

/-- The file has changed when the file pointer is behind its end. -/
def Fil.extend (fp : Fil) : Fil :=
  { fp with
    objsize := if fp.objsize < fp.fptr then fp.fptr else fp.objsize
    faModified := fp.faModified || fp.objsize < fp.fptr }

/-- The end of a seek, which has the sector in the buffer. -/
def seekEnd (fs : Fatfs) (fp : Fil) (nsect : UInt32) : DiskProg (FResult × Fil × Fatfs) :=
  let fp := fp.extend
  if fp.fptr % ss ≠ 0 then do
    let (res, fp) ← loadSector fp nsect
    if res ≠ .ok then return (res, { fp with err := res }, fs) else return (.ok, fp, fs)
  else return (.ok, fp, fs)

/-- `f_lseek` -/
def fLseek (fs : Fatfs) (fp : Fil) (ofs : UInt32) : DiskProg (FResult × Fil × Fatfs) := do
  let res ← validate fs fp
  if res ≠ .ok then return (res, fp, fs)
  else if fp.err ≠ .ok then return (fp.err, fp, fs)
  else
    let ofs := if fp.objsize < ofs ∧ ¬ fp.faWrite then fp.objsize else ofs
    let ifptr := fp.fptr
    let fp := { fp with fptr := 0 }
    let (r, fp, fs) ←
      (if 0 < ofs then seekChain fs fp ifptr ofs else pure (.ok 0, fp, fs) :
        DiskProg (Except FResult UInt32 × Fil × Fatfs))
    match r with
    | .error res => return (res, { fp with err := res }, fs)
    | .ok nsect => seekEnd fs fp nsect

/-! ### `f_sync` -/

/-- The offsets in a directory entry. -/
def dirAttr : Nat := 11
def dirLstAccDate : Nat := 18
def dirFstClusHI : Nat := 20
def dirModTime : Nat := 22
def dirFstClusLO : Nat := 26
def dirFileSize : Nat := 28

/-- `AM_ARC` -/
def amArc : UInt8 := 0x20

/-- `ld_clust` on the entry at `dir` -/
def ldClust (fsType : Option FatType) (dir : Nat) (win : Buf) : UInt32 :=
  let cl := (ldWord (dir + dirFstClusLO) win).toUInt32
  if fsType = some .fat32 then cl ||| (ldWord (dir + dirFstClusHI) win).toUInt32 <<< 16 else cl

/-- `st_clust` on the entry at `dir` -/
def stClust (fsType : Option FatType) (dir : Nat) (cl : UInt32) (win : Buf) : Buf :=
  let win := stWord (dir + dirFstClusLO) cl.toUInt16 win
  if fsType = some .fat32 then stWord (dir + dirFstClusHI) (cl >>> 16).toUInt16 win else win

/-- What `f_sync` makes of the directory entry of the file. -/
def syncEntry (fs : Fatfs) (fp : Fil) (tm : UInt32) : Buf :=
  let dir := fp.dirPtr
  let win := memCpy (dir + dirAttr) [fs.win (dir + dirAttr) ||| amArc] fs.win
  let win := stClust fs.fsType dir fp.sclust win
  let win := stDword (dir + dirFileSize) fp.objsize win
  let win := stDword (dir + dirModTime) tm win
  stWord (dir + dirLstAccDate) 0 win

/-- Update the directory entry. -/
def storeEntry (fs : Fatfs) (fp : Fil) (tm : UInt32) : DiskProg (FResult × Fil × Fatfs) := do
  let (res, fs) ← moveWindow fs fp.dirSect
  if res ≠ .ok then return (res, fp, fs)
  else
    let fs := { fs with win := syncEntry fs fp tm, wflag := true }
    let (res, fs) ← syncFs fs
    return (res, { fp with faModified := false }, fs)

/-- `f_sync` at the time `tm`. -/
def fSync (fs : Fatfs) (fp : Fil) (tm : UInt32) : DiskProg (FResult × Fil × Fatfs) := do
  let res ← validate fs fp
  if res ≠ .ok then return (res, fp, fs)
  else if fp.faModified then
    let (res, fp) ← flushSector fp
    if res ≠ .ok then return (res, fp, fs) else storeEntry fs fp tm
  else return (.ok, fp, fs)

/-- `f_close`, without the table of open objects. -/
def fClose (fs : Fatfs) (fp : Fil) (tm : UInt32) : DiskProg (FResult × Fil × Fatfs) := do
  let (res, fp, fs) ← fSync fs fp tm
  if res ≠ .ok then return (res, fp, fs)
  else
    let res ← validate fs fp
    if res ≠ .ok then return (res, fp, fs) else return (.ok, { fp with hasFs := false }, fs)

/-- The last part of `f_open`, which fills the object from the entry that the window shows at
`dir`. -/
def openFil (fs : Fatfs) (fp : Fil) (dir : Nat) (faRead faWrite faModified : Bool) : Fil :=
  { fp with
    hasFs := true
    id := fs.id
    faRead, faWrite, faModified
    dirSect := fs.winsect
    dirPtr := dir
    sclust := ldClust fs.fsType dir fs.win
    objsize := ldDword (dir + dirFileSize) fs.win
    err := .ok
    faDirty := false
    sect := 0
    fptr := 0
    buf := memClear ss fp.buf }

end NucleoH743.Ff
