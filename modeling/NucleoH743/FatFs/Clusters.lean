import NucleoH743.FatFs.Window

/-!
# `FatFs.Clusters`: the FAT and the cluster chains

`clst2sect`, `get_fat`, `put_fat`, `create_chain` and `remove_chain` of `ff.c` for the sub-types
FAT12, FAT16 and FAT32.

The two loops take a bound on their rounds, the number of FAT entries: the search visits each
cluster once, and a chain that is removed has no cluster twice, because each one that is freed
ends it.

An entry of the FAT has 12, 16 or 28 bits, and `get_fat` and `put_fat` have a branch for each. The
entries of 12 bits are the hard ones: two of them share a byte, and an entry may begin in one sector
and end in the next, so its two bytes are read and written through two moves of the window.

`create_chain` looks for a free cluster behind the last one that it gave out, or behind the end of
the chain, and goes once around the volume. It writes the end mark of the new cluster before the
link to it, so a failure in between leaves a cluster that no chain reaches, and the chain as it was.
-/

set_option autoImplicit false

namespace NucleoH743.Ff

open Diskio Mkfs

/-- `clst2sect` -/
def clst2sect (g : Geometry) (clst : UInt32) : UInt32 :=
  let clst := clst - 2
  if g.nFatent - 2 ≤ clst then 0 else g.database + g.csize.toUInt32 * clst

/-! ### The entries of the FAT -/

/-- `get_fat` -/
def getFat (fs : Fatfs) (clst : UInt32) : DiskProg (UInt32 × Fatfs) :=
  if clst < 2 ∨ fs.nFatent ≤ clst then return (1, fs)
  else
    match fs.fsType with
    | some .fat12 => do
      let bc := clst + clst / 2
      let (res, fs) ← moveWindow fs (fs.fatbase + bc / ss)
      if res ≠ .ok then return (0xFFFFFFFF, fs)
      else
        let wc := (fs.win (bc % ss).toNat).toUInt32
        let bc := bc + 1
        let (res, fs) ← moveWindow fs (fs.fatbase + bc / ss)
        if res ≠ .ok then return (0xFFFFFFFF, fs)
        else
          let wc := wc ||| (fs.win (bc % ss).toNat).toUInt32 <<< 8
          return (if clst &&& 1 ≠ 0 then wc >>> 4 else wc &&& 0xFFF, fs)
    | some .fat16 => do
      let (res, fs) ← moveWindow fs (fs.fatbase + clst / (ss / 2))
      if res ≠ .ok then return (0xFFFFFFFF, fs)
      else return ((ldWord (clst * 2 % ss).toNat fs.win).toUInt32, fs)
    | some .fat32 => do
      let (res, fs) ← moveWindow fs (fs.fatbase + clst / (ss / 4))
      if res ≠ .ok then return (0xFFFFFFFF, fs)
      else return (ldDword (clst * 4 % ss).toNat fs.win &&& 0x0FFFFFFF, fs)
    | none => return (1, fs)

/-- The first byte of a FAT12 entry, where the byte was `old`. -/
def fat12First (clst val : UInt32) (old : UInt8) : UInt8 :=
  if clst &&& 1 ≠ 0 then (old &&& (0x0F : UInt8)) ||| val.toUInt8 <<< 4 else val.toUInt8

/-- The second byte of a FAT12 entry. -/
def fat12Second (clst val : UInt32) (old : UInt8) : UInt8 :=
  if clst &&& 1 ≠ 0 then (val >>> 4).toUInt8
  else (old &&& (0xF0 : UInt8)) ||| ((val >>> 8).toUInt8 &&& (0x0F : UInt8))

/-- `put_fat` -/
def putFat (fs : Fatfs) (clst val : UInt32) : DiskProg (FResult × Fatfs) :=
  if 2 ≤ clst ∧ clst < fs.nFatent then
    match fs.fsType with
    | some .fat12 => do
      let bc := clst + clst / 2
      let (res, fs) ← moveWindow fs (fs.fatbase + bc / ss)
      if res ≠ .ok then return (res, fs)
      else
        let p := (bc % ss).toNat
        let fs := { fs with win := memCpy p [fat12First clst val (fs.win p)] fs.win, wflag := true }
        let bc := bc + 1
        let (res, fs) ← moveWindow fs (fs.fatbase + bc / ss)
        if res ≠ .ok then return (res, fs)
        else
          let p := (bc % ss).toNat
          return (.ok,
            { fs with win := memCpy p [fat12Second clst val (fs.win p)] fs.win, wflag := true })
    | some .fat16 => do
      let (res, fs) ← moveWindow fs (fs.fatbase + clst / (ss / 2))
      if res ≠ .ok then return (res, fs)
      else
        let p := (clst * 2 % ss).toNat
        return (.ok, { fs with win := stWord p val.toUInt16 fs.win, wflag := true })
    | some .fat32 => do
      let (res, fs) ← moveWindow fs (fs.fatbase + clst / (ss / 4))
      if res ≠ .ok then return (res, fs)
      else
        let p := (clst * 4 % ss).toNat
        let val := val &&& 0x0FFFFFFF ||| ldDword p fs.win &&& 0xF0000000
        return (.ok, { fs with win := stDword p val fs.win, wflag := true })
    | none => return (.intErr, fs)
  else return (.intErr, fs)

/-! ### Removing a chain -/

/-- The loop of `remove_chain`, for at most `fuel` clusters. -/
def removeLoop : Nat → Fatfs → UInt32 → DiskProg (FResult × Fatfs)
  | 0, fs, _ => return (.intErr, fs)
  | fuel + 1, fs, clst => do
    let (nxt, fs) ← getFat fs clst
    if nxt = 0 then return (.ok, fs)
    else if nxt = 1 then return (.intErr, fs)
    else if nxt = 0xFFFFFFFF then return (.diskErr, fs)
    else
      let (res, fs) ← putFat fs clst 0
      if res ≠ .ok then return (res, fs)
      else
        let fs :=
          if fs.freeClst < fs.nFatent - 2 then
            { fs with freeClst := fs.freeClst + 1, fsiFlag := fs.fsiFlag ||| 1 }
          else fs
        if nxt < fs.nFatent then removeLoop fuel fs nxt else return (.ok, fs)

/-- `remove_chain` -/
def removeChain (fs : Fatfs) (clst pclst : UInt32) : DiskProg (FResult × Fatfs) :=
  if clst < 2 ∨ fs.nFatent ≤ clst then return (.intErr, fs)
  else do
    let (res, fs) ←
      (if pclst ≠ 0 then putFat fs pclst 0xFFFFFFFF else pure (.ok, fs) :
        DiskProg (FResult × Fatfs))
    if res ≠ .ok then return (res, fs)
    else removeLoop fs.nFatent.toNat fs clst

/-! ### Stretching a chain -/

/-- The search for a free cluster behind `ncl`, once around and up to `scl`, for at most `fuel`
clusters. Without one the value is what `create_chain` returns. -/
def searchLoop (scl : UInt32) : Nat → Fatfs → UInt32 → DiskProg (Except UInt32 UInt32 × Fatfs)
  | 0, fs, _ => return (.error 0, fs)
  | fuel + 1, fs, ncl =>
    let ncl := ncl + 1
    -- the wrap-around, where the search began in front of the clusters
    if fs.nFatent ≤ ncl ∧ scl < 2 then return (.error 0, fs)
    else do
      let ncl := if fs.nFatent ≤ ncl then 2 else ncl
      let (cs, fs) ← getFat fs ncl
      if cs = 0 then return (.ok ncl, fs)
      else if cs = 1 ∨ cs = 0xFFFFFFFF then return (.error cs, fs)
      else if ncl = scl then return (.error 0, fs)
      else searchLoop scl fuel fs ncl

/-- A free cluster for the chain that ends at `clst`, or for a new one, from `scl` on. -/
def findFree (fs : Fatfs) (clst scl : UInt32) : DiskProg (Except UInt32 UInt32 × Fatfs) :=
  if scl = clst then do
    -- the next cluster, so that the chain stays contiguous
    let ncl := if fs.nFatent ≤ scl + 1 then 2 else scl + 1
    let (cs, fs) ← getFat fs ncl
    if cs = 1 ∨ cs = 0xFFFFFFFF then return (.error cs, fs)
    else if cs ≠ 0 then
      let cs := fs.lastClst
      let scl := if 2 ≤ cs ∧ cs < fs.nFatent then cs else scl
      searchLoop scl fs.nFatent.toNat fs scl
    else return (.ok ncl, fs)
  else searchLoop scl fs.nFatent.toNat fs scl

/-- The new cluster `ncl` becomes the end of the chain. -/
def linkCluster (fs : Fatfs) (clst ncl : UInt32) : DiskProg (UInt32 × Fatfs) := do
  let (res, fs) ← putFat fs ncl 0xFFFFFFFF
  let (res, fs) ←
    (if res = .ok ∧ clst ≠ 0 then putFat fs clst ncl else pure (res, fs) :
      DiskProg (FResult × Fatfs))
  if res = .ok then
    let freeClst := if fs.freeClst ≤ fs.nFatent - 2 then fs.freeClst - 1 else fs.freeClst
    return (ncl, { fs with lastClst := ncl, freeClst, fsiFlag := fs.fsiFlag ||| 1 })
  else return (if res = .diskErr then 0xFFFFFFFF else 1, fs)

/-- `create_chain` from the test of `free_clst` on. -/
def stretchChain (fs : Fatfs) (clst scl : UInt32) : DiskProg (UInt32 × Fatfs) :=
  if fs.freeClst = 0 then return (0, fs)
  else do
    match ← findFree fs clst scl with
    | (.error cs, fs) => return (cs, fs)
    | (.ok ncl, fs) => linkCluster fs clst ncl

/-- `create_chain` -/
def createChain (fs : Fatfs) (clst : UInt32) : DiskProg (UInt32 × Fatfs) :=
  if clst = 0 then
    let scl := fs.lastClst
    stretchChain fs clst (if scl = 0 ∨ fs.nFatent ≤ scl then 1 else scl)
  else do
    let (cs, fs) ← getFat fs clst
    if cs < 2 then return (1, fs)
    else if cs = 0xFFFFFFFF then return (cs, fs)
    else if cs < fs.nFatent then return (cs, fs)
    else stretchChain fs clst clst

end NucleoH743.Ff
