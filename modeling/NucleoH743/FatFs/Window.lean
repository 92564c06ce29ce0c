import NucleoH743.FatFs.Mkfs
import NucleoH743.Lib.Choice

/-!
# `FatFs.Window`: the filesystem object and its window

The filesystem object `FATFS` of `ff.c` on a drive, and the functions that move its sector window:
`sync_window`, `move_window` and `sync_fs`. FatFs is built with sectors of 4096 bytes, LBA of 32
bits, and without exFAT, long names, relative paths, fast seek and the tiny configuration.

`diskHandle` is a drive that answers the disk functions. It may fail in any of them, and a write
that fails leaves any content in its sectors.

All that FatFs reads of the FAT and of a directory goes through one buffer of a sector, the window.
It has the sector `winsect`, and a change to it stays there, under the mark `wflag`, until the
window is moved or synced: `sync_window` writes the sector back, and to the second FAT as well when
it is a sector of the first.

`move_window` does nothing when the sector is there already. When the write back fails the window
stays as it is; when the read fails it has no valid sector any more, so that the next call reads its
sector anew.
-/

set_option autoImplicit false

namespace NucleoH743.Ff

open Diskio Mkfs

/-- `FRESULT` -/
inductive FResult where
  | ok | diskErr | intErr | notReady | noFile | noPath | invalidName | denied | exist
  | invalidObject | writeProtected | invalidDrive | notEnabled | noFilesystem
  deriving DecidableEq, Repr

/-! ### The drive -/

/-- The content of the drive by byte. -/
abbrev Image := Nat → UInt8

/-- The address of a sector. -/
def sectAddr (sect : UInt32) : Nat := sect.toNat * 4096

/-- How the drive answers a disk function. -/
inductive Answer where
  | done
  /-- the function fails, and leaves `junk` where it was to read or to write -/
  | failed (junk : Image)

/-- A drive without write protection. -/
def diskHandle : Answer → (o : DiskOp) → Image → o.Res × Image
  | .done, .init, d => (DResult.ok, d)
  | .done, .status, d => (DResult.ok, d)
  | .done, .read _ sector count, d =>
    ((DResult.ok, Blocks.slice d (sectAddr sector) (count * 4096)), d)
  | .done, .write buff sector _, d => (DResult.ok, Blocks.store d (sectAddr sector) buff)
  | .done, .ioctl cmd buff, d => (diskIoctl cmd buff, d)
  | .failed _, .init, d => (DResult.error, d)
  | .failed _, .status, d => (DResult.error, d)
  | .failed junk, .read _ sector count, d =>
    ((DResult.error, Blocks.slice junk (sectAddr sector) (count * 4096)), d)
  | .failed junk, .write buff sector _, d =>
    (DResult.error,
      Blocks.store d (sectAddr sector) (Blocks.slice junk (sectAddr sector) buff.length))
  | .failed _, .ioctl _ buff, d => ((DResult.error, buff), d)

/-- A call of `disk_read` into the first sectors of the buffer. The value has the bytes that are
there afterwards. -/
def diskRead (buf : Buf) (sector count : UInt32) : DiskProg (DResult × List UInt8) :=
  Prog.call (DiskOp.read (sectors count buf) sector count.toNat)

/-! ### The filesystem object -/

/-- What the mount of a volume sets. -/
structure Geometry where
  /-- `fs_type`, `none` for 0 -/
  fsType : Option FatType
  nFats : UInt8
  nRootdir : UInt16
  csize : UInt16
  nFatent : UInt32
  fsize : UInt32
  volbase : UInt32
  fatbase : UInt32
  dirbase : UInt32
  database : UInt32
  deriving DecidableEq, Repr

/-- What is known of the free clusters. -/
structure AllocInfo where
  lastClst : UInt32
  freeClst : UInt32
  fsiFlag : UInt8
  deriving DecidableEq, Repr

/-- The window. -/
structure Window where
  wflag : Bool
  winsect : UInt32
  win : Buf

/-- The filesystem object `FATFS`. -/
structure Fatfs extends Geometry, AllocInfo, Window where
  id : UInt16

/-- `ld_word` -/
def ldWord (ptr : Nat) (buf : Buf) : UInt16 := (LittleEndian.load 2 buf ptr).toUInt16

/-- `ld_dword` -/
def ldDword (ptr : Nat) (buf : Buf) : UInt32 := (LittleEndian.load 4 buf ptr).toUInt32

/-! ### Moving the window -/

/-- `sync_window` -/
def syncWindow (fs : Fatfs) : DiskProg (FResult × Fatfs) :=
  if fs.wflag then do
    let res ← diskWrite fs.win fs.winsect 1
    if res = .ok then
      let fs := { fs with wflag := false }
      if fs.winsect - fs.fatbase < fs.fsize then
        -- a sector of the first FAT goes to the second one as well
        if fs.nFats = 2 then
          let _ ← diskWrite fs.win (fs.winsect + fs.fsize) 1
          return (.ok, fs)
        else return (.ok, fs)
      else return (.ok, fs)
    else return (.diskErr, fs)
  else return (.ok, fs)

/-- `move_window` -/
def moveWindow (fs : Fatfs) (sect : UInt32) : DiskProg (FResult × Fatfs) :=
  if sect ≠ fs.winsect then do
    let (res, fs) ← syncWindow fs
    if res = .ok then
      let (r, data) ← diskRead fs.win sect 1
      let fs := { fs with win := memCpy 0 data fs.win }
      -- the window is invalid if the data is
      if r ≠ .ok then return (.diskErr, { fs with winsect := 0 - 1 })
      else return (.ok, { fs with winsect := sect })
    else return (res, fs)
  else return (.ok, fs)

/-- The FSINFO record that `sync_fs` makes in the window. -/
def fsinfoWindow (fs : Fatfs) : Buf :=
  let win := memClear ss fs.win
  let win := stWord bs55AA 0xAA55 win
  let win := stDword 0 0x41615252 win
  let win := stDword 484 0x61417272 win
  let win := stDword 488 fs.freeClst win
  stDword 492 fs.lastClst win

/-- `sync_fs` -/
def syncFs (fs : Fatfs) : DiskProg (FResult × Fatfs) := do
  let (res, fs) ← syncWindow fs
  if res = .ok then
    let fs ← (if fs.fsType = some .fat32 ∧ fs.fsiFlag = 1 then do
        let fs := { fs with win := fsinfoWindow fs, winsect := fs.volbase + 1 }
        let _ ← diskWrite fs.win fs.winsect 1
        pure { fs with fsiFlag := 0 }
      else pure fs : DiskProg Fatfs)
    let (r, _) ← ioctl ctrlSync 0
    if r ≠ .ok then return (.diskErr, fs) else return (.ok, fs)
  else return (res, fs)

end NucleoH743.Ff
