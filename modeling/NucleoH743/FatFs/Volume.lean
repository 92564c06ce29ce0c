import Mathlib.Logic.Function.Basic
import Mathlib.Data.Fin.Basic

/-!
# `FatFs.Volume`: logical drive 0 behind the FatFs calls

The firmware builds FatFs with one logical drive (`FF_VOLUMES = 1`), without a re-entrancy
lock (`FF_FS_REENTRANT = 0`) and with an open-object table of two entries
(`FF_FS_LOCK = 2`). `Volume` holds what the API calls share: the registered `FATFS` object,
the mount state of both `FATFS` objects of the firmware, the mount counter `Fsid`, the table
`Files` of open objects, and the directory entries on the disk.

A `Fil` carries the file as its cluster chain and `objsize` give it. What `fWrite` changes
reaches the directory entry in `fSync`, which `fClose` calls first; every call on a file
object tests `validate`.

The disk of this firmware always answers `RES_OK`, so no call of the model returns
`FR_DISK_ERR`.

Two things are simpler than in `ff.c`. `follow` and `nodes` are not computed from the sectors of
the disk: what a path denotes is `follow_path` on the directory entries (`FatFs.Follow`), and the
FAT, the window and the directory sectors are modelled apart from this, in `FatFs.Window` and the
modules behind it. And a directory entry that `f_open` has made or emptied counts as on the disk at
once. In `ff.c` it is in the window first, and a remount before the window is written back, by an
access to another sector or by `f_sync`, loses it; `fMount` keeps it.
-/

set_option autoImplicit false

namespace NucleoH743.FatFs

/-- The result codes the modelled calls return (`FRESULT`). -/
inductive FResult where
  | ok | intErr | noFile | noPath | invalidName | denied | invalidObject | notEnabled
  | noFilesystem | locked | tooManyOpenFiles | exist
  deriving DecidableEq, Repr

/-- The two `FATFS` objects of the firmware: `filesystem` of the disk driver, which the TFTP
and HTTP servers mount, and the static `fatfs` of the FTP server. -/
inductive FsObj where
  | filesystem | fatfs
  deriving DecidableEq, Repr

/-- The fields of a `FATFS` object that `validate` reads. -/
structure Fatfs where
  /-- `fs_type`: the FAT sub-type, 0 while the object is not mounted -/
  fsType : Nat := 0
  /-- `id`: the volume mount ID -/
  id : UInt16 := 0
  deriving DecidableEq, Repr

/-- A path name, its bytes up to the NUL. -/
abbrev Path := List UInt8

/-- A directory entry, named by the path that leads to it. -/
abbrev Entry := List UInt8

/-- What `follow_path` finds a path name to denote. -/
inductive Follow where
  /-- the root directory itself (`NS_NONAME`) -/
  | origin
  /-- a directory entry, present or not -/
  | entry (e : Entry)
  /-- `FR_INVALID_NAME` -/
  | invalidName
  /-- `FR_NO_PATH` -/
  | noPath
  deriving DecidableEq, Repr

/-- What a directory entry holds. -/
inductive Node where
  | file (data : List UInt8)
  | dir
  deriving DecidableEq, Repr

/-- One used element of the open-object table `Files`; `fs` and `entry` identify the object
(`fs`, `clu` and `ofs` in the source). -/
structure Lock where
  fs : FsObj
  entry : Entry
  ctr : Nat
  deriving DecidableEq, Repr

/-- Logical drive 0. -/
structure Volume where
  /-- `FatFs[0]`, the registered filesystem object -/
  fatFs : Option FsObj
  /-- the state of the `FATFS` objects -/
  obj : FsObj → Fatfs
  /-- `Fsid`, the mount counter -/
  fsid : UInt16
  /-- the FAT sub-type that the analysis of the disk finds, 0 when it finds none -/
  fmt : Nat
  /-- `Files`, the open-object table -/
  files : Fin 2 → Option Lock
  /-- `follow_path` -/
  follow : Path → Follow
  /-- the directory entries on the disk -/
  nodes : Entry → Option Node

/-- A file object `FIL`. -/
structure Fil where
  /-- `obj.fs`: the owner, `none` for a null pointer -/
  fs : Option FsObj := none
  /-- `obj.id`: the mount ID at the open -/
  id : UInt16 := 0
  /-- `obj.lockid`, counted from 0 -/
  lockid : Fin 2 := 0
  /-- the directory entry (`dir_sect`, `dir_ptr`) -/
  entry : Entry := []
  /-- `FA_READ` of `flag` -/
  faRead : Bool := false
  /-- `FA_WRITE` of `flag` -/
  faWrite : Bool := false
  /-- `FA_MODIFIED` of `flag` -/
  faModified : Bool := false
  /-- the file pointer -/
  fptr : Nat := 0
  /-- the first `obj.objsize` bytes of the cluster chain -/
  data : List UInt8 := []
  deriving DecidableEq, Repr

/-- A file object that was never opened. -/
def Fil.null : Fil := {}

/-- The bits of the `mode` argument of `fOpen` that the firmware uses. -/
structure Mode where
  faRead : Bool := false
  faWrite : Bool := false
  faCreateAlways : Bool := false
  faOpenAlways : Bool := false
  deriving DecidableEq, Repr

namespace Mode

/-- `mode & ~FA_READ`: the access type that the open-object table sees. -/
def acc (m : Mode) : Bool := m.faWrite || m.faCreateAlways || m.faOpenAlways

/-- The open may create the file. -/
def creates (m : Mode) : Bool := m.faCreateAlways || m.faOpenAlways

end Mode

/-! ### The open-object table -/

section Locks

/-- The first slot of the table that satisfies `p`. -/
def findSlot (files : Fin 2 → Option Lock) (p : Option Lock → Bool) : Option (Fin 2) :=
  if p (files 0) then some 0 else if p (files 1) then some 1 else none

/-- The slot holds the object `e` of the filesystem object `fs`. -/
def Lock.holds (fs : FsObj) (e : Entry) : Option Lock → Bool
  | some l => l.fs = fs ∧ l.entry = e
  | none => false

/-- `chk_lock` for a read (`acc = false`) or write access. -/
def chkLock (v : Volume) (fs : FsObj) (e : Entry) (acc : Bool) : FResult :=
  match findSlot v.files (Lock.holds fs e) with
  | none => if (findSlot v.files Option.isNone).isNone then .tooManyOpenFiles else .ok
  | some i => if acc ∨ ((v.files i).map Lock.ctr) = some 0x100 then .locked else .ok

/-- `enq_lock`: is there a free slot for a new object? -/
def enqLock (v : Volume) : Bool := (findSlot v.files Option.isNone).isSome

/-- `inc_lock`: the slot of the object after one more open of it; `none` is the index 0 of an
internal error. -/
def incLock (v : Volume) (fs : FsObj) (e : Entry) (acc : Bool) : Option (Fin 2 × Volume) :=
  let register (i : Fin 2) (ctr : Nat) : Option (Fin 2 × Volume) :=
    if acc ∧ ctr ≠ 0 then none
    else
      let l : Lock := { fs, entry := e, ctr := if acc then 0x100 else ctr + 1 }
      some (i, { v with files := Function.update v.files i (some l) })
  match findSlot v.files (Lock.holds fs e) with
  | some i => register i (((v.files i).map Lock.ctr).getD 0)
  | none =>
    match findSlot v.files Option.isNone with
    | some i => register i 0
    | none => none

/-- `dec_lock`: one close of the object in slot `i`. -/
def decLock (v : Volume) (i : Fin 2) : Volume :=
  let ctr := ((v.files i).map Lock.ctr).getD 0
  let n := (if ctr = 0x100 then 0 else ctr) - 1
  let slot := if n = 0 then none else (v.files i).map fun l => { l with ctr := n }
  { v with files := Function.update v.files i slot }

/-- `clear_lock`: drop the objects of one filesystem object. -/
def clearLock (v : Volume) (fs : FsObj) : Volume :=
  { v with files := fun i => (v.files i).filter fun l => l.fs ≠ fs }

end Locks

/-! ### Mounting -/

/-- `fs_type = 0`. -/
def clearFs (v : Volume) (fs : FsObj) : Volume :=
  { v with obj := Function.update v.obj fs { v.obj fs with fsType := 0 } }

/-- `f_mount(fs, "", 0)`: clear the registered object and the new one, and register the new
one, `none` for a null pointer. With `opt = 0` the call returns `FR_OK`. The directory entries
stay, also one that a file object which is still open has made. -/
def fMount (v : Volume) (fs : Option FsObj) : Volume :=
  let v := match v.fatFs with
    | some cfs => clearFs (clearLock v cfs) cfs
    | none => v
  let v := match fs with
    | some fs => clearFs v fs
    | none => v
  { v with fatFs := fs }

/-- `mount_volume`: mount the registered object if it is not mounted yet. -/
def mountVolume (v : Volume) : FResult × Volume :=
  match v.fatFs with
  | none => (.notEnabled, v)
  | some fs =>
    if (v.obj fs).fsType ≠ 0 then (.ok, v)
    else if v.fmt = 0 then (.noFilesystem, v)
    else
      (.ok, clearLock
        { v with
          obj := Function.update v.obj fs { fsType := v.fmt, id := v.fsid + 1 }
          fsid := v.fsid + 1 } fs)

/-- `validate` on the owner and mount ID of a file or directory object. -/
def validate (v : Volume) (fs : Option FsObj) (id : UInt16) : Bool :=
  match fs with
  | none => false
  | some fs => (v.obj fs).fsType ≠ 0 ∧ id = (v.obj fs).id

/-- The file object passes `validate`. -/
def Fil.valid (fp : Fil) (v : Volume) : Bool := validate v fp.fs fp.id

/-! ### File calls -/

/-- The file that a path name denotes. -/
def fileContent (v : Volume) (path : Path) : Option (List UInt8) :=
  match v.follow path with
  | .entry e =>
    match v.nodes e with
    | some (.file data) => some data
    | _ => none
  | _ => none

/-- The directory entry that an open finds or creates, with the bytes of the file. `slot` says
whether the directory has room for a new entry. -/
def openEntry (v : Volume) (fs : FsObj) (path : Path) (mode : Mode) (slot : Bool) :
    Except FResult (Entry × List UInt8 × Volume) :=
  match v.follow path with
  | .invalidName | .origin => .error .invalidName
  | .noPath => .error .noPath
  | .entry e =>
    match v.nodes e with
    | none =>
      if mode.creates then
        if enqLock v then
          if slot then
            .ok (e, [], { v with nodes := Function.update v.nodes e (some (.file [])) })
          else .error .denied
        else .error .tooManyOpenFiles
      else .error .noFile
    | some node =>
      match chkLock v fs e mode.acc with
      | .ok =>
        match node with
        | .dir => .error (if mode.creates then .denied else .noFile)
        | .file data =>
          if mode.faCreateAlways then
            .ok (e, [], { v with nodes := Function.update v.nodes e (some (.file [])) })
          else .ok (e, data, v)
      | res => .error res

/-- `f_open(fp, path, mode)`. A failed open clears the owner of the file object. -/
def fOpen (v : Volume) (fp : Fil) (path : Path) (mode : Mode) (slot : Bool) :
    FResult × Fil × Volume :=
  match mountVolume v, v.fatFs with
  | (.ok, v), some fs =>
    match openEntry v fs path mode slot with
    | .error res => (res, { fp with fs := none }, v)
    | .ok (e, data, v') =>
      match incLock v' fs e mode.acc with
      | none => (.intErr, { fp with fs := none }, v')
      | some (i, v'') =>
        -- a file that the open created or emptied carries `FA_MODIFIED`
        (.ok, { fs := some fs, id := (v''.obj fs).id, lockid := i, entry := e,
                faRead := mode.faRead, faWrite := mode.faWrite,
                faModified := mode.faCreateAlways || (v.nodes e).isNone,
                fptr := 0, data := data }, v'')
  | (res, v), _ => (res, { fp with fs := none }, v)

/-- `f_read(fp, buff, btr, &br)`: the result, the bytes read and the file object. -/
def fRead (v : Volume) (fp : Fil) (btr : Nat) : FResult × List UInt8 × Fil :=
  if fp.valid v then
    if fp.faRead then
      let bytes := (fp.data.drop fp.fptr).take btr
      (.ok, bytes, { fp with fptr := fp.fptr + bytes.length })
    else (.denied, [], fp)
  else (.invalidObject, [], fp)

/-- `f_write(fp, buff, btw, &bw)`: the result, the count `bw` and the file object. The disk
has clusters for `room` of the bytes. -/
def fWrite (v : Volume) (fp : Fil) (buff : List UInt8) (room : Nat) : FResult × Nat × Fil :=
  if fp.valid v then
    if fp.faWrite then
      let bytes := buff.take room
      (.ok, bytes.length,
        { fp with
          data := fp.data.take fp.fptr ++ bytes ++ fp.data.drop (fp.fptr + bytes.length)
          fptr := fp.fptr + bytes.length
          faModified := true })
    else (.denied, 0, fp)
  else (.invalidObject, 0, fp)

/-- `f_sync(fp)`: a changed file goes to its directory entry. -/
def fSync (v : Volume) (fp : Fil) : FResult × Fil × Volume :=
  if fp.valid v then
    if fp.faModified then
      (.ok, { fp with faModified := false },
        { v with nodes := Function.update v.nodes fp.entry (some (.file fp.data)) })
    else (.ok, fp, v)
  else (.invalidObject, fp, v)

/-- `f_close(fp)`. -/
def fClose (v : Volume) (fp : Fil) : FResult × Fil × Volume :=
  match fSync v fp with
  | (.ok, fp, v) => (.ok, { fp with fs := none }, decLock v fp.lockid)
  | (res, fp, v) => (res, fp, v)

/-- `f_lseek(fp, ofs)` on a file object that was opened for reading only. -/
def fLseek (v : Volume) (fp : Fil) (ofs : Nat) : FResult × Fil :=
  if fp.valid v then (.ok, { fp with fptr := min ofs fp.data.length })
  else (.invalidObject, fp)

/-! ### Directory calls -/

/-- `f_unlink(path)`. `removable` says that the object is neither read-only nor a directory
with entries. -/
def fUnlink (v : Volume) (path : Path) (removable : Bool) : FResult × Volume :=
  match mountVolume v, v.fatFs with
  | (.ok, v), some fs =>
    match v.follow path with
    | .invalidName | .origin => (.invalidName, v)
    | .noPath => (.noPath, v)
    | .entry e =>
      if (v.nodes e).isNone then (.noFile, v)
      -- `chk_lock` for a removal rejects every open object
      else if (findSlot v.files (Lock.holds fs e)).isSome then (.locked, v)
      else if removable then (.ok, { v with nodes := Function.update v.nodes e none })
      else (.denied, v)
  | (res, v), _ => (res, v)

/-- `f_mkdir(path)`. `slot` says whether the disk has room for the directory and its entry. -/
def fMkdir (v : Volume) (path : Path) (slot : Bool) : FResult × Volume :=
  match mountVolume v, v.fatFs with
  | (.ok, v), some _ =>
    match v.follow path with
    | .invalidName => (.invalidName, v)
    | .noPath => (.noPath, v)
    | .origin => (.exist, v)
    | .entry e =>
      if (v.nodes e).isSome then (.exist, v)
      else if slot then (.ok, { v with nodes := Function.update v.nodes e (some .dir) })
      else (.denied, v)
  | (res, v), _ => (res, v)

/-- A directory object `DIR`. -/
structure Dir where
  /-- `obj.fs` -/
  fs : Option FsObj := none
  /-- `obj.id` -/
  id : UInt16 := 0
  /-- `obj.lockid`, `none` for the root directory, which is not locked -/
  lockid : Option (Fin 2) := none
  deriving DecidableEq, Repr

/-- `f_opendir(dp, path)`. -/
def fOpendir (v : Volume) (path : Path) : FResult × Dir × Volume :=
  match mountVolume v, v.fatFs with
  | (.ok, v), some fs =>
    let dir : Dir := { fs := some fs, id := (v.obj fs).id }
    match v.follow path with
    | .invalidName => (.invalidName, {}, v)
    | .noPath => (.noPath, {}, v)
    | .origin => (.ok, dir, v)
    | .entry e =>
      match v.nodes e with
      | some .dir =>
        match incLock v fs e false with
        | some (i, v) => (.ok, { dir with lockid := some i }, v)
        | none => (.tooManyOpenFiles, {}, v)
      | _ => (.noPath, {}, v)
  | (res, v), _ => (res, {}, v)

end NucleoH743.FatFs
