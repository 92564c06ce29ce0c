import NucleoH743.FatFs.File
import NucleoH743.FatFs.Volume

/-!
# `FatFs.Files`: calls on several file objects

The file calls of the services share the filesystem object and the drive. A run is a list of calls,
each on the file object that it names.

Nothing here is in `ff.c`, whose functions know one file object at a time. What its callers do with
them is one program here, so that a theorem can say that two files do not disturb each other: each
call works on the object that it names and on the filesystem object that all share.
-/

set_option autoImplicit false

namespace NucleoH743.Ff

open Mkfs

/-- A call on an open file. -/
inductive FileCall where
  | read (buff : Buf) (btr : UInt32)
  | write (buff : Buf) (btw : UInt32)
  | lseek (ofs : UInt32)
  | sync (tm : UInt32)

/-- What the caller gets back. -/
inductive Reply where
  | read (res : FResult) (br : UInt32) (buff : Buf)
  | write (res : FResult) (bw : UInt32)
  | lseek (res : FResult)
  | sync (res : FResult)

/-- One call. -/
def callFile (fs : Fatfs) (fp : Fil) : FileCall → DiskProg (Reply × Fil × Fatfs)
  | .read buff btr => do
    let (res, br, buff, fp, fs) ← fRead fs fp buff btr
    return (.read res br buff, fp, fs)
  | .write buff btw => do
    let (res, bw, fp, fs) ← fWrite fs fp buff btw
    return (.write res bw, fp, fs)
  | .lseek ofs => do
    let (res, fp, fs) ← fLseek fs fp ofs
    return (.lseek res, fp, fs)
  | .sync tm => do
    let (res, fp, fs) ← fSync fs fp tm
    return (.sync res, fp, fs)

/-- The calls of a run. -/
def callFiles {ι : Type} [DecidableEq ι] :
    List (ι × FileCall) → Fatfs → (ι → Fil) → DiskProg (List Reply × Fatfs × (ι → Fil))
  | [], fs, fps => return ([], fs, fps)
  | (i, c) :: calls, fs, fps => do
    let (r, fp, fs) ← callFile fs (fps i) c
    let (rs, fs, fps) ← callFiles calls fs (Function.update fps i fp)
    return (r :: rs, fs, fps)

end NucleoH743.Ff
