import NucleoH743.FatFs.Volume
import NucleoH743.Lib.Prog

/-!
# `FatFs.Api`: the FatFs calls as operations

A caller of FatFs is a program over `Call φ`, where `φ` names its own file objects. `Call.run`
carries a call out on the volume and on these file objects.

A program over these calls is what the servers are to the volume: `Caller` has a type of names for
the file objects among a server's variables, and a call names the object that it works on. A `Disk`
is the volume with the contents of these objects, and answers the calls.

The models of the servers compute their effects from the functions of `FatFs.Volume`. `Ftp.Calls`
and `Tftp.Calls` write the same functions as programs over `Call`, so that the calls of several
tasks can be interleaved. The lemmas `run_fOpen` and so on say how a program goes on behind a call
whose result is known.
-/

set_option autoImplicit false

namespace NucleoH743.FatFs

/-- The calls, on file objects named by `φ`. Two of them only touch the memory of the file
object: `fSize` reads its size, and `memset` clears it. -/
inductive Call (φ : Type) where
  | fMount (fs : Option FsObj)
  | fOpendir (path : Path)
  | fOpen (f : φ) (path : Path) (mode : Mode) (slot : Bool)
  | fRead (f : φ) (btr : Nat)
  | fWrite (f : φ) (buff : List UInt8) (room : Nat)
  | fLseek (f : φ) (ofs : Nat)
  | fClose (f : φ)
  | fMkdir (path : Path) (slot : Bool)
  | fUnlink (path : Path) (removable : Bool)
  | fSize (f : φ)
  | memset (f : φ)
  deriving DecidableEq, Repr

namespace Call

variable {φ : Type}

/-- What a call returns. `f_mount` with `opt = 0` returns `FR_OK`. -/
abbrev Res : Call φ → Type
  | .fMount _ | .memset _ => Unit
  | .fOpendir _ | .fOpen _ _ _ _ | .fLseek _ _ | .fClose _ | .fMkdir _ _ | .fUnlink _ _ => FResult
  | .fRead _ _ => FResult × List UInt8
  | .fWrite _ _ _ => FResult × Nat
  | .fSize _ => Nat

/-- The argument of `f_mount`. -/
def mounts : Call φ → Option (Option FsObj)
  | .fMount fs => some fs
  | _ => none

/-- The call opens a file or a directory. -/
def opens : Call φ → Bool
  | .fOpendir _ | .fOpen _ _ _ _ => true
  | _ => false

end Call

/-- The volume, and the file objects of one caller. -/
structure Disk (φ : Type) where
  vol : Volume
  fil : φ → Fil

variable {φ : Type} [DecidableEq φ]

/-- Assign a file object. -/
def Disk.setFil (d : Disk φ) (f : φ) (fp : Fil) : Disk φ :=
  { d with fil := Function.update d.fil f fp }

section SetFil
variable (d : Disk φ) (f : φ) (fp fp' : Fil)

/-- A store to a file object is none to the volume. -/
@[simp] theorem Disk.setFil_vol : (d.setFil f fp).vol = d.vol := rfl

/-- It is read back. -/
@[simp] theorem Disk.setFil_fil : (d.setFil f fp).fil f = fp := by simp [setFil]

/-- A second store to the same object replaces the first. -/
@[simp] theorem Disk.setFil_setFil : (d.setFil f fp).setFil f fp' = d.setFil f fp' := by
  simp [setFil]

end SetFil

/-- Carry a call out. -/
def Call.handle : (c : Call φ) → Disk φ → c.Res × Disk φ
  | .fMount fs, d => ((), { d with vol := FatFs.fMount d.vol fs })
  | .fOpendir path, d =>
    let (res, _, vol) := FatFs.fOpendir d.vol path
    (res, { d with vol })
  | .fOpen f path mode slot, d =>
    let (res, fp, vol) := FatFs.fOpen d.vol (d.fil f) path mode slot
    (res, { d.setFil f fp with vol })
  | .fRead f btr, d =>
    let (res, buf, fp) := FatFs.fRead d.vol (d.fil f) btr
    ((res, buf), d.setFil f fp)
  | .fWrite f buff room, d =>
    let (res, bw, fp) := FatFs.fWrite d.vol (d.fil f) buff room
    ((res, bw), d.setFil f fp)
  | .fLseek f ofs, d =>
    let (res, fp) := FatFs.fLseek d.vol (d.fil f) ofs
    (res, d.setFil f fp)
  | .fClose f, d =>
    let (res, fp, vol) := FatFs.fClose d.vol (d.fil f)
    (res, { d.setFil f fp with vol })
  | .fMkdir path slot, d =>
    let (res, vol) := FatFs.fMkdir d.vol path slot
    (res, { d with vol })
  | .fUnlink path removable, d =>
    let (res, vol) := FatFs.fUnlink d.vol path removable
    (res, { d with vol })
  | .fSize f, d => ((d.fil f).data.length, d)
  | .memset f, d => ((), d.setFil f Fil.null)

/-- A caller of FatFs. -/
abbrev Caller (φ α : Type) : Type := Prog (Call φ) Call.Res α

namespace Caller

variable {φ : Type}

def fMount (fs : Option FsObj) : Caller φ Unit := Prog.call (Call.fMount fs)

def fOpendir (path : Path) : Caller φ FResult := Prog.call (Call.fOpendir path)

def fOpen (f : φ) (path : Path) (mode : Mode) (slot : Bool) : Caller φ FResult :=
  Prog.call (Call.fOpen f path mode slot)

def fRead (f : φ) (btr : Nat) : Caller φ (FResult × List UInt8) := Prog.call (Call.fRead f btr)

def fWrite (f : φ) (buff : List UInt8) (room : Nat) : Caller φ (FResult × Nat) :=
  Prog.call (Call.fWrite f buff room)

def fLseek (f : φ) (ofs : Nat) : Caller φ FResult := Prog.call (Call.fLseek f ofs)

def fClose (f : φ) : Caller φ FResult := Prog.call (Call.fClose f)

def fMkdir (path : Path) (slot : Bool) : Caller φ FResult := Prog.call (Call.fMkdir path slot)

def fUnlink (path : Path) (removable : Bool) : Caller φ FResult :=
  Prog.call (Call.fUnlink path removable)

def fSize (f : φ) : Caller φ Nat := Prog.call (Call.fSize f)

def memset (f : φ) : Caller φ Unit := Prog.call (Call.memset f)

/-! A program that begins with a call goes on with its result. -/

section Run
variable [DecidableEq φ] {α : Type} {d : Disk φ} {f : φ} {res : FResult} {fp : Fil} {vol : Volume}

/-- The caller of `f_mount` goes on with the volume that it leaves. -/
theorem run_fMount (fs : Option FsObj) (k : Unit → Caller φ α) :
    (fMount fs >>= k).run Call.handle d =
      (k ()).run Call.handle { d with vol := FatFs.fMount d.vol fs } := rfl

/-- The caller of `f_opendir` goes on with its result. The directory object is not kept. -/
theorem run_fOpendir {path : Path} {dir : Dir} (h : FatFs.fOpendir d.vol path = (res, dir, vol))
    (k : FResult → Caller φ α) :
    (fOpendir path >>= k).run Call.handle d = (k res).run Call.handle { d with vol } := by
  rw [Prog.run_bind, fOpendir, Prog.run_call, Call.handle, h]

/-- The caller of `f_open` goes on with its result, and finds the file object and the volume
changed. -/
theorem run_fOpen {path : Path} {mode : Mode} {slot : Bool}
    (h : FatFs.fOpen d.vol (d.fil f) path mode slot = (res, fp, vol)) (k : FResult → Caller φ α) :
    (fOpen f path mode slot >>= k).run Call.handle d =
      (k res).run Call.handle { d.setFil f fp with vol } := by
  rw [Prog.run_bind, fOpen, Prog.run_call, Call.handle, h]

/-- The caller of `f_read` gets the bytes, and the file object has moved. -/
theorem run_fRead {btr : Nat} {buf : List UInt8}
    (h : FatFs.fRead d.vol (d.fil f) btr = (res, buf, fp))
    (k : FResult × List UInt8 → Caller φ α) :
    (fRead f btr >>= k).run Call.handle d = (k (res, buf)).run Call.handle (d.setFil f fp) := by
  rw [Prog.run_bind, fRead, Prog.run_call, Call.handle, h]

/-- The caller of `f_write` gets the number of bytes that were taken. -/
theorem run_fWrite {buff : List UInt8} {room bw : Nat}
    (h : FatFs.fWrite d.vol (d.fil f) buff room = (res, bw, fp)) (k : FResult × Nat → Caller φ α) :
    (fWrite f buff room >>= k).run Call.handle d =
      (k (res, bw)).run Call.handle (d.setFil f fp) := by
  rw [Prog.run_bind, fWrite, Prog.run_call, Call.handle, h]

/-- The caller of `f_lseek` gets its result, and the file object has moved. -/
theorem run_fLseek {ofs : Nat} (h : FatFs.fLseek d.vol (d.fil f) ofs = (res, fp))
    (k : FResult → Caller φ α) :
    (fLseek f ofs >>= k).run Call.handle d = (k res).run Call.handle (d.setFil f fp) := by
  rw [Prog.run_bind, fLseek, Prog.run_call, Call.handle, h]

/-- The caller of `f_close` gets its result, and the volume has the file as it was closed. -/
theorem run_fClose (h : FatFs.fClose d.vol (d.fil f) = (res, fp, vol))
    (k : FResult → Caller φ α) :
    (fClose f >>= k).run Call.handle d = (k res).run Call.handle { d.setFil f fp with vol } := by
  rw [Prog.run_bind, fClose, Prog.run_call, Call.handle, h]

/-- The caller of `f_mkdir` gets its result and the volume that it leaves. -/
theorem run_fMkdir {path : Path} {slot : Bool} (h : FatFs.fMkdir d.vol path slot = (res, vol))
    (k : FResult → Caller φ α) :
    (fMkdir path slot >>= k).run Call.handle d = (k res).run Call.handle { d with vol } := by
  rw [Prog.run_bind, fMkdir, Prog.run_call, Call.handle, h]

/-- So does the caller of `f_unlink`. -/
theorem run_fUnlink {path : Path} {removable : Bool}
    (h : FatFs.fUnlink d.vol path removable = (res, vol)) (k : FResult → Caller φ α) :
    (fUnlink path removable >>= k).run Call.handle d = (k res).run Call.handle { d with vol } := by
  rw [Prog.run_bind, fUnlink, Prog.run_call, Call.handle, h]

/-- The caller of `f_size` gets the size of the file object, and nothing changes. -/
theorem run_fSize (k : Nat → Caller φ α) :
    (fSize f >>= k).run Call.handle d = (k (d.fil f).data.length).run Call.handle d := rfl

end Run

end Caller

end NucleoH743.FatFs
