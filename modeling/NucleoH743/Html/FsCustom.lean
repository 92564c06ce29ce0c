import Mathlib.Algebra.Group.Int.Defs
import Mathlib.Algebra.Group.Nat.Defs
import NucleoH743.FatFs.Api
import NucleoH743.Lib.CStr

/-!
# `Html.FsCustom`: the files of the HTTP server

The functions of `fs_custom.c`, and those of `fs.c` that call them, as programs of FatFs calls.
Each open file of the server is a file object from the heap, named by its address.

The HTTP server calls `fs_open` for a request, `fs_read` until it has all bytes of the file, and
`fs_close`. A file object of FatFs serves for each of them, so what another task does to the volume
in between shows in the result of `f_read`, and `fs_read_custom` gives that on to the server as a
number of bytes.
-/

set_option autoImplicit false

namespace NucleoH743.Html

open NucleoH743.FatFs
open CStr (textBytes)

/-- The fields of `struct fs_file` that `fs_custom.c` uses. -/
structure FsFile where
  len : Int := 0
  index : Int := 0
  /-- `pextension`: the address of the file object -/
  pextension : Option Nat := none
  isCustomFile : Bool := false
  deriving DecidableEq, Repr

/-- `FS_READ_EOF` -/
def fsReadEof : Int := -1

/-- `LWIP_HTTPD_EXAMPLE_CUSTOMFILES_LIMIT_READ` -/
def limitRead : Int := 1400

/-- `fs_open_custom(file_fs, name)`, where `malloc` returns the address `file`. A file object
that is not opened is freed again. -/
def fsOpenCustom (file : Nat) (fileFs : FsFile) (name : List UInt8) :
    Caller Nat (Bool × FsFile) := do
  Caller.memset file
  Caller.fMount (some .filesystem)
  let res ← Caller.fOpendir (textBytes "/")
  if res = .ok then
    let res ← Caller.fOpen file (name.drop 1) { faRead := true } false
    if res = .ok then
      let size ← Caller.fSize file
      pure (true, { fileFs with
        len := Int.bmod size (2 ^ 32)
        index := 0
        pextension := some file
        isCustomFile := true })
    else pure (false, fileFs)
  else pure (false, fileFs)

/-- `fs_close_custom(file_fs)`. The file object is closed, but not freed. -/
def fsCloseCustom (fileFs : FsFile) : Caller Nat Unit :=
  match fileFs.pextension with
  | some file => do
    let _ ← Caller.fClose file
    pure ()
  | none => pure ()

/-- `fs_read_custom(file_fs, buffer, count)`: the result and the bytes in `buffer`. `f_read`
on a null pointer reads nothing. -/
def fsReadCustom (fileFs : FsFile) (count : Int) : Caller Nat (Int × List UInt8 × FsFile) :=
  if fileFs.index = fileFs.len then pure (fsReadEof, [], fileFs)
  else
    -- the argument of `f_read` is unsigned
    let read := (min (min (fileFs.len - fileFs.index) count) limitRead % 2 ^ 32).toNat
    match fileFs.pextension with
    | some file => do
      let (_, buffer) ← Caller.fRead file read
      pure (buffer.length, buffer,
        { fileFs with index := fileFs.index + buffer.length, isCustomFile := true })
    | none => pure (0, [], { fileFs with isCustomFile := true })

/-! ### `fs.c` -/

/-- `fs_read(file, buffer, count)`. `data` are the bytes at `file->data` of a file that is not a
custom file. -/
def fsRead (data : List UInt8) (file : FsFile) (count : Int) :
    Caller Nat (Int × List UInt8 × FsFile) :=
  if file.index = file.len then pure (fsReadEof, [], file)
  else if file.isCustomFile then fsReadCustom file count
  else
    let read := min (file.len - file.index) count
    pure (read, (data.drop file.index.toNat).take read.toNat,
      { file with index := file.index + read })

/-- `fs_close(file)` -/
def fsClose (file : FsFile) : Caller Nat Unit :=
  if file.isCustomFile then fsCloseCustom file else pure ()

end NucleoH743.Html
