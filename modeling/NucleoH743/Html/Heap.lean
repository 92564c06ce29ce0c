import NucleoH743.Html.FsCustom
import NucleoH743.Lib.Run

/-!
# `Html.Heap`: the file objects of the HTTP server on the heap

`fs_open_custom` takes a file object from the heap and frees it again if a step of the open fails.
`fsOpenCustom` of this module is the program of `Html.FsCustom` with `malloc`, `free` and the
result of `f_mount`; `fsOpenCustom_erase` compares the two.

`Html.FsCustom` names the file objects by their addresses and does not ask where they come from.
Here `malloc` and `free` are calls, and `Blocks` is what has been allocated and not freed, so that
it can be said how the heap changes over a history of opens and closes. An open takes three steps
that can fail, and frees the block on each of these ways.
-/

set_option autoImplicit false

namespace NucleoH743.Html.Heap

open NucleoH743.FatFs
open CStr (textBytes)

/-- What `fs_custom.c` calls. -/
inductive HeapOp where
  | malloc
  | free (p : Nat)
  /-- `f_mount(&filesystem, "", 0)`, with its result -/
  | fMount
  | fatFs (c : Call Nat)

/-- What these return. -/
abbrev HeapOp.Res : HeapOp → Type
  | malloc => Nat
  | free _ => Unit
  | fMount => FResult
  | fatFs c => c.Res

abbrev HeapProg (α : Type) := Prog HeapOp HeapOp.Res α

/-- A call of FatFs. -/
def fatFs (c : Call Nat) : HeapProg c.Res := Prog.call (HeapOp.fatFs c)

/-- The three steps of the open. -/
def openSteps (file : Nat) (name : List UInt8) : HeapProg Bool := do
  let res : FResult ← Prog.call HeapOp.fMount
  if res = .ok then
    let res : FResult ← fatFs (.fOpendir (textBytes "/"))
    if res = .ok then
      let res : FResult ← fatFs (.fOpen file (name.drop 1) { faRead := true } false)
      return res = .ok
    else return false
  else return false

/-- `fs_open_custom(file_fs, name)` -/
def fsOpenCustom (fileFs : FsFile) (name : List UInt8) : HeapProg (Bool × FsFile) := do
  let file : Nat ← Prog.call HeapOp.malloc
  let _ : Unit ← fatFs (.memset file)
  let opened ← openSteps file name
  if opened then
    let size : Nat ← fatFs (.fSize file)
    return (true, { fileFs with
      len := Int.bmod size (2 ^ 32)
      index := 0
      pextension := some file
      isCustomFile := true })
  else
    let _ : Unit ← Prog.call (HeapOp.free file)
    return (false, fileFs)

/-- `fs_close(file)`. Nothing on its way calls `free`. -/
def fsClose (file : FsFile) : HeapProg Unit := (Html.fsClose file).interp fatFs

/-! ### The server -/

/-- The answers to the calls of one open or close. -/
structure Answers where
  malloc : Nat
  mount : FResult
  fatFs : (c : Call Nat) → c.Res

/-- The blocks that `fs_open_custom` has allocated and nobody has freed. -/
abbrev Blocks := List Nat

/-- Carry a call out on the heap. -/
def handle (x : Answers) : (o : HeapOp) → Blocks → o.Res × Blocks
  | .malloc, heap => (x.malloc, x.malloc :: heap)
  | .free p, heap => ((), heap.erase p)
  | .fMount, heap => (x.mount, heap)
  | .fatFs c, heap => (x.fatFs c, heap)

/-- The heap, and the files that are open. -/
structure Server where
  heap : Blocks := []
  files : List FsFile := []

/-- What happens. -/
inductive Event where
  /-- `fs_open_custom` on a file structure -/
  | fsOpen (fileFs : FsFile) (name : List UInt8) (x : Answers)
  /-- `fs_close` of the open file at a position -/
  | fsClose (i : Nat) (x : Answers)

/-- One event. `malloc` does not return a block that is allocated. -/
def step (s : Server) : Event → Server
  | .fsOpen fileFs name x =>
    if x.malloc ∈ s.heap then s
    else
      let r := (fsOpenCustom fileFs name).run (handle x) s.heap
      { heap := r.2, files := if r.1.1 then r.1.2 :: s.files else s.files }
  | .fsClose i x =>
    match s.files[i]? with
    | none => s
    | some file =>
      { heap := ((fsClose file).run (handle x) s.heap).2, files := s.files.eraseIdx i }

/-! ### Without the heap -/

/-- The calls without the heap: `malloc` has returned `file`, and `f_mount` returns `FR_OK`. -/
def erase (file : Nat) : (o : HeapOp) → Caller Nat o.Res
  | .malloc => (return file : Caller Nat Nat)
  | .free _ => (return () : Caller Nat Unit)
  | .fMount => do
    Caller.fMount (some .filesystem)
    return FResult.ok
  | .fatFs c => Prog.call c

/-- Without the heap the program is that of `Html.FsCustom`. -/
theorem fsOpenCustom_erase (file : Nat) (fileFs : FsFile) (name : List UInt8) :
    (fsOpenCustom fileFs name).interp (erase file) = Html.fsOpenCustom file fileFs name := by
  unfold fsOpenCustom Html.fsOpenCustom openSteps
  refine congrArg (Prog.op (Call.memset file)) (funext fun _ => ?_)
  refine congrArg (Prog.op (Call.fMount (some .filesystem))) (funext fun _ => ?_)
  refine congrArg (Prog.op (Call.fOpendir (textBytes "/"))) (funext fun res => ?_)
  cases res with
  | ok =>
    refine congrArg (Prog.op (Call.fOpen file (name.drop 1) { faRead := true } false))
      (funext fun res => ?_)
    cases res <;> rfl
  | _ => rfl

end NucleoH743.Html.Heap
