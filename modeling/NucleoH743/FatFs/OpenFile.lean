import NucleoH743.FatFs.Api

/-!
# `FatFs.OpenFile`: one file object whose calls can fail

`OpenFile` is a file object that is open for reading, seen by its owner alone. What a call does
comes with it as an `Outcome`: the disk can fail in the middle of a read, and the volume can be
mounted anew by another task. Either way the object is of no use any more: `ABORT` sets `err`, and
the mount ID no longer matches.

The servers read a file in pieces over many calls, and between two of them the disk may have failed
or another task may have mounted the volume. What a call of the owner does then is its `Outcome`. An
outcome is not an assumption on the disk but a name for what can happen, and a theorem on a server
takes one for each call and holds for all of them.

Only what the owner of the object sees is kept. What two owners do to each other is a matter of
`FatFs.Volume` and of `Services.System`.

- `OpenFile.read_rest`, `OpenFile.read_length`: which bytes one read delivers, and how many.
- `OpenFile.fRead_valid`, `OpenFile.fRead_invalid`: a read on the volume is one of these.
-/

set_option autoImplicit false

namespace NucleoH743.FatFs

/-- A file object of a file with the bytes `data`. -/
structure OpenFile where
  data : List UInt8
  fptr : Nat := 0
  /-- a call on the object has failed -/
  err : Bool := false
  deriving DecidableEq, Repr

namespace OpenFile

/-- What a call on the object does, if none before it has failed. -/
inductive Outcome where
  | full
  /-- a read delivers at most `k` bytes, but at least one if there is one -/
  | short (k : Nat)
  /-- the call fails; a read has delivered `k` bytes then, but not all it was asked for -/
  | fail (k : Nat)
  deriving DecidableEq, Repr

/-- The call fails. -/
def Outcome.fails : Outcome → Bool
  | .fail _ => true
  | _ => false

/-- The bytes that a read of `btr` bytes is asked for. -/
def asked (f : OpenFile) (btr : Nat) : List UInt8 := (f.data.drop f.fptr).take btr

/-- How many of `n` bytes a read delivers. -/
def Outcome.count (x : Outcome) (n : Nat) : Nat :=
  match x with
  | .full => n
  | .short k => min n (max k 1)
  | .fail k => min k (n - 1)

/-- `f_read`: the result, the bytes read and the file object. -/
def read (f : OpenFile) (btr : Nat) (x : Outcome) : FResult × List UInt8 × OpenFile :=
  if f.err then (.intErr, [], f)
  else
    let bytes := (f.asked btr).take (x.count (f.asked btr).length)
    (if x.fails then .intErr else .ok, bytes,
      { f with fptr := f.fptr + bytes.length, err := x.fails })

/-- `f_lseek`. An object that was opened for reading stays within the file. -/
def lseek (f : OpenFile) (ofs : Nat) (x : Outcome) : FResult × OpenFile :=
  if f.err then (.intErr, f)
  else if x.fails then (.intErr, { f with err := true })
  else (.ok, { f with fptr := min ofs f.data.length })

/-- The bytes behind the file pointer. -/
def rest (f : OpenFile) : List UInt8 := f.data.drop f.fptr

section Lemmas
variable (f : OpenFile) (btr : Nat) (x : Outcome)

/-- A read leaves the bytes of the file alone. -/
@[simp] theorem read_data : (f.read btr x).2.2.data = f.data := by
  unfold read
  split <;> rfl

/-- After a failed call nothing is read. -/
theorem read_err {f : OpenFile} (h : f.err = true) : f.read btr x = (.intErr, [], f) := if_pos h

/-- While no call has failed. -/
theorem read_eq {f : OpenFile} (h : f.err = false) :
    f.read btr x = (if x.fails then .intErr else .ok,
      (f.asked btr).take (x.count (f.asked btr).length),
      { f with
        fptr := f.fptr + ((f.asked btr).take (x.count (f.asked btr).length)).length
        err := x.fails }) := by
  rw [read, if_neg (by simp [h])]

/-- A read delivers the next bytes of the file, and moves the file pointer behind them. -/
theorem read_rest : f.rest = (f.read btr x).2.1 ++ (f.read btr x).2.2.rest := by
  unfold read rest
  split
  · rfl
  · simp only [asked]
    rw [List.take_take]
    generalize min _ btr = n
    have hlen : (List.take n (f.data.drop f.fptr)).length = min n (f.data.drop f.fptr).length :=
      List.length_take
    by_cases hn : n ≤ (f.data.drop f.fptr).length
    · rw [hlen, Nat.min_eq_left hn, ← List.drop_drop, List.take_append_drop]
    · have hall : (f.data.drop f.fptr).length ≤ n := by omega
      rw [List.take_of_length_le hall, ← List.drop_drop, List.drop_length, List.append_nil]

/-- The file pointer moves by what was delivered, on every branch. -/
theorem read_fptr : (f.read btr x).2.2.fptr = f.fptr + (f.read btr x).2.1.length := by
  unfold read
  split <;> rfl

/-- No outcome delivers more than was asked for. -/
theorem count_le (n : Nat) : x.count n ≤ n := by
  cases x with
  | full => exact Nat.le_refl n
  | short k => exact Nat.min_le_left _ _
  | fail k => exact (Nat.min_le_right _ _).trans (Nat.sub_le _ _)

/-- The number of bytes that a read delivers. -/
theorem read_length {f : OpenFile} (h : f.err = false) :
    (f.read btr x).2.1.length = x.count (min btr f.rest.length) := by
  have hlen : (f.asked btr).length = min btr f.rest.length := List.length_take
  rw [read_eq btr x h, List.length_take, hlen]
  exact Nat.min_eq_left (count_le x _)

/-- A read sets the error flag iff it fails. -/
theorem read_err_eq {f : OpenFile} (h : f.err = false) :
    (f.read btr x).2.2.err = x.fails := by
  rw [read_eq btr x h]

/-- A read that does not fail delivers something if it is asked for something. -/
theorem count_pos {x : Outcome} (hx : x.fails = false) {n : Nat} (hn : 0 < n) :
    0 < x.count n := by
  cases x with
  | full => exact hn
  | short k =>
    show 0 < min n (max k 1)
    omega
  | fail k => cases hx

/-- A read that fails leaves something of what it is asked for. -/
theorem count_lt {x : Outcome} (hx : x.fails = true) {n : Nat} (hn : 0 < n) : x.count n < n := by
  cases x with
  | full => cases hx
  | short k => cases hx
  | fail k =>
    show min k (n - 1) < n
    omega

end Lemmas

/-! ### On the volume -/

/-- The file object of a FatFs object. -/
def ofFil (fp : Fil) : OpenFile := { data := fp.data, fptr := fp.fptr }

/-- The object is open for reading and its volume is mounted as at the open. -/
def Readable (v : Volume) (fp : Fil) : Prop := fp.valid v = true ∧ fp.faRead = true

/-- While the volume stays mounted a read is complete. -/
theorem fRead_valid {v : Volume} {fp : Fil} (h : Readable v fp) (btr : Nat) :
    (fRead v fp btr).1 = ((ofFil fp).read btr .full).1 ∧
      (fRead v fp btr).2.1 = ((ofFil fp).read btr .full).2.1 ∧
      ofFil (fRead v fp btr).2.2 = ((ofFil fp).read btr .full).2.2 := by
  have hall : ((ofFil fp).asked btr).take (Outcome.full.count ((ofFil fp).asked btr).length) =
      (ofFil fp).asked btr := List.take_length
  rw [fRead, if_pos h.1, if_pos h.2, read_eq btr _ rfl, hall]
  exact ⟨rfl, rfl, rfl⟩

/-- After another mount a read fails at its start. -/
theorem fRead_invalid {v : Volume} {fp : Fil} (h : fp.valid v = false) (btr : Nat) :
    (fRead v fp btr).1 ≠ .ok ∧ (fRead v fp btr).2.1 = ((ofFil fp).read btr (.fail 0)).2.1 := by
  have hnone : ((ofFil fp).asked btr).take
      ((Outcome.fail 0).count ((ofFil fp).asked btr).length) = [] := by
    have hzero : (Outcome.fail 0).count ((ofFil fp).asked btr).length = 0 := Nat.zero_min _
    rw [hzero, List.take_zero]
  rw [fRead, if_neg (by simp [h]), read_eq btr _ rfl, hnone]
  exact ⟨FResult.noConfusion, rfl⟩

/-! ### As the answers to the calls of its owner -/

variable {φ : Type}

/-- The answers to the calls on the object, with the outcome `x`. The other calls of its owner
succeed. -/
def handle (x : Outcome) : (c : Call φ) → OpenFile → c.Res × OpenFile
  | .fRead _ btr, f => (((f.read btr x).1, (f.read btr x).2.1), (f.read btr x).2.2)
  | .fLseek _ ofs, f => f.lseek ofs x
  | .fSize _, f => (f.data.length, f)
  | .fMount _, f | .memset _, f => ((), f)
  | .fOpendir _, f | .fOpen _ _ _ _, f | .fClose _, f | .fMkdir _ _, f | .fUnlink _ _, f => (.ok, f)
  | .fWrite _ _ _, f => ((.denied, 0), f)

end OpenFile

end NucleoH743.FatFs
