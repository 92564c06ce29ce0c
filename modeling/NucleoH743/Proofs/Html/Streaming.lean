import NucleoH743.FatFs.OpenFile
import NucleoH743.Html.FsCustom

/-!
# `Proofs.Html.Streaming`: what the HTTP server reads of a file

`fs_read_custom` does not look at the result of `f_read`. It moves its index by the count, and the
end of the file is where the index meets the length of the open. After a read that failed every
further one delivers nothing, so the index stays short of the length.

Two positions move along the file: the index of the custom file, and the file pointer of its file
object. They stay equal (`Streaming`), because a call moves the first by what `f_read` has moved the
second. A read that fails sets the error of the file object, and from then on `f_read` refuses at
once.

So there are two kinds of runs. Where every read succeeds, each call inside of the file delivers at
least one byte, and after as many calls as the file has bytes the index is at the end. Where one
read fails, which can only be inside of the file, the file stays as it is from then on, and no call
ever reports the end.

A read may deliver fewer bytes than it was asked for without a failure. This changes the number of
the calls and nothing else.

- `streams_iff`: the reads of an opened file deliver it in order and come to an end iff no `f_read`
  that they make fails.
-/

set_option autoImplicit false

namespace NucleoH743.Html

open NucleoH743.FatFs

/-- A file. Its size fits an `int`: the flash has 16 MiB. -/
structure File where
  data : List UInt8
  length_lt : data.length < 2 ^ 31

/-- A call of `fs_read` for a positive number of bytes, and what its `f_read` does. -/
structure ReadCall where
  count : Int
  pos : 0 < count
  outcome : OpenFile.Outcome

/-- The custom file and its file object. -/
abbrev Handle := FsFile × OpenFile

/-- The file after `fs_open_custom(file_fs, name)`, with the file object at `addr`. -/
def opened (f : File) (addr : Nat) (fileFs : FsFile) (name : List UInt8) : Handle :=
  let r := (fsOpenCustom addr fileFs name).run (OpenFile.handle .full) { data := f.data }
  (r.1.2, r.2)

/-- One call: the result and the bytes in the buffer, and the file after it. -/
def readCall (h : Handle) (c : ReadCall) : (Int × List UInt8) × Handle :=
  let r := (fsRead [] h.1 c.count).run (OpenFile.handle c.outcome) h.2
  ((r.1.1, r.1.2.1), (r.1.2.2, r.2))

section Calls
variable (h : Handle) (ω : Nat → ReadCall)

/-- The file after the first `n` calls. -/
def after : Nat → Handle
  | 0 => h
  | n + 1 => (readCall (after n) (ω n)).2

/-- What the call `n` returns. -/
def result (n : Nat) : Int := (readCall (after h ω n) (ω n)).1.1

/-- The bytes that the call `n` puts into the buffer. -/
def buffer (n : Nat) : List UInt8 := (readCall (after h ω n) (ω n)).1.2

/-- The bytes that the first `n` calls deliver. -/
def delivered : Nat → List UInt8
  | 0 => []
  | n + 1 => delivered n ++ buffer h ω n

end Calls

/-- The calls on an opened file stream it. -/
structure Streams (f : File) (h : Handle) (ω : Nat → ReadCall) : Prop where
  /-- in order -/
  inOrder : ∀ n, delivered h ω n <+: f.data
  /-- a count is the number of bytes in the buffer -/
  reports : ∀ n, 0 ≤ result h ω n → result h ω n = (buffer h ω n).length
  /-- an end comes within as many calls as the file has bytes, and one -/
  ends : ∃ n ≤ f.data.length, result h ω n < 0
  /-- without failures the end comes behind the whole file -/
  whole : (∀ n, (ω n).outcome.fails = false) →
    ∀ n, result h ω n = fsReadEof → delivered h ω n = f.data

/-- No `f_read` that a call makes fails. -/
def ReadsSucceed (h : Handle) (ω : Nat → ReadCall) : Prop :=
  ∀ n, (after h ω n).1.index ≠ (after h ω n).1.len → (ω n).outcome.fails = false

/-! ### The state of the file -/

/-- The index is the file pointer, and a failed call leaves it inside of the file. -/
structure Streaming (f : File) (h : Handle) : Prop where
  len : h.1.len = f.data.length
  index : h.1.index = h.2.fptr
  custom : h.1.isCustomFile = true
  file : ∃ addr, h.1.pextension = some addr
  data : h.2.data = f.data
  fptr_le : h.2.fptr ≤ f.data.length
  err : h.2.err = true → h.2.fptr < f.data.length

/-- The file that `fs_open_custom` opens. -/
theorem opened_eq (f : File) (addr : Nat) (fileFs : FsFile) (name : List UInt8) :
    opened f addr fileFs name =
      ({ fileFs with
          len := f.data.length
          index := 0
          pextension := some addr
          isCustomFile := true }, { data := f.data }) := by
  have hlt := f.length_lt
  have hsize : Int.bmod (f.data.length : Int) (2 ^ 32) = f.data.length :=
    Int.bmod_eq_of_le (by omega) (by omega)
  rw [← hsize]
  rfl

/-- A file that has just been opened streams from its first byte. -/
theorem streaming_opened (f : File) (addr : Nat) (fileFs : FsFile) (name : List UInt8) :
    Streaming f (opened f addr fileFs name) := by
  rw [opened_eq]
  exact {
    len := rfl
    index := rfl
    custom := rfl
    file := ⟨addr, rfl⟩
    data := rfl
    fptr_le := Nat.zero_le _
    err := fun h => absurd h Bool.false_ne_true }

/-- Its file pointer stands there. -/
theorem opened_fptr (f : File) (addr : Nat) (fileFs : FsFile) (name : List UInt8) :
    (opened f addr fileFs name).2.fptr = 0 := rfl

/-- How many bytes a call asks `f_read` for. -/
def request (f : File) (h : Handle) (c : ReadCall) : Nat :=
  min (min (f.data.length - h.2.fptr) c.count.toNat) limitRead.toNat

/-- Inside of the file a call asks for at least a byte. -/
theorem request_pos {f : File} {h : Handle} (hin : h.2.fptr < f.data.length) (c : ReadCall) :
    0 < request f h c := by
  have hc := c.pos
  have hlimit : 0 < limitRead.toNat := by decide
  unfold request
  omega

/-- No more is asked for than the file has left. -/
theorem request_le (f : File) (h : Handle) (c : ReadCall) :
    request f h c ≤ f.data.length - h.2.fptr :=
  (Nat.min_le_left _ _).trans (Nat.min_le_left _ _)

/-- The `f_read` of a call. -/
def readOf (f : File) (h : Handle) (c : ReadCall) : FResult × List UInt8 × OpenFile :=
  h.2.read (request f h c) c.outcome

/-- The custom file with its index behind the bytes of a read. -/
def FsFile.moved (file : FsFile) (n : Nat) : FsFile := { file with index := file.index + n }

section Step
variable {f : File} {h : Handle} (hs : Streaming f h) (c : ReadCall)
include hs

/-- The index of the server is at the end iff the file pointer is. -/
theorem Streaming.atEnd_iff : h.1.index = h.1.len ↔ h.2.fptr = f.data.length := by
  rw [hs.index, hs.len]
  exact Int.ofNat_inj

/-- At the end a call says so. -/
theorem Streaming.readCall_end (hend : h.2.fptr = f.data.length) :
    readCall h c = ((fsReadEof, []), h) := by
  have heq := hs.atEnd_iff.2 hend
  rw [readCall, fsRead, if_pos heq]
  rfl

/-- Inside of the file a call is an `f_read`. The result is the count of `f_read`, and the index
moves by it, whatever `f_read` returned. -/
theorem Streaming.readCall_inside (hin : h.2.fptr < f.data.length) :
    readCall h c =
      ((((readOf f h c).2.1.length : Int), (readOf f h c).2.1),
        h.1.moved (readOf f h c).2.1.length, (readOf f h c).2.2) := by
  have hne : ¬ h.1.index = h.1.len := fun heq => absurd (hs.atEnd_iff.1 heq) (Nat.ne_of_lt hin)
  have hlimit : limitRead = 1400 := rfl
  -- the three minima and the cast to `UINT` are what is requested
  have hread : (min (min (h.1.len - h.1.index) c.count) limitRead % 2 ^ 32).toNat =
      request f h c := by
    have hlt := f.length_lt
    have hc := c.pos
    rw [request, hs.index, hs.len, hlimit]
    omega
  obtain ⟨addr, haddr⟩ := hs.file
  have hcustom := hs.custom
  rw [readCall, fsRead, if_neg hne, if_pos hcustom, fsReadCustom, if_neg hne, hread]
  obtain ⟨⟨len, index, pextension, isCustomFile⟩, obj⟩ := h
  cases haddr
  cases hcustom
  rfl

/-- After a failed call every further one delivers nothing. -/
theorem Streaming.readCall_err (herr : h.2.err = true) : readCall h c = ((0, []), h) := by
  have hread : readOf f h c = (.intErr, [], h.2) := OpenFile.read_err _ _ herr
  have hmoved : h.1.moved 0 = h.1 := by simp [FsFile.moved]
  rw [hs.readCall_inside c (hs.err herr), hread]
  exact congrArg (fun x => ((0, []), x, h.2)) hmoved

/-- While no call has failed, a call delivers some or all of the bytes that it asks for. -/
theorem Streaming.readOf_length (herr : h.2.err = false) :
    (readOf f h c).2.1.length = c.outcome.count (request f h c) := by
  have hrest : h.2.rest.length = f.data.length - h.2.fptr := by
    rw [OpenFile.rest, List.length_drop, hs.data]
  have hmin : min (request f h c) h.2.rest.length = request f h c := by
    rw [hrest]
    exact Nat.min_eq_left (request_le f h c)
  have hlen := OpenFile.read_length (request f h c) c.outcome herr
  rw [hmin] at hlen
  exact hlen

/-- A call keeps the index at the file pointer and a failed call inside of the file. By where the
index stands and what `f_read` returns: at the end nothing happens, and inside of the file both
positions move by the count of the read. -/
theorem Streaming.readCall : Streaming f (readCall h c).2 := by
  rcases Nat.eq_or_lt_of_le hs.fptr_le with hend | hin
  · rw [hs.readCall_end c hend]
    exact hs
  -- a file object in error gives no more bytes
  cases herr : h.2.err with
  | true =>
    rw [hs.readCall_err c herr]
    exact hs
  | false =>
    have hlen := hs.readOf_length c herr
    have hcount := OpenFile.count_le c.outcome (request f h c)
    have hle := request_le f h c
    have hfptr : (readOf f h c).2.2.fptr = h.2.fptr + (readOf f h c).2.1.length :=
      OpenFile.read_fptr _ _ _
    rw [hs.readCall_inside c hin]
    exact {
      len := hs.len
      index := by
        show h.1.index + _ = _
        rw [hs.index, hfptr]
        exact (Int.natCast_add _ _).symm
      custom := hs.custom
      file := hs.file
      data := (OpenFile.read_data _ _ _).trans hs.data
      fptr_le := by
        show (readOf f h c).2.2.fptr ≤ _
        omega
      err := by
        -- the read has just failed, so it was cut inside of the file
        intro hfail
        have hfails : c.outcome.fails = true := (OpenFile.read_err_eq _ _ herr).symm.trans hfail
        have hlt := OpenFile.count_lt hfails (request_pos hin c)
        show (readOf f h c).2.2.fptr < _
        omega }

/-- The bytes of a call come off the rest of the file. -/
theorem Streaming.readCall_rest :
    h.2.rest = (Html.readCall h c).1.2 ++ (Html.readCall h c).2.2.rest := by
  rcases Nat.eq_or_lt_of_le hs.fptr_le with hend | hin
  · rw [hs.readCall_end c hend]
    rfl
  · rw [hs.readCall_inside c hin]
    exact OpenFile.read_rest _ _ _

/-- A call inside of the file returns the number of its bytes. -/
theorem Streaming.readCall_reports (hin : h.2.fptr < f.data.length) :
    (Html.readCall h c).1.1 = (Html.readCall h c).1.2.length := by
  rw [hs.readCall_inside c hin]

/-- Only the end is negative. -/
theorem Streaming.readCall_neg_iff : (Html.readCall h c).1.1 < 0 ↔ h.2.fptr = f.data.length := by
  rcases Nat.eq_or_lt_of_le hs.fptr_le with hend | hin
  · rw [hs.readCall_end c hend]
    exact iff_of_true (Int.negSucc_lt_zero 0) hend
  · rw [hs.readCall_reports c hin]
    exact iff_of_false (by omega) (Nat.ne_of_lt hin)

/-- A call whose read does not fail moves the file pointer, or is at the end. -/
theorem Streaming.readCall_progress (herr : h.2.err = false)
    (hin : h.2.fptr < f.data.length) (hok : c.outcome.fails = false) :
    h.2.fptr < (Html.readCall h c).2.2.fptr := by
  have hlen := hs.readOf_length c herr
  have hpos := OpenFile.count_pos hok (request_pos hin c)
  have hfptr : (readOf f h c).2.2.fptr = h.2.fptr + (readOf f h c).2.1.length :=
    OpenFile.read_fptr _ _ _
  rw [hs.readCall_inside c hin]
  show _ < (readOf f h c).2.2.fptr
  omega

/-- The file object has failed after a call whose read fails. -/
theorem Streaming.readCall_fails (hin : h.2.fptr < f.data.length)
    (hfail : c.outcome.fails = true) : (Html.readCall h c).2.2.err = true := by
  cases herr : h.2.err with
  | true =>
    rw [hs.readCall_err c herr]
    exact herr
  | false =>
    rw [hs.readCall_inside c hin]
    exact (OpenFile.read_err_eq _ _ herr).trans hfail

/-- A read that does not fail, or comes to the end first, sets no error. -/
theorem Streaming.readCall_ok (herr : h.2.err = false)
    (hok : h.2.fptr < f.data.length → c.outcome.fails = false) :
    (Html.readCall h c).2.2.err = false := by
  rcases Nat.eq_or_lt_of_le hs.fptr_le with hend | hin
  · rw [hs.readCall_end c hend]
    exact herr
  · rw [hs.readCall_inside c hin]
    exact (OpenFile.read_err_eq _ _ herr).trans (hok hin)

end Step

/-! ### The calls -/

/-- A file that no call changes stays as it is. -/
theorem after_fixed {h : Handle} {ω : Nat → ReadCall} {n : Nat}
    (hfix : ∀ c, (readCall (after h ω n) c).2 = after h ω n) (k : Nat) :
    after h ω (n + k) = after h ω n := by
  induction k with
  | zero => rfl
  | succ k ih =>
    show (readCall (after h ω (n + k)) (ω (n + k))).2 = _
    rw [ih]
    exact hfix _

section Calls
variable {f : File} {h : Handle} (hs : Streaming f h) (ω : Nat → ReadCall)
include hs

/-- Along any number of reads the file goes on streaming. -/
theorem Streaming.after (n : Nat) : Streaming f (Html.after h ω n) := by
  induction n with
  | zero => exact hs
  | succ n ih => exact ih.readCall (ω n)

/-- What is delivered and what is not are the file. -/
theorem Streaming.delivered_rest (hzero : h.2.fptr = 0) (n : Nat) :
    delivered h ω n ++ (Html.after h ω n).2.rest = f.data := by
  induction n with
  | zero =>
    show h.2.rest = f.data
    rw [OpenFile.rest, hzero, hs.data]
    rfl
  | succ n ih =>
    have hrest := (hs.after ω n).readCall_rest (ω n)
    rw [← ih, hrest, delivered, List.append_assoc]
    rfl

/-- The end is where a call returns a negative result. -/
theorem Streaming.result_neg_iff (n : Nat) :
    result h ω n < 0 ↔ (Html.after h ω n).2.fptr = f.data.length :=
  (hs.after ω n).readCall_neg_iff (ω n)

/-- A file that is at its end, or whose object has failed, stays so. -/
theorem Streaming.after_stuck {n : Nat}
    (hstuck : (Html.after h ω n).2.fptr = f.data.length ∨ (Html.after h ω n).2.err = true)
    (k : Nat) : Html.after h ω (n + k) = Html.after h ω n := by
  refine after_fixed (fun c => ?_) k
  rcases hstuck with hend | herr
  · rw [(hs.after ω n).readCall_end c hend]
  · rw [(hs.after ω n).readCall_err c herr]

/-- If every read succeeds, a call moves the file pointer by at least a byte. By induction on the
calls. At the end of the file it stays. -/
theorem Streaming.after_progress (herr : h.2.err = false) (hok : ReadsSucceed h ω) (n : Nat) :
    (Html.after h ω n).2.err = false ∧ min n f.data.length ≤ (Html.after h ω n).2.fptr := by
  induction n with
  | zero => exact ⟨herr, by omega⟩
  | succ n ih =>
    have hn := hs.after ω n
    have hreads : (Html.after h ω n).2.fptr < f.data.length → (ω n).outcome.fails = false :=
      fun hin => hok n fun heq => absurd (hn.atEnd_iff.1 heq) (Nat.ne_of_lt hin)
    refine ⟨hn.readCall_ok (ω n) ih.1 hreads, ?_⟩
    show _ ≤ (Html.readCall (Html.after h ω n) (ω n)).2.2.fptr
    rcases Nat.eq_or_lt_of_le hn.fptr_le with hend | hin
    · rw [hn.readCall_end (ω n) hend]
      show _ ≤ (Html.after h ω n).2.fptr
      omega
    · have hmove := hn.readCall_progress (ω n) ih.1 hin (hreads hin)
      omega

/-- If a read fails no call comes to the end. Before it no call was at the end, and after it the
file stays as it is. -/
theorem Streaming.never_ends {m : Nat} (hin : (Html.after h ω m).2.fptr < f.data.length)
    (hfail : (ω m).outcome.fails = true) (n : Nat) :
    (Html.after h ω n).2.fptr < f.data.length := by
  refine Nat.lt_of_le_of_ne (hs.after ω n).fptr_le fun hend => ?_
  rcases Nat.le_total n m with hnm | hmn
  · -- the end before the failed read would have stayed
    obtain ⟨k, rfl⟩ := Nat.exists_eq_add_of_le hnm
    rw [hs.after_stuck ω (.inl hend) k] at hin
    exact Nat.ne_of_lt hin hend
  · have herr : (Html.after h ω (m + 1)).2.err = true :=
      (hs.after ω m).readCall_fails (ω m) hin hfail
    rcases Nat.eq_or_lt_of_le hmn with rfl | hlt
    · exact Nat.ne_of_lt hin hend
    · obtain ⟨k, rfl⟩ := Nat.exists_eq_add_of_lt hlt
      have hstay := hs.after_stuck ω (.inr herr) k
      have hinside := (hs.after ω (m + 1)).err herr
      rw [show m + k + 1 = m + 1 + k by omega, hstay] at hend
      exact Nat.ne_of_lt hinside hend

end Calls

end NucleoH743.Html
