import NucleoH743.Html.Heap

/-!
# `Proofs.Html.Heap`: the file objects that the HTTP server leaves on the heap

An open that fails gives its file object back, whichever step fails. A close gives none back:
`fs_close_custom` closes the object, and sets its own pointer to it to null.

An open is three steps behind its `malloc`: the volume is mounted, the root directory is opened, and
the file is. The model runs it as a program whose calls of the heap and of FatFs are answered, so
that each failure is a branch. Where one of the steps fails the block is freed, which leaves the
heap as it was before.

The handles of the open files are kept beside the heap. An event adds a file with its block, takes a
file away, or does neither; only the second breaks the balance, and nothing restores it later, as
the other events keep the number of the blocks that are lost.

- `heap_conserved_iff`: along a history, the blocks on the heap stay those of the open files iff no
  open file is closed.
-/

set_option autoImplicit false

namespace NucleoH743.Html.Heap

open NucleoH743.FatFs
open CStr (textBytes)
open EventRun (run Along along_congr)

/-- The blocks on the heap are those of the open files. -/
def Conserved (s : Server) : Prop := s.heap.Perm (s.files.filterMap FsFile.pextension)

/-- The event closes an open file. -/
def Closes (s : Server) : Event → Prop
  | .fsOpen _ _ _ => False
  | .fsClose i _ => i < s.files.length

/-- A file that is open has a file object. -/
def FilesOpen (s : Server) : Prop :=
  ∀ file ∈ s.files, file.isCustomFile = true ∧ ∃ addr, file.pextension = some addr

/-! ### Programs -/

section Programs
variable (x : Answers) (heap : Blocks)

/-- FatFs does not touch the heap. -/
theorem run_fatFs {α : Type} (p : Caller Nat α) : (p.interp fatFs).run (handle x) heap =
    (p.eval x.fatFs, heap) := by
  induction p with
  | ret a => rfl
  | op c k ih => exact ih (x.fatFs c)

/-- Closing a file leaves the heap as it is. -/
theorem run_fsClose (file : FsFile) : ((fsClose file).run (handle x) heap).2 = heap :=
  congrArg Prod.snd (run_fatFs x heap (Html.fsClose file))

/-- So do the steps of an open. -/
theorem run_openSteps (file : Nat) (name : List UInt8) :
    ((openSteps file name).run (handle x) heap).2 = heap := by
  -- each step is one call, whatever the calls before it have returned
  by_cases hmount : x.mount = .ok
  · by_cases hdir : x.fatFs (.fOpendir (textBytes "/")) = FResult.ok
    · simp [openSteps, fatFs, handle, hmount, hdir]
    · simp [openSteps, fatFs, handle, hmount, hdir]
  · simp [openSteps, fatFs, handle, hmount]

/-- Whether the three steps of the open succeed. -/
def opens (file : Nat) (name : List UInt8) : Bool :=
  ((openSteps file name).run (handle x) heap).1

/-- An open leaves its file object on the heap if its steps succeed, and nothing otherwise. By the
results of the three steps, in their order. -/
theorem run_fsOpenCustom (fileFs : FsFile) (name : List UInt8) :
    ∃ file : FsFile, file.isCustomFile = true ∧ file.pextension = some x.malloc ∧
      (fsOpenCustom fileFs name).run (handle x) heap =
        if opens x (x.malloc :: heap) x.malloc name then ((true, file), x.malloc :: heap)
        else ((false, fileFs), heap) := by
  refine ⟨{ fileFs with
    len := Int.bmod (x.fatFs (.fSize x.malloc) : Nat) (2 ^ 32)
    index := 0
    pextension := some x.malloc
    isCustomFile := true }, rfl, rfl, ?_⟩
  have hheap := run_openSteps x (x.malloc :: heap) x.malloc name
  show ((openSteps x.malloc name >>= fun opened => _).run (handle x) (x.malloc :: heap)) = _
  rw [Prog.run_bind, hheap]
  show (if opens x (x.malloc :: heap) x.malloc name = true then _ else _ : HeapProg _).run _ _ = _
  -- the steps end with the object kept, or freed again
  split
  · rfl
  · -- the block that was taken is the first one that `free` finds
    have hfree : (x.malloc :: heap).erase x.malloc = heap := List.erase_cons_head _ _
    exact congrArg (fun h => ((false, fileFs), h)) hfree

end Programs

/-! ### Events -/

/-- An open that succeeds adds one file and its block, and any other one adds none. -/
theorem step_fsOpen (s : Server) (fileFs : FsFile) (name : List UInt8) (x : Answers) :
    step s (.fsOpen fileFs name x) = s ∨
      ∃ file : FsFile, file.isCustomFile = true ∧ file.pextension = some x.malloc ∧
        step s (.fsOpen fileFs name x) = ⟨x.malloc :: s.heap, file :: s.files⟩ := by
  obtain ⟨file, hcustom, haddr, hrun⟩ := run_fsOpenCustom x s.heap fileFs name
  by_cases hused : x.malloc ∈ s.heap
  · exact .inl (if_pos hused)
  rw [step, if_neg hused, hrun]
  cases opens x (x.malloc :: s.heap) x.malloc name with
  | false => exact .inl rfl
  | true => exact .inr ⟨file, hcustom, haddr, rfl⟩

/-- A close takes the file away and leaves the heap. -/
theorem step_fsClose {s : Server} {i : Nat} (hi : i < s.files.length) (x : Answers) :
    step s (.fsClose i x) = ⟨s.heap, s.files.eraseIdx i⟩ := by
  have hget : s.files[i]? = some s.files[i] := List.getElem?_eq_getElem hi
  rw [step, hget]
  exact congrArg (fun h => Server.mk h (s.files.eraseIdx i)) (run_fsClose x s.heap _)

/-- A close of a handle that is not open does nothing. -/
theorem step_fsClose_none {s : Server} {i : Nat} (hi : ¬ i < s.files.length) (x : Answers) :
    step s (.fsClose i x) = s := by
  have hget : s.files[i]? = none := List.getElem?_eq_none (Nat.le_of_not_lt hi)
  rw [step, hget]

/-- Open files keep having a file object. The list changes by the file that was opened, or by the
one that was closed. -/
theorem FilesOpen.step {s : Server} (hs : FilesOpen s) (e : Event) : FilesOpen (step s e) := by
  cases e with
  | fsOpen fileFs name x =>
    rcases step_fsOpen s fileFs name x with h | ⟨file, hcustom, haddr, h⟩
    · rw [h]
      exact hs
    · rw [h]
      intro g hg
      rcases List.mem_cons.1 hg with rfl | hg
      · exact ⟨hcustom, _, haddr⟩
      · exact hs g hg
  | fsClose i x =>
    by_cases hi : i < s.files.length
    · rw [step_fsClose hi]
      -- a close forgets the file, and keeps its object on the heap
      exact fun g hg => hs g (List.mem_of_mem_eraseIdx hg)
    · rw [step_fsClose_none hi]
      exact hs

/-- Each open file has one block. -/
theorem FilesOpen.length {s : Server} (hs : FilesOpen s) :
    (s.files.filterMap FsFile.pextension).length = s.files.length := by
  rw [List.length_filterMap_eq_countP, List.countP_eq_length]
  intro file hfile
  obtain ⟨-, addr, haddr⟩ := hs file hfile
  rw [haddr]
  rfl

/-- One event keeps the blocks those of the open files iff it closes none. A close takes a file away
and leaves its block, so there is one block too many. An open adds both or none. -/
theorem conserved_step_iff {s : Server} (hopen : FilesOpen s) (hs : Conserved s) (e : Event) :
    Conserved (step s e) ↔ ¬ Closes s e := by
  cases e with
  | fsOpen fileFs name x =>
    refine iff_of_true ?_ id
    rcases step_fsOpen s fileFs name x with h | ⟨file, -, haddr, h⟩
    · rw [h]
      exact hs
    · have hblocks : (file :: s.files).filterMap FsFile.pextension =
          x.malloc :: s.files.filterMap FsFile.pextension := List.filterMap_cons_some haddr
      rw [h, Conserved, hblocks]
      exact hs.cons x.malloc
  | fsClose i x =>
    by_cases hi : i < s.files.length
    · refine iff_of_false (fun hperm => ?_) (fun hnot => hnot hi)
      -- one file less, and as many blocks as before
      have hafter := (hopen.step (.fsClose i x)).length
      have hbefore := hopen.length
      have hperm := hperm.length_eq
      have hblocks := hs.length_eq
      rw [step_fsClose hi] at hafter hperm
      have hless : (s.files.eraseIdx i).length = s.files.length - 1 := List.length_eraseIdx_of_lt hi
      dsimp only at hafter hperm
      omega
    · rw [step_fsClose_none hi]
      exact iff_of_true hs hi

/-- Along a history, the blocks on the heap stay those of the open files iff no open file is closed.
The answers of the calls are any ones, so an open may fail at each of its steps. These ways give the
block back, and the close that should does not. -/
theorem heap_conserved_iff (es : List Event) :
    Along step (fun s e => Conserved (step s e)) {} es ↔
      Along step (fun s e => ¬ Closes s e) {} es := by
  have hstart : FilesOpen {} ∧ Conserved {} := ⟨fun _ h => (List.not_mem_nil h).elim, .nil⟩
  have hstep : ∀ s e, FilesOpen s ∧ Conserved s → Conserved (step s e) →
      FilesOpen (step s e) ∧ Conserved (step s e) := fun s e hs hkeep => ⟨hs.1.step e, hkeep⟩
  have hiff : ∀ s e, FilesOpen s ∧ Conserved s → (Conserved (step s e) ↔ ¬ Closes s e) :=
    fun s e hs => conserved_step_iff hs.1 hs.2 e
  exact along_congr hstep hiff hstart es

/-- Every call succeeds. -/
def Answers.good (addr : Nat) : Answers where
  malloc := addr
  mount := .ok
  fatFs
    | .fMount _ | .memset _ => ()
    | .fOpendir _ | .fOpen _ _ _ _ | .fLseek _ _ | .fClose _ | .fMkdir _ _ | .fUnlink _ _ => .ok
    | .fRead _ _ => (.ok, [])
    | .fWrite _ _ _ => (.ok, 0)
    | .fSize _ => 0

/-- A file that is opened and closed leaves its file object on the heap. -/
theorem heap_leaks :
    ¬ ∀ es : List Event, Along step (fun s e => Conserved (step s e)) {} es := by
  intro h
  have hes := (h [.fsOpen {} (textBytes "/a") (.good 8), .fsClose 0 (.good 8)]).2.1
  have hlen := hes.length_eq
  exact absurd hlen (by decide)

end NucleoH743.Html.Heap
