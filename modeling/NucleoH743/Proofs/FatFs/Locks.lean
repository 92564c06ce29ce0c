import NucleoH743.Proofs.FatFs.Calls

/-!
# `Proofs.FatFs.Locks`: the open-object table

What the FatFs calls do to a table without open objects.

The table has a slot for each open file and sub-directory, found by its first free one, and a call
that finds none fails. A slot whose object is never closed stays in use until `f_mount` or a new
mount of its volume clears the table. `NoLocks` and `OneLock` are the two states that a server which
opens one object at a time goes between.

The last section has no such assumption: other services may have objects open, and what counts for
an open is whether the entry is among them.

- `fOpen_files`: an open that fails leaves the table empty; one that succeeds fills the slot
  that the file object names.
- `fClose_files`: closing that file object empties the table again.
- `fOpen_noLockError`, `fOpendir_noLockError`: with an empty table no open fails because of the
  table.
-/

set_option autoImplicit false

namespace NucleoH743.FatFs

/-- No object is open. -/
def NoLocks (v : Volume) : Prop := v.files = fun _ => none

/-- The object of slot `i` is open, once, and no other one. -/
def OneLock (v : Volume) (i : Fin 2) : Prop :=
  ∃ l : Lock, v.files = Function.update (fun _ => none) i (some l) ∧ (l.ctr = 1 ∨ l.ctr = 0x100)

/-- The results that only the table gives. -/
def LockError (res : FResult) : Prop := res = .tooManyOpenFiles ∨ res = .locked

/-- A table with an open object is not empty. -/
theorem OneLock.not_noLocks {v : Volume} {i : Fin 2} (h : OneLock v i) : ¬ NoLocks v := by
  obtain ⟨l, hl, -⟩ := h
  intro hnone
  have hslot : v.files i = some l := by rw [hl, Function.update_self]
  rw [hnone] at hslot
  cases hslot

namespace NoLocks

variable {v : Volume} (h : NoLocks v)
include h

/-- An empty table has its first slot free. -/
theorem findSlot_free : findSlot v.files Option.isNone = some 0 := by
  rw [h]
  rfl

/-- No slot of it holds an object. -/
theorem findSlot_holds (fs : FsObj) (e : Entry) : findSlot v.files (Lock.holds fs e) = none := by
  rw [h]
  rfl

/-- `mount_volume` leaves an empty table empty. -/
theorem mountVolume : NoLocks (mountVolume v).2 := by
  unfold FatFs.mountVolume
  split
  · exact h
  · split_ifs
    · exact h
    · exact h
    · show (fun i => (v.files i).filter _) = _
      rw [h]
      rfl

/-- The first open object takes the first slot. -/
theorem incLock (fs : FsObj) (e : Entry) (acc : Bool) :
    ∃ v', incLock v fs e acc = some (0, v') ∧ OneLock v' 0 := by
  unfold FatFs.incLock
  rw [h.findSlot_holds, h.findSlot_free]
  refine ⟨_, if_neg (by simp), _, congrArg (Function.update · 0 _) h, ?_⟩
  cases acc
  · left
    rfl
  · right
    rfl

end NoLocks

/-- The only close of an object frees its slot. -/
theorem decLock_eq {v : Volume} {i : Fin 2} {l : Lock} (hslot : v.files i = some l)
    (hctr : l.ctr = 1 ∨ l.ctr = 0x100) :
    decLock v i = { v with files := Function.update v.files i none } := by
  have hlast : (if l.ctr = 0x100 then 0 else l.ctr) - 1 = 0 := by
    rcases hctr with hctr | hctr <;> simp [hctr]
  unfold decLock
  simp only [hslot, Option.map_some, Option.getD_some, hlast, if_true]

/-- The last close of an object empties the table. -/
theorem decLock_files {v : Volume} {i : Fin 2} (h : OneLock v i) : NoLocks (decLock v i) := by
  obtain ⟨l, hl, hctr⟩ := h
  have hslot : v.files i = some l := by rw [hl, Function.update_self]
  rw [decLock_eq hslot hctr]
  show Function.update v.files i none = _
  rw [hl, Function.update_idem]
  exact Function.update_eq_self i fun _ => none

/-! ### Calls -/

section Calls
variable {v : Volume}

/-- What an open finds does not change the table. -/
theorem openEntry_files {fs : FsObj} {path : Path} {mode : Mode} {slot : Bool} {e : Entry}
    {data : List UInt8} {v' : Volume} (h : openEntry v fs path mode slot = .ok (e, data, v')) :
    v'.files = v.files := by
  obtain ⟨-, ⟨nodes, rfl, -⟩, -⟩ := openEntry_spec h
  rfl

/-- With an empty table no open fails for the table: it has room, and no open of another mode is in
the way. -/
theorem openEntry_noLockError (h : NoLocks v) {fs : FsObj} {path : Path} {mode : Mode}
    {slot : Bool} {res : FResult} (hres : openEntry v fs path mode slot = .error res) :
    ¬ LockError res := by
  have hchk : ∀ e acc, chkLock v fs e acc = .ok := by
    intro e acc
    unfold chkLock
    rw [h.findSlot_holds, h.findSlot_free]
    rfl
  have henq : enqLock v = true := by
    unfold enqLock
    rw [h.findSlot_free]
    rfl
  unfold openEntry at hres
  simp only [hchk, henq] at hres
  unfold LockError
  grind

/-- The check of the volume gives none of these results. -/
theorem mountVolume_noLockError (v : Volume) : ¬ LockError (mountVolume v).1 := by
  unfold mountVolume LockError
  split
  · simp
  · split_ifs <;> simp

/-- The file object and the table after `f_open`. The table has one entry behind an open that
succeeds, and none behind one that fails; an error about the table is not among the failures,
because it is empty. -/
theorem fOpen_files (h : NoLocks v) (fp : Fil) (path : Path) (mode : Mode) (slot : Bool) :
    if (fOpen v fp path mode slot).1 = .ok then
      OneLock (fOpen v fp path mode slot).2.2 (fOpen v fp path mode slot).2.1.lockid
    else NoLocks (fOpen v fp path mode slot).2.2 ∧ ¬ LockError (fOpen v fp path mode slot).1 := by
  have hmount := h.mountVolume
  unfold fOpen
  split
  · rename_i v₁ fs hv _
    rw [hv] at hmount
    split
    · rename_i res he
      have hne : res ≠ .ok := fun heq => openEntry_ne_ok (heq ▸ he)
      rw [if_neg hne]
      exact ⟨hmount, openEntry_noLockError hmount he⟩
    · rename_i e data v₂ he
      have hempty : NoLocks v₂ := (openEntry_files he).trans hmount
      obtain ⟨v₃, hinc, hone⟩ := hempty.incLock fs e mode.acc
      rw [hinc]
      dsimp only
      rw [if_pos rfl]
      exact hone
  · rename_i res v₁ hv hno
    have hres := mountVolume_noLockError v
    rw [hv] at hmount hres
    have hne := mountVolume_notOk hv hno
    rw [if_neg hne]
    exact ⟨hmount, hres⟩

/-- So `f_open` gives none of them, with an empty table. -/
theorem fOpen_noLockError (h : NoLocks v) (fp : Fil) (path : Path) (mode : Mode) (slot : Bool) :
    ¬ LockError (fOpen v fp path mode slot).1 := by
  have hfiles := fOpen_files h fp path mode slot
  split at hfiles
  · next hok => simp [hok, LockError]
  · exact hfiles.2

/-- `f_close` gives its slot back, and writes the directory entry. -/
theorem fClose_frame {fp : Fil} (hv : fp.valid v = true) :
    ∃ nodes, (fClose v fp).2.2 = { decLock v fp.lockid with nodes } := by
  unfold fClose fSync
  rw [if_pos hv]
  by_cases hm : fp.faModified = true
  · rw [if_pos hm]
    exact ⟨_, rfl⟩
  · rw [if_neg hm]
    exact ⟨_, rfl⟩

/-- `f_close` of the only open object. -/
theorem fClose_files {fp : Fil} (h : OneLock v fp.lockid) (hv : fp.valid v = true) :
    NoLocks (fClose v fp).2.2 := by
  obtain ⟨nodes, heq⟩ := fClose_frame hv
  rw [heq]
  exact decLock_files h

/-- A path that `f_opendir` opens as a sub-directory, which takes a slot of the table. -/
def SubDir (v : Volume) (path : Path) : Prop :=
  (mountVolume v).1 = .ok ∧
    match v.follow path with
    | .entry e => v.nodes e = some .dir
    | _ => False

instance (v : Volume) (path : Path) : Decidable (SubDir v path) := by
  unfold SubDir
  split <;> infer_instance

/-- The table after `f_opendir`. -/
theorem fOpendir_files (h : NoLocks v) (path : Path) :
    ¬ LockError (fOpendir v path).1 ∧ (NoLocks (fOpendir v path).2.2 ↔ ¬ SubDir v path) := by
  have hmount := h.mountVolume
  have hres := mountVolume_noLockError v
  have hnodes := mountVolume_nodes v
  have hfollow := mountVolume_follow v
  unfold fOpendir SubDir
  split
  · rename_i v₁ fs hv _
    rw [hv] at hmount hnodes hfollow
    dsimp only at hnodes hfollow
    rw [hv, ← hnodes, ← hfollow]
    cases hpath : v₁.follow path with
    | invalidName => exact ⟨by simp [LockError], by simpa using hmount⟩
    | noPath => exact ⟨by simp [LockError], by simpa using hmount⟩
    | origin => exact ⟨by simp [LockError], by simpa using hmount⟩
    | entry e =>
      cases hnode : v₁.nodes e with
      | none => exact ⟨by simp [LockError, hnode], by simpa [hnode] using hmount⟩
      | some node =>
        cases node with
        | file data => exact ⟨by simp [LockError, hnode], by simpa [hnode] using hmount⟩
        | dir =>
          obtain ⟨v₂, hinc, hone⟩ := hmount.incLock fs e false
          dsimp only at hinc ⊢
          simp only [hnode, hinc]
          exact ⟨by simp [LockError], by simpa using hone.not_noLocks⟩
  · rename_i res v₁ hv hno
    rw [hv] at hmount hres
    have hne := mountVolume_notOk hv hno
    exact ⟨hres, by simpa [hv, hne] using hmount⟩

end Calls

/-! ### One file and the rest of the table -/

/-- Every used element of the table counts at least one open. -/
def LocksUsed (v : Volume) : Prop := ∀ i l, v.files i = some l → l.ctr ≠ 0

/-- The volume is mounted, the entry is not open, and the table has room for it. -/
structure CanLock (v : Volume) (fs : FsObj) (e : Entry) : Prop where
  fatFs : v.fatFs = some fs
  mounted : (v.obj fs).fsType ≠ 0
  closed : findSlot v.files (Lock.holds fs e) = none
  slot : ∃ i, findSlot v.files Option.isNone = some i

/-- A slot that is found has the property that was searched for. -/
theorem findSlot_some {files : Fin 2 → Option Lock} {f : Option Lock → Bool} {i : Fin 2}
    (h : findSlot files f = some i) : f (files i) = true := by
  unfold findSlot at h
  split_ifs at h with h₀ h₁
  · cases h
    exact h₀
  · cases h
    exact h₁

/-- If a slot has the property, one is found. -/
theorem findSlot_isSome {files : Fin 2 → Option Lock} {f : Option Lock → Bool} {i : Fin 2}
    (h : f (files i) = true) : ∃ j, findSlot files f = some j := by
  unfold findSlot
  split_ifs with h₀ h₁
  · exact ⟨0, rfl⟩
  · exact ⟨1, rfl⟩
  · obtain rfl | rfl : i = 0 ∨ i = 1 := by omega
    · exact absurd h h₀
    · exact absurd h h₁

/-- On a mounted volume the check changes nothing. -/
theorem mountVolume_mounted {v : Volume} {fs : FsObj} (hfs : v.fatFs = some fs)
    (h : (v.obj fs).fsType ≠ 0) : mountVolume v = (.ok, v) := by
  unfold mountVolume
  rw [hfs]
  exact if_pos h

/-- Opening a file for reading takes a free slot and changes nothing else. -/
theorem fOpen_read {v : Volume} {path : Path} {fs : FsObj} {e : Entry} {data : List UInt8}
    (h : CanLock v fs e) (hpath : v.follow path = .entry e)
    (hnode : v.nodes e = some (.file data)) :
    ∃ (i : Fin 2) (l : Lock) (file : Fil), v.files i = none ∧ l.ctr = 1 ∧
      fOpen v Fil.null path { faRead := true } false =
        (.ok, file, { v with files := Function.update v.files i (some l) }) ∧
      file.lockid = i ∧ file.data = data := by
  obtain ⟨i, hi⟩ := h.slot
  have hfree : v.files i = none := by simpa using findSlot_some hi
  -- a free slot, and nobody has the entry open: the lock is granted and counts one
  have hchk : chkLock v fs e false = .ok := by
    unfold chkLock
    rw [h.closed, hi]
    rfl
  have hentry : openEntry v fs path { faRead := true } false = .ok (e, data, v) := by
    unfold openEntry
    simp only [hpath, hnode, Mode.acc, Bool.or_self, hchk]
    rfl
  have hinc : incLock v fs e ({ faRead := true } : Mode).acc =
      some (i, { v with files := Function.update v.files i (some ⟨fs, e, 1⟩) }) := by
    unfold incLock
    rw [h.closed, hi]
    rfl
  have hopen : fOpen v Fil.null path { faRead := true } false =
      (.ok, { fs := some fs, id := (v.obj fs).id, lockid := i, entry := e, faRead := true,
              faModified := false || (v.nodes e).isNone, data },
        { v with files := Function.update v.files i (some ⟨fs, e, 1⟩) }) := by
    unfold fOpen
    rw [mountVolume_mounted h.fatFs h.mounted, h.fatFs]
    dsimp only
    rw [hentry]
    dsimp only
    rw [hinc]
    dsimp only
    rw [h.fatFs]
  exact ⟨i, ⟨fs, e, 1⟩, _, hfree, rfl, hopen, rfl, rfl⟩

/-- `mount_volume` leaves the counts of the table alone. -/
theorem LocksUsed.mountVolume {v : Volume} (h : LocksUsed v) : LocksUsed (mountVolume v).2 := by
  unfold FatFs.mountVolume
  split
  · exact h
  · split_ifs
    · exact h
    · exact h
    · intro i l hl
      have hl : (v.files i).filter _ = some l := hl
      exact h i l (Option.filter_eq_some_iff.1 hl).1

/-- A write access registers an object that nobody has open. An object that somebody has open is not
registered again for writing. -/
theorem incLock_write {v v' : Volume} {fs : FsObj} {e : Entry} {i : Fin 2} (hused : LocksUsed v)
    (h : incLock v fs e true = some (i, v')) :
    v.files i = none ∧ findSlot v.files (Lock.holds fs e) = none ∧
      v' = { v with files := Function.update v.files i (some ⟨fs, e, 0x100⟩) } := by
  unfold incLock at h
  cases hheld : findSlot v.files (Lock.holds fs e) with
  | some j =>
    obtain ⟨l, hl⟩ : ∃ l, v.files j = some l := by
      have hholds := findSlot_some hheld
      cases hj : v.files j with
      | none => simp [hj, Lock.holds] at hholds
      | some l => exact ⟨l, rfl⟩
    simp [hheld, hl, hused j l hl] at h
  | none =>
    cases hfree : findSlot v.files Option.isNone with
    | none => simp [hheld, hfree] at h
    | some j =>
      obtain ⟨rfl, rfl⟩ : j = i ∧ _ := by simpa [hheld, hfree] using h
      exact ⟨by simpa using findSlot_some hfree, rfl, rfl⟩

/-- Opening a file for writing takes a slot that was free, and no other one knows the file. -/
theorem fOpen_write {v v' : Volume} {file : Fil} {path : Path} {mode : Mode} {slot : Bool}
    (hused : LocksUsed v) (hacc : mode.acc = true)
    (h : fOpen v Fil.null path mode slot = (.ok, file, v')) :
    ∃ fs l, v'.files file.lockid = some l ∧ l.ctr = 0x100 ∧
      CanLock { v' with files := Function.update v'.files file.lockid none } fs file.entry := by
  have hopen := fOpen_spec h
  unfold fOpen at h
  split at h
  · rename_i v₁ fs hm hfs
    obtain ⟨fs', hfs', hty⟩ := mountVolume_ok hm
    obtain rfl : fs = fs' := by simpa [hfs] using hfs'
    have hused₁ := hused.mountVolume
    rw [hm] at hused₁
    split at h
    · rename_i res he
      obtain ⟨rfl, -, -⟩ : res = .ok ∧ _ ∧ _ := by simpa using h
      exact absurd he openEntry_ne_ok
    · rename_i e data v₂ he
      have hfiles := openEntry_files he
      split at h
      · simp at h
      · rename_i i v₃ hinc
        obtain ⟨rfl, rfl⟩ : _ ∧ _ := by simpa using h
        have hused₂ : LocksUsed v₂ := by
          intro j l hl
          exact hused₁ j l (hfiles ▸ hl)
        rw [hacc] at hinc
        obtain ⟨hfree, hclosed, rfl⟩ := incLock_write hused₂ hinc
        -- taking the new lock out again gives the table before the open
        have hback : Function.update (Function.update v₂.files i (some ⟨fs, e, 0x100⟩)) i none =
            v₂.files := by
          rw [Function.update_idem, ← hfree, Function.update_eq_self]
        have hfat := mountVolume_fatFs v
        rw [hm, hfs] at hfat
        obtain ⟨-, ⟨nodes, rfl, -⟩, -⟩ := openEntry_spec he
        refine ⟨fs, _, Function.update_self .., rfl, hfat, hty, ?_, ?_⟩
        · exact (congrArg (findSlot · (Lock.holds fs e)) hback).trans hclosed
        · refine findSlot_isSome (i := i) ?_
          dsimp only
          rw [Function.update_self]
          rfl
  · rename_i res v₁ hm hno
    obtain ⟨hok, -, -⟩ : res = .ok ∧ _ ∧ _ := by simpa using h
    -- an open that mounts the volume has found its object
    exact absurd hok (mountVolume_notOk hm hno)

end NucleoH743.FatFs
