import NucleoH743.FatFs.Api
import NucleoH743.Proofs.FatFs.Calls

/-!
# `Proofs.FatFs.Mounts`: which calls end the validity of open files

A file object is valid while its owner stays mounted under the same ID. Only `f_mount` takes a
mounted object away: every other call mounts the registered object at most, if it is not
mounted yet (`Kept`).

An object in the table of volumes becomes mounted by the first call that needs it, with a new ID. So
an open file can be invalid for two reasons, and both need an `f_mount` in between: another object
is registered, or the same one has been mounted again.

- `Call.kept`: every call but `f_mount` keeps the mounted objects.
- `MountedRegistered.run`: no program of calls mounts anything but the registered object.
- `fMount_invalid`: `f_mount` makes every file object invalid, whatever it mounts.
-/

set_option autoImplicit false

namespace NucleoH743.FatFs

/-- The mounted objects of `v` are mounted in `v'`, and another one only if it is registered. -/
structure Kept (v v' : Volume) : Prop where
  fatFs : v'.fatFs = v.fatFs
  mounted : ∀ fs, (v.obj fs).fsType ≠ 0 → v'.obj fs = v.obj fs
  fresh : ∀ fs, (v.obj fs).fsType = 0 → (v'.obj fs).fsType ≠ 0 → v.fatFs = some fs

/-- A change of the table and of the directory entries keeps what is mounted. -/
theorem Kept.of_obj {v v' : Volume} (hfat : v'.fatFs = v.fatFs) (hobj : v'.obj = v.obj) :
    Kept v v' where
  fatFs := hfat
  mounted _ _ := by rw [hobj]
  fresh fs h h' := by
    rw [hobj] at h'
    exact absurd h h'

/-- A volume keeps its own mounts. -/
theorem Kept.refl (v : Volume) : Kept v v := .of_obj rfl rfl

/-- What is kept twice is kept: a mount that the second call adds is of the object that is
registered in both. -/
theorem Kept.trans {v v' v'' : Volume} (h : Kept v v') (h' : Kept v' v'') : Kept v v'' where
  fatFs := h'.fatFs.trans h.fatFs
  mounted fs hty := by
    have hmid := h.mounted fs hty
    rw [← hmid] at hty
    exact (h'.mounted fs hty).trans hmid
  fresh fs hty hty'' := by
    by_cases hmid : (v'.obj fs).fsType = 0
    · rw [← h.fatFs]
      exact h'.fresh fs hmid hty''
    · exact h.fresh fs hty hmid

/-- A valid file object stays valid. -/
theorem Kept.valid {v v' : Volume} (h : Kept v v') {fp : Fil} (hv : fp.valid v = true) :
    fp.valid v' = true := by
  unfold Fil.valid validate at hv ⊢
  cases hfs : fp.fs with
  | none => simp [hfs] at hv
  | some fs =>
    rw [hfs] at hv
    obtain ⟨hty, hid⟩ : (v.obj fs).fsType ≠ 0 ∧ fp.id = (v.obj fs).id := by simpa using hv
    have hsame := h.mounted fs hty
    simp [hsame, hty, hid]

section Calls
variable (v : Volume)

/-- `mount_volume` mounts the registered object at most, and unmounts none. By whether it is
registered, mounted, and formatted. -/
theorem kept_mountVolume : Kept v (mountVolume v).2 := by
  unfold mountVolume
  cases hfat : v.fatFs with
  | none => exact .refl v
  | some fs =>
    dsimp only
    split_ifs with hty hfmt
    · exact .refl v
    · exact .refl v
    · -- the registered object is mounted under a new ID
      refine ⟨hfat.symm ▸ hfat, ?_, ?_⟩
      · intro fs' hty'
        have hne : fs' ≠ fs := by
          rintro rfl
          exact hty hty'
        simp [clearLock, hne]
      · intro fs' hty₀ hty'
        by_cases hne : fs' = fs
        · rw [hne, hfat]
        · simp [clearLock, hne, hty₀] at hty'

/-- A change of the table of open objects mounts nothing. -/
theorem kept_incLock {v' : Volume} {fs : FsObj} {e : Entry} {acc : Bool} {i : Fin 2}
    (h : incLock v fs e acc = some (i, v')) : Kept v v' := by
  obtain ⟨files, rfl⟩ := incLock_frame h
  exact .of_obj rfl rfl

/-- Nor does a new entry. -/
theorem kept_openEntry {v' : Volume} {fs : FsObj} {path : Path} {mode : Mode} {slot : Bool}
    {e : Entry} {data : List UInt8} (h : openEntry v fs path mode slot = .ok (e, data, v')) :
    Kept v v' := by
  obtain ⟨-, ⟨nodes, rfl, -⟩, -⟩ := openEntry_spec h
  exact .of_obj rfl rfl

/-- So `f_open` keeps the mounts but for the one that it makes itself. Behind the mount it works on
the entries and on the table. -/
theorem kept_fOpen (fp : Fil) (path : Path) (mode : Mode) (slot : Bool) :
    Kept v (fOpen v fp path mode slot).2.2 := by
  have hmount := kept_mountVolume v
  unfold fOpen
  split
  · rename_i v₁ fs hm _
    rw [hm] at hmount
    split
    · exact hmount
    · rename_i e data v₂ he
      have hentry := hmount.trans (kept_openEntry v₁ he)
      split
      · exact hentry
      · rename_i i v₃ hl
        exact hentry.trans (kept_incLock v₂ hl)
  · rename_i res v₁ hm _
    rw [hm] at hmount
    exact hmount

/-- `f_close` mounts nothing. -/
theorem kept_fClose (fp : Fil) : Kept v (fClose v fp).2.2 := by
  unfold fClose fSync
  by_cases hv : fp.valid v <;> by_cases hm : fp.faModified <;> simp only [hv, hm, if_true]
  all_goals exact .of_obj rfl rfl

/-- `f_opendir` keeps the mounts in the same sense as `f_open`. -/
theorem kept_fOpendir (path : Path) : Kept v (fOpendir v path).2.2 := by
  obtain ⟨files, h⟩ := fOpendir_frame v path
  rw [h]
  exact (kept_mountVolume v).trans (.of_obj rfl rfl)

/-- So does `f_mkdir`. -/
theorem kept_fMkdir (path : Path) (slot : Bool) : Kept v (fMkdir v path slot).2 := by
  obtain ⟨nodes, h⟩ := fMkdir_frame v path slot
  rw [h]
  exact (kept_mountVolume v).trans (.of_obj rfl rfl)

/-- So does `f_unlink`. -/
theorem kept_fUnlink (path : Path) (removable : Bool) : Kept v (fUnlink v path removable).2 := by
  obtain ⟨nodes, h⟩ := fUnlink_frame v path removable
  rw [h]
  exact (kept_mountVolume v).trans (.of_obj rfl rfl)

end Calls

/-- Every call but `f_mount` keeps what is mounted. -/
theorem Call.kept {φ : Type} [DecidableEq φ] (c : Call φ) (d : Disk φ) (h : c.mounts = none) :
    Kept d.vol (c.handle d).2.vol := by
  cases c with
  | fMount fs => cases h
  | fOpendir path => exact kept_fOpendir _ _
  | fOpen f path mode slot => exact kept_fOpen _ _ _ _ _
  | fClose f => exact kept_fClose _ _
  | fMkdir path slot => exact kept_fMkdir _ _ _
  | fUnlink path removable => exact kept_fUnlink _ _ _
  | fRead _ _ | fWrite _ _ _ | fLseek _ _ | fSize _ | memset _ => exact .refl _

/-! ### Mounting -/

/-- Only the registered object is mounted. -/
def MountedRegistered (v : Volume) : Prop := ∀ fs, (v.obj fs).fsType ≠ 0 → v.fatFs = some fs

/-- A call that keeps the mounts keeps only the registered object mounted. -/
theorem MountedRegistered.kept {v v' : Volume} (h : MountedRegistered v) (hk : Kept v v') :
    MountedRegistered v' := by
  intro fs hty
  rw [hk.fatFs]
  by_cases hold : (v.obj fs).fsType = 0
  · exact hk.fresh fs hold hty
  · exact h fs hold

/-- After `f_mount` with `opt = 0` no object is mounted. It clears the object that was registered
and the one that it registers, and no other one was mounted. -/
theorem fMount_fsType {v : Volume} (h : MountedRegistered v) (fs? : Option FsObj) (fs : FsObj) :
    ((fMount v fs?).obj fs).fsType = 0 := by
  have hzero : v.fatFs ≠ some fs → (v.obj fs).fsType = 0 := by
    intro hne
    by_contra hty
    exact hne (h fs hty)
  cases hfat : v.fatFs with
  | none =>
    have hty : (v.obj fs).fsType = 0 := hzero (by simp [hfat])
    cases fs? with
    | none => simpa [fMount, hfat] using hty
    | some fs' => by_cases hfs : fs = fs' <;> simp [fMount, hfat, clearFs, hfs, hty]
  | some cfs =>
    have hclear : ((clearFs (clearLock v cfs) cfs).obj fs).fsType = 0 := by
      by_cases hfs : fs = cfs
      · simp [clearFs, hfs]
      · have hty : (v.obj fs).fsType = 0 := hzero (by simpa [hfat] using Ne.symm hfs)
        simpa [clearFs, clearLock, hfs] using hty
    cases fs? with
    | none => simpa [fMount, hfat] using hclear
    | some fs' =>
      simp only [fMount, hfat]
      by_cases hfs : fs = fs'
      · simp [clearFs, hfs]
      · simpa [clearFs, hfs] using hclear

/-- `f_mount` does so by itself: it unmounts the object that was registered, and the new one is not
mounted yet. -/
theorem MountedRegistered.fMount {v : Volume} (h : MountedRegistered v) (fs? : Option FsObj) :
    MountedRegistered (FatFs.fMount v fs?) :=
  fun fs hty => absurd (fMount_fsType h fs? fs) hty

section Programs
variable {φ : Type} [DecidableEq φ]

/-- No call mounts anything but the registered object. -/
theorem MountedRegistered.call {d : Disk φ} (h : MountedRegistered d.vol) (c : Call φ) :
    MountedRegistered (c.handle d).2.vol := by
  cases hc : c.mounts with
  | none => exact h.kept (c.kept d hc)
  | some fs? =>
    obtain rfl : c = .fMount fs? := by cases c <;> cases hc; rfl
    exact h.fMount fs?

/-- And so no program does. -/
theorem MountedRegistered.run {α : Type} {d : Disk φ} (h : MountedRegistered d.vol)
    (p : Caller φ α) : MountedRegistered (p.run Call.handle d).2.vol := by
  induction p generalizing d with
  | ret a => exact h
  | op c p ih => exact ih _ (h.call c)

end Programs

/-- `f_mount` makes every file object invalid. -/
theorem fMount_invalid {v : Volume} (h : MountedRegistered v) (fs? : Option FsObj) (fp : Fil) :
    fp.valid (FatFs.fMount v fs?) = false := by
  unfold Fil.valid validate
  cases fp.fs with
  | none => rfl
  | some fs => simp [fMount_fsType h fs? fs]

end NucleoH743.FatFs
