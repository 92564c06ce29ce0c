import NucleoH743.FatFs.Volume
import Mathlib.Tactic.Common

/-!
# `Proofs.FatFs.Calls`: what each FatFs call does

One spec lemma per call, so that the proofs about the services never unfold the calls.

The first half says what a call does that succeeds. The second says when a call succeeds: each of
the conditions `OpensFile`, `OpensNew`, `MakesDir` and `Removes` is one on the volume before the
call, the path, and what the call finds on the disk, and the lemmas `fOpen_cases`, `fMkdir_cases`
and `fUnlink_cases` say that the call succeeds under its condition and leaves the entries as they
were otherwise. The proofs go through the checks in their order: the mount, the path, the entry, the
table of open objects, and the room on the disk.

- `fOpen_spec`: a successful open gives a valid file object at position 0, over the bytes of
  the file the path denotes.
- `fRead_eq`, `fWrite_eq`, `fClose_eq`: the calls on a valid file object.
- `Opened`: what a successful open leaves, as a structure.
-/

set_option autoImplicit false

namespace NucleoH743.FatFs

/-! ### Mounting -/

section Mount
variable (v : Volume)

/-- `f_mount` registers the object that it is given, or none. -/
@[simp] theorem fMount_fatFs (fs : Option FsObj) : (fMount v fs).fatFs = fs := rfl

/-- It writes nothing to the disk. -/
@[simp] theorem fMount_nodes (fs : Option FsObj) : (fMount v fs).nodes = v.nodes := by
  cases fs <;> cases h : v.fatFs <;> simp [fMount, clearFs, clearLock, h]

/-- Nor does it change which entry a path denotes. -/
@[simp] theorem fMount_follow (fs : Option FsObj) : (fMount v fs).follow = v.follow := by
  cases fs <;> cases h : v.fatFs <;> simp [fMount, clearFs, clearLock, h]

/-- Mounting and unmounting change no file. -/
@[simp] theorem fileContent_fMount (fs : Option FsObj) (path : Path) :
    fileContent (fMount v fs) path = fileContent v path := by
  simp [fileContent]

/-- `mount_volume` mounts the registered object and registers none. -/
@[simp] theorem mountVolume_fatFs : (mountVolume v).2.fatFs = v.fatFs := by
  unfold mountVolume
  split
  · rfl
  · split_ifs <;> simp [clearLock, *]

/-- It reads the disk only. -/
@[simp] theorem mountVolume_nodes : (mountVolume v).2.nodes = v.nodes := by
  unfold mountVolume
  split
  · rfl
  · split_ifs <;> rfl

/-- It changes nothing of the paths. -/
@[simp] theorem mountVolume_follow : (mountVolume v).2.follow = v.follow := by
  unfold mountVolume
  split
  · rfl
  · split_ifs <;> rfl

/-- After a successful mount there is a registered object, and it is mounted. -/
theorem mountVolume_ok {v v' : Volume} (h : mountVolume v = (.ok, v')) :
    ∃ fs, v.fatFs = some fs ∧ (v'.obj fs).fsType ≠ 0 := by
  unfold mountVolume at h
  split at h
  · simp at h
  · rename_i fs hfs
    refine ⟨fs, hfs, ?_⟩
    split_ifs at h with hty hfmt
    · obtain rfl : v = v' := by simpa using h
      exact hty
    · simp at h
    · obtain ⟨-, rfl⟩ := Prod.mk.inj h
      simpa [clearLock] using hfmt

/-- Where a call does not get past the check of the volume, the check has failed. -/
theorem mountVolume_notOk {v v' : Volume} {res : FResult} (h : mountVolume v = (res, v'))
    (hno : ∀ fs, v.fatFs = some fs → res = .ok → False) : res ≠ .ok := by
  rintro rfl
  -- a volume that passes the check has its work area
  obtain ⟨fs, hfs, -⟩ := mountVolume_ok h
  exact hno fs hfs rfl

end Mount

/-! ### Opening -/

/-- `incLock` changes the open-object table only. -/
theorem incLock_frame {v v' : Volume} {fs : FsObj} {e : Entry} {acc : Bool} {i : Fin 2}
    (h : incLock v fs e acc = some (i, v')) : ∃ files, v' = { v with files } := by
  unfold incLock at h
  grind

/-- What an open finds: the entry, the bytes of the file, and the volume with the entry created or
emptied. By what the path denotes and by the mode. -/
theorem openEntry_spec {v v' : Volume} {fs : FsObj} {path : Path} {mode : Mode} {slot : Bool}
    {e : Entry} {data : List UInt8} (h : openEntry v fs path mode slot = .ok (e, data, v')) :
    v.follow path = .entry e ∧
    (∃ nodes, v' = { v with nodes } ∧ nodes e = some (.file data) ∧
      ∀ e', e' ≠ e → nodes e' = v.nodes e') ∧
    (mode.creates = false → v.nodes e = some (.file data)) ∧
    (mode.faCreateAlways = true → data = []) := by
  unfold openEntry at h
  split at h
  · cases h
  · cases h
  · cases h
  · rename_i e₀ he
    split at h
    · rename_i hnone
      split_ifs at h
      cases h
      exact ⟨he, ⟨_, rfl, by simp, fun e' hne => by simp [hne]⟩, by simp [*], fun _ => rfl⟩
    · rename_i node hnode
      split at h
      · split at h
        · cases h
        · rename_i old
          split_ifs at h with hc <;> cases h
          · exact ⟨he, ⟨_, rfl, by simp, fun e' hne => by simp [hne]⟩, by simp [Mode.creates, hc],
              by simp⟩
          · exact ⟨he, ⟨_, rfl, hnode, fun _ _ => rfl⟩, fun _ => hnode, by simp [hc]⟩
      · cases h

/-- The state after a successful `f_open`. -/
structure Opened (v : Volume) (path : Path) (mode : Mode) (fp : Fil) (v' : Volume) : Prop where
  valid : fp.valid v' = true
  fptr : fp.fptr = 0
  faRead : fp.faRead = mode.faRead
  faWrite : fp.faWrite = mode.faWrite
  fatFs : v'.fatFs = v.fatFs
  owner : fp.fs = v.fatFs
  follow : v'.follow = v.follow
  entry : v.follow path = .entry fp.entry
  node : v'.nodes fp.entry = some (.file fp.data)
  others : ∀ e, e ≠ fp.entry → v'.nodes e = v.nodes e
  existed : mode.creates = false → v.nodes fp.entry = some (.file fp.data)
  emptied : mode.faCreateAlways = true → fp.data = []
  modified : mode.faCreateAlways = true → fp.faModified = true

namespace Opened

variable {v v' : Volume} {path : Path} {mode : Mode} {fp : Fil}

/-- An open that creates nothing changes no directory entry. -/
theorem nodes_eq (h : Opened v path mode fp v') (hc : mode.creates = false) :
    v'.nodes = v.nodes := by
  funext e
  by_cases he : e = fp.entry
  · rw [he, h.node, h.existed hc]
  · exact h.others e he

/-- A file that is opened without being made holds what its path showed before. -/
theorem fileContent_eq (h : Opened v path mode fp v') (hc : mode.creates = false) :
    fileContent v path = some fp.data := by
  simp [fileContent, h.entry, h.existed hc]

end Opened

/-- An open that fails does not fail with `FR_OK`. -/
theorem openEntry_ne_ok {v : Volume} {fs : FsObj} {path : Path} {mode : Mode} {slot : Bool} :
    openEntry v fs path mode slot ≠ .error .ok := by
  unfold openEntry
  grind

/-- A successful `f_open`. The steps of `f_open` in their order, each by its own lemma: the mount,
the entry, the table. -/
theorem fOpen_spec {v v' : Volume} {fp fp' : Fil} {path : Path} {mode : Mode} {slot : Bool}
    (h : fOpen v fp path mode slot = (.ok, fp', v')) : Opened v path mode fp' v' := by
  unfold fOpen at h
  split at h
  · rename_i v₁ fs hm hfs
    obtain ⟨fs', hfs', hty⟩ := mountVolume_ok hm
    have hfat : v₁.fatFs = v.fatFs := by simpa [hm] using mountVolume_fatFs v
    have hnod : v₁.nodes = v.nodes := by simpa [hm] using mountVolume_nodes v
    have hfol : v₁.follow = v.follow := by simpa [hm] using mountVolume_follow v
    obtain rfl : fs = fs' := by simpa [hfs] using hfs'
    split at h
    · rename_i res he
      obtain ⟨rfl, -, -⟩ : res = .ok ∧ _ ∧ _ := by simpa using h
      exact absurd he openEntry_ne_ok
    · rename_i e data v₂ he
      obtain ⟨hent, ⟨nodes, rfl, hnode, hoth⟩, hkept, hempt⟩ := openEntry_spec he
      split at h
      · simp at h
      · rename_i i v₃ hl
        obtain ⟨files, rfl⟩ := incLock_frame hl
        obtain ⟨rfl, rfl⟩ : _ ∧ _ := by simpa using h
        exact {
          valid := by simpa [Fil.valid, validate] using hty
          fptr := rfl
          faRead := rfl
          faWrite := rfl
          fatFs := hfat
          owner := hfs'.symm
          follow := hfol
          entry := hfol ▸ hent
          node := hnode
          others := fun e' hne => (hoth e' hne).trans (by rw [hnod])
          existed := fun hc => hnod ▸ hkept hc
          emptied := hempt
          modified := fun hc => by simp [hc] }
  · rename_i res v₁ hm hno
    obtain ⟨hok, -, -⟩ : res = .ok ∧ _ ∧ _ := by simpa using h
    exact absurd hok (mountVolume_notOk hm hno)

/-- `f_open` does not read the file object, and one that fails only clears its owner. -/
theorem fOpen_fil (v : Volume) (fp : Fil) (path : Path) (mode : Mode) (slot : Bool) :
    fOpen v fp path mode slot =
      let r := fOpen v Fil.null path mode slot
      (r.1, if r.1 = .ok then r.2.1 else { fp with fs := none }, r.2.2) := by
  unfold fOpen
  split
  · split
    · rename_i res he
      have hne : res ≠ .ok := by
        rintro rfl
        exact openEntry_ne_ok he
      simp [hne]
    · split <;> simp
  · rename_i res v₁ hm hno
    have hne := mountVolume_notOk hm hno
    simp [hne]

/-- An entry that an open without `FA_CREATE_ALWAYS` finds keeps its bytes. By what the path
denotes. -/
theorem openEntry_data {v v' : Volume} {fs : FsObj} {path : Path} {mode : Mode} {slot : Bool}
    {e : Entry} {data : List UInt8} (h : openEntry v fs path mode slot = .ok (e, data, v'))
    (hc : mode.faCreateAlways = false) : data = (fileContent v path).getD [] := by
  unfold openEntry at h
  unfold fileContent
  split at h
  · cases h
  · cases h
  · cases h
  · split at h
    · split_ifs at h
      cases h
      simp [*]
    · split at h
      · split at h
        · cases h
        · rw [hc] at h
          cases h
          simp [*]
      · cases h

/-- A file that was opened without `FA_CREATE_ALWAYS` is marked as changed iff it is new. By whether
the path denotes an entry that is there. -/
theorem fOpen_data {v v' : Volume} {fp fp' : Fil} {path : Path} {mode : Mode} {slot : Bool}
    (h : fOpen v fp path mode slot = (.ok, fp', v')) (hc : mode.faCreateAlways = false) :
    fp'.data = (fileContent v path).getD [] ∧ fp'.faModified = (v.nodes fp'.entry).isNone := by
  have hnodes := mountVolume_nodes v
  have hfollow := mountVolume_follow v
  unfold fOpen at h
  split at h
  · rename_i v₁ fs hm hfs
    rw [hm] at hnodes hfollow
    split at h
    · rename_i res he
      obtain ⟨rfl, -, -⟩ : res = .ok ∧ _ ∧ _ := by simpa using h
      exact absurd he openEntry_ne_ok
    · rename_i e data v₂ he
      have hdata := openEntry_data he hc
      split at h
      · simp at h
      · obtain ⟨rfl, rfl⟩ : _ ∧ _ := by simpa using h
        dsimp only at hnodes hfollow ⊢
        simp only [fileContent, hnodes, hfollow] at hdata ⊢
        exact ⟨hdata, by simp [hc]⟩
  · rename_i res v₁ hm hno
    obtain ⟨hok, -, -⟩ : res = .ok ∧ _ ∧ _ := by simpa using h
    exact absurd hok (mountVolume_notOk hm hno)

/-- Behind the mount, `f_opendir` writes to the table of open objects only. By the branch in which
the call ends; a sub-directory that it opens takes a slot. -/
theorem fOpendir_frame (v : Volume) (path : Path) :
    ∃ files, (fOpendir v path).2.2 = { (mountVolume v).2 with files } := by
  unfold fOpendir
  split
  · rename_i v₁ fs hv hfs
    rw [hv]
    split
    · exact ⟨v₁.files, rfl⟩
    · exact ⟨v₁.files, rfl⟩
    · exact ⟨v₁.files, rfl⟩
    · split
      · split
        · rename_i i v₂ hl
          exact incLock_frame hl
        · exact ⟨v₁.files, rfl⟩
      · exact ⟨v₁.files, rfl⟩
  · rename_i res v₁ hv _
    rw [hv]
    exact ⟨v₁.files, rfl⟩

/-- Behind the mount, `f_mkdir` writes directory entries only. By the branch in which the call
ends. -/
theorem fMkdir_frame (v : Volume) (path : Path) (slot : Bool) :
    ∃ nodes, (fMkdir v path slot).2 = { (mountVolume v).2 with nodes } := by
  unfold fMkdir
  split
  · rename_i v₁ fs hv hfs
    rw [hv]
    split
    · exact ⟨v₁.nodes, rfl⟩
    · exact ⟨v₁.nodes, rfl⟩
    · exact ⟨v₁.nodes, rfl⟩
    · split_ifs
      · exact ⟨v₁.nodes, rfl⟩
      · exact ⟨_, rfl⟩
      · exact ⟨v₁.nodes, rfl⟩
  · rename_i res v₁ hv _
    rw [hv]
    exact ⟨v₁.nodes, rfl⟩

/-- Behind the mount, `f_unlink` writes directory entries only. By the branch in which the call
ends. -/
theorem fUnlink_frame (v : Volume) (path : Path) (removable : Bool) :
    ∃ nodes, (fUnlink v path removable).2 = { (mountVolume v).2 with nodes } := by
  unfold fUnlink
  split
  · rename_i v₁ fs hv hfs
    rw [hv]
    split
    · exact ⟨v₁.nodes, rfl⟩
    · exact ⟨v₁.nodes, rfl⟩
    · exact ⟨v₁.nodes, rfl⟩
    · split_ifs
      · exact ⟨v₁.nodes, rfl⟩
      · exact ⟨v₁.nodes, rfl⟩
      · exact ⟨_, rfl⟩
      · exact ⟨v₁.nodes, rfl⟩
  · rename_i res v₁ hv _
    rw [hv]
    exact ⟨v₁.nodes, rfl⟩

/-- `f_opendir` changes no directory entry. -/
theorem fOpendir_tree (v : Volume) (path : Path) :
    (fOpendir v path).2.2.nodes = v.nodes ∧ (fOpendir v path).2.2.follow = v.follow := by
  obtain ⟨files, h⟩ := fOpendir_frame v path
  rw [h]
  exact ⟨mountVolume_nodes v, mountVolume_follow v⟩

/-- The entries are the same after `f_opendir`. -/
@[simp] theorem fOpendir_nodes (v : Volume) (path : Path) :
    (fOpendir v path).2.2.nodes = v.nodes := (fOpendir_tree v path).1

/-- The paths denote the same entries after it. -/
@[simp] theorem fOpendir_follow (v : Volume) (path : Path) :
    (fOpendir v path).2.2.follow = v.follow := (fOpendir_tree v path).2

/-! ### When a call succeeds -/

section Conditions
variable (v : Volume) (path : Path)

/-- The object `fs` is registered, and it is mounted or the disk has a file system. -/
def Mountable (fs : FsObj) : Prop :=
  v.fatFs = some fs ∧ ((v.obj fs).fsType ≠ 0 ∨ v.fmt ≠ 0)

/-- The path denotes a file, and the table of open objects lets one more open of it in. -/
def OpensFile (acc : Bool) (data : List UInt8) : Prop :=
  ∃ fs e, Mountable v fs ∧ v.follow path = .entry e ∧ v.nodes e = some (.file data) ∧
    chkLock (mountVolume v).2 fs e acc = .ok

/-- The path denotes an entry that is not there, and there is room for a new file in the table of
open objects and in the directory. -/
def OpensNew (slot : Bool) : Prop :=
  ∃ fs e, Mountable v fs ∧ v.follow path = .entry e ∧ v.nodes e = none ∧
    enqLock (mountVolume v).2 = true ∧ slot = true

/-- The path denotes an entry that is not there, and the disk has room for a directory. -/
def MakesDir (slot : Bool) : Prop :=
  ∃ fs e, Mountable v fs ∧ v.follow path = .entry e ∧ v.nodes e = none ∧ slot = true

/-- The path denotes an entry that is there, not open, and may be removed. -/
def Removes (removable : Bool) : Prop :=
  ∃ fs e, Mountable v fs ∧ v.follow path = .entry e ∧ (v.nodes e).isSome = true ∧
    findSlot (mountVolume v).2.files (Lock.holds fs e) = none ∧ removable = true

variable {v path}

/-- `mount_volume` succeeds iff the registered object can be mounted. By whether an object is
registered and mounted already. -/
theorem mountVolume_ok_iff {fs : FsObj} :
    (mountVolume v).1 = .ok ∧ v.fatFs = some fs ↔ Mountable v fs := by
  unfold mountVolume Mountable
  cases v.fatFs with
  | none => simp
  | some fs' =>
    dsimp only
    split_ifs with hty hfmt
    · constructor
      · rintro ⟨-, hfs⟩
        obtain rfl := Option.some.inj hfs
        exact ⟨rfl, .inl hty⟩
      · exact fun h => ⟨rfl, h.1⟩
    · constructor
      · rintro ⟨hok, -⟩
        cases hok
      · rintro ⟨hfs, hmount⟩
        obtain rfl := Option.some.inj hfs
        exact absurd hmount (by simp [hty, hfmt])
    · constructor
      · rintro ⟨-, hfs⟩
        obtain rfl := Option.some.inj hfs
        exact ⟨rfl, .inr hfmt⟩
      · exact fun h => ⟨rfl, h.1⟩

/-- A call goes on with the mounted volume, or ends with the check of the volume. `Mountable` is the
condition for the first: an object is registered, and it is mounted or the volume is formatted. -/
theorem mountVolume_cases (v : Volume) :
    (∃ fs v₁, Mountable v fs ∧ mountVolume v = (.ok, v₁) ∧ v.fatFs = some fs ∧
      v₁.nodes = v.nodes ∧ v₁.follow = v.follow) ∨
    (∃ res v₁, (∀ fs, ¬ Mountable v fs) ∧ mountVolume v = (res, v₁) ∧ res ≠ .ok ∧
      v₁.nodes = v.nodes) := by
  have hnodes := mountVolume_nodes v
  have hfollow := mountVolume_follow v
  obtain ⟨res, v₁, hv⟩ : ∃ res v₁, mountVolume v = (res, v₁) := ⟨_, _, rfl⟩
  rw [hv] at hnodes hfollow
  by_cases hres : res = .ok
  · subst hres
    obtain ⟨fs, hfs, -⟩ := mountVolume_ok hv
    have hmount : Mountable v fs := mountVolume_ok_iff.1 ⟨by rw [hv], hfs⟩
    exact .inl ⟨fs, v₁, hmount, hv, hfs, hnodes, hfollow⟩
  · refine .inr ⟨res, v₁, fun fs hmount => hres ?_, hv, hres, hnodes⟩
    have hok := (mountVolume_ok_iff.2 hmount).1
    rwa [hv] at hok

/-- An object that `chk_lock` lets in has its place in the table. It is either in the table, or
there is a free slot for it. -/
theorem incLock_of_chkLock {fs : FsObj} {e : Entry} {acc : Bool} (h : chkLock v fs e acc = .ok) :
    ∃ i v', incLock v fs e acc = some (i, v') := by
  unfold chkLock at h
  unfold incLock
  cases hfind : findSlot v.files (Lock.holds fs e) with
  | none =>
    rw [hfind] at h
    dsimp only at h ⊢
    cases hfree : findSlot v.files Option.isNone with
    | none => simp [hfree] at h
    | some i => simp
  | some i =>
    rw [hfind] at h
    dsimp only at h ⊢
    split_ifs at h with hbusy
    -- another open of the object is one for reading
    have hread : ¬ acc = true := fun hacc => hbusy (.inl hacc)
    simp [hread]

/-- With a mounted object and a path that denotes an entry, the conditions are about these two. -/
theorem exists_mounted_iff {fs : FsObj} {e : Entry} (hmount : Mountable v fs)
    (hpath : v.follow path = .entry e) {P : FsObj → Entry → Prop} :
    (∃ fs' e', Mountable v fs' ∧ v.follow path = .entry e' ∧ P fs' e') ↔ P fs e := by
  constructor
  · rintro ⟨fs', e', hmount', hpath', h⟩
    obtain rfl := Option.some.inj (hmount'.1.symm.trans hmount.1)
    obtain rfl := Follow.entry.inj (hpath'.symm.trans hpath)
    exact h
  · exact fun h => ⟨fs, e, hmount, hpath, h⟩

/-- With a path that denotes none, they do not hold. -/
theorem not_exists_mounted {P : FsObj → Entry → Prop} (hpath : ∀ e, v.follow path ≠ .entry e) :
    ¬ ∃ fs e, Mountable v fs ∧ v.follow path = .entry e ∧ P fs e := by
  rintro ⟨fs, e, -, he, -⟩
  exact hpath e he

/-- Nor do they without an object that can be mounted. -/
theorem not_exists_of_not_mountable {P : FsObj → Entry → Prop} (hnot : ∀ fs, ¬ Mountable v fs) :
    ¬ ∃ fs e, Mountable v fs ∧ v.follow path = .entry e ∧ P fs e := by
  rintro ⟨fs, e, hmount, -⟩
  exact hnot fs hmount

section NotMounted
variable {res : FResult} {v₁ : Volume} (hv : mountVolume v = (res, v₁)) (hres : res ≠ .ok)
include hv hres

/-- A call ends with the check of the volume that fails. -/
theorem fOpen_of_not_ok (fp : Fil) (path : Path) (mode : Mode) (slot : Bool) :
    fOpen v fp path mode slot = (res, { fp with fs := none }, v₁) := by
  unfold fOpen
  rw [hv]
  split
  · rename_i hok _
    exact absurd (Prod.mk.inj hok).1 hres
  · rename_i hrest _
    obtain ⟨rfl, rfl⟩ := Prod.mk.inj hrest
    rfl

/-- `f_mkdir` ends there too. -/
theorem fMkdir_of_not_ok (path : Path) (slot : Bool) : fMkdir v path slot = (res, v₁) := by
  unfold fMkdir
  rw [hv]
  split
  · rename_i hok _
    exact absurd (Prod.mk.inj hok).1 hres
  · rename_i hrest _
    obtain ⟨rfl, rfl⟩ := Prod.mk.inj hrest
    rfl

/-- So does `f_unlink`. -/
theorem fUnlink_of_not_ok (path : Path) (removable : Bool) :
    fUnlink v path removable = (res, v₁) := by
  unfold fUnlink
  rw [hv]
  split
  · rename_i hok _
    exact absurd (Prod.mk.inj hok).1 hres
  · rename_i hrest _
    obtain ⟨rfl, rfl⟩ := Prod.mk.inj hrest
    rfl

end NotMounted

/-! A path that denotes an entry, on the mounted volume `v₁`. -/

section Mounted
variable {fs : FsObj} {v₁ : Volume} {e : Entry} (hv : mountVolume v = (.ok, v₁))
  (hfs : v.fatFs = some fs) (hpath : v.follow path = .entry e)
include hv hfs hpath

/-- An entry that is not there is made where the mode asks for it and there is room, whether the
table takes the object afterwards or not. By the room in the directory and in the table. -/
theorem fOpen_new (fp : Fil) {mode : Mode} (hnode : v.nodes e = none)
    (hcreates : mode.creates = true) (henq : enqLock v₁ = true) :
    (fOpen v fp path mode true).2.2.nodes ≠ v.nodes := by
  have hnodes : v₁.nodes = v.nodes := by rw [← mountVolume_nodes v, hv]
  have hfollow : v₁.follow = v.follow := by rw [← mountVolume_follow v, hv]
  have hchanged : ∀ nodes : Entry → Option Node, nodes e = some (.file []) → nodes ≠ v.nodes := by
    rintro nodes hfile rfl
    rw [hnode] at hfile
    cases hfile
  unfold fOpen openEntry
  rw [hv, hfs]
  dsimp only
  rw [hfollow, hpath, hnodes]
  dsimp only
  rw [hnode]
  dsimp only
  rw [if_pos hcreates, if_pos henq, if_pos rfl]
  dsimp only
  split
  · exact hchanged _ (by simp)
  · rename_i i v₃ hl
    obtain ⟨files, rfl⟩ := incLock_frame hl
    exact hchanged _ (by simp)

/-- Without one of these the call fails. A file that is not there is made only by an open that
creates files, with a free slot in the table and in the directory. -/
theorem fOpen_absent (fp : Fil) {mode : Mode} {slot : Bool} (hnode : v.nodes e = none)
    (hno : ¬ (mode.creates = true ∧ enqLock v₁ = true ∧ slot = true)) :
    (fOpen v fp path mode slot).1 ≠ .ok ∧ (fOpen v fp path mode slot).2.2.nodes = v.nodes := by
  have hnodes : v₁.nodes = v.nodes := by rw [← mountVolume_nodes v, hv]
  have hfollow : v₁.follow = v.follow := by rw [← mountVolume_follow v, hv]
  unfold fOpen openEntry
  rw [hv, hfs]
  dsimp only
  rw [hfollow, hpath, hnodes]
  dsimp only
  rw [hnode]
  dsimp only
  split_ifs with hcreates henq hslot
  · exact absurd ⟨hcreates, henq, hslot⟩ hno
  · exact ⟨by simp, hnodes⟩
  · exact ⟨by simp, hnodes⟩
  · exact ⟨by simp, hnodes⟩

/-- A file that the table lets in is opened. With `FA_OPEN_ALWAYS` too it is the file that is
there. -/
theorem fOpen_file (fp : Fil) {mode : Mode} (slot : Bool) (hc : mode.faCreateAlways = false)
    {data : List UInt8} (hnode : v.nodes e = some (.file data))
    (hlock : chkLock v₁ fs e mode.acc = .ok) : (fOpen v fp path mode slot).1 = .ok := by
  have hnodes : v₁.nodes = v.nodes := by rw [← mountVolume_nodes v, hv]
  have hfollow : v₁.follow = v.follow := by rw [← mountVolume_follow v, hv]
  obtain ⟨i, v₃, hl⟩ := incLock_of_chkLock hlock
  unfold fOpen openEntry
  rw [hv, hfs]
  dsimp only
  rw [hfollow, hpath, hnodes]
  dsimp only
  rw [hnode]
  dsimp only
  rw [hlock]
  dsimp only
  rw [hc, if_neg Bool.false_ne_true]
  dsimp only
  rw [hl]

/-- A directory, or an entry that the table does not let in, is not. By what stands in the way: a
directory, another access, or a table that is full. -/
theorem fOpen_refused (fp : Fil) {mode : Mode} (slot : Bool) {node : Node}
    (hnode : v.nodes e = some node) (hno : node = .dir ∨ chkLock v₁ fs e mode.acc ≠ .ok) :
    (fOpen v fp path mode slot).1 ≠ .ok ∧ (fOpen v fp path mode slot).2.2.nodes = v.nodes := by
  have hnodes : v₁.nodes = v.nodes := by rw [← mountVolume_nodes v, hv]
  have hfollow : v₁.follow = v.follow := by rw [← mountVolume_follow v, hv]
  unfold fOpen openEntry
  rw [hv, hfs]
  dsimp only
  rw [hfollow, hpath, hnodes]
  dsimp only
  rw [hnode]
  dsimp only
  cases hlock : chkLock v₁ fs e mode.acc with
  | ok =>
    cases node with
    | dir =>
      dsimp only
      split_ifs <;> exact ⟨by simp, hnodes⟩
    | file data =>
      obtain hdir | hlocked := hno
      · cases hdir
      · exact absurd hlock hlocked
  | _ => exact ⟨by simp, hnodes⟩

end Mounted

/-- `f_open` without `FA_CREATE_ALWAYS`: it opens a file that is there, it makes a new one, or it
fails and leaves the entries as they were. By the mount, by whether the path denotes an entry, and
by what stands there. -/
theorem fOpen_cases (v : Volume) (fp : Fil) (path : Path) (mode : Mode) (slot : Bool)
    (hc : mode.faCreateAlways = false) :
    (∃ data, OpensFile v path mode.acc data ∧ (fOpen v fp path mode slot).1 = .ok) ∨
    ((mode.creates = true ∧ OpensNew v path slot) ∧
      (fOpen v fp path mode slot).2.2.nodes ≠ v.nodes) ∨
    ((∀ data, ¬ OpensFile v path mode.acc data) ∧ ¬ (mode.creates = true ∧ OpensNew v path slot) ∧
      (fOpen v fp path mode slot).1 ≠ .ok ∧ (fOpen v fp path mode slot).2.2.nodes = v.nodes) := by
  obtain ⟨fs, v₁, hmount, hv, hfs, hnodes, -⟩ | ⟨res, v₁, hnot, hv, hres, hnodes⟩ :=
    mountVolume_cases v
  · by_cases hentry : ∃ e, v.follow path = .entry e
    · obtain ⟨e, hpath⟩ := hentry
      have hfile : ∀ data, OpensFile v path mode.acc data ↔
          v.nodes e = some (.file data) ∧ chkLock (mountVolume v).2 fs e mode.acc = .ok :=
        fun data => exists_mounted_iff hmount hpath
      have hnew : OpensNew v path slot ↔
          v.nodes e = none ∧ enqLock (mountVolume v).2 = true ∧ slot = true :=
        exists_mounted_iff hmount hpath
      rw [hnew]
      simp only [hfile]
      rw [hv]
      dsimp only
      -- the entry decides: none, a directory or a file
      cases hnode : v.nodes e with
      | none =>
        -- a new file wants the mode, a free lock and a slot in the directory
        by_cases hgrant : mode.creates = true ∧ enqLock v₁ = true ∧ slot = true
        · obtain ⟨hcreates, henq, rfl⟩ := hgrant
          exact .inr (.inl ⟨⟨hcreates, rfl, henq, rfl⟩,
            fOpen_new hv hfs hpath fp hnode hcreates henq⟩)
        · have hfails := fOpen_absent hv hfs hpath fp hnode hgrant
          exact .inr (.inr ⟨by simp, fun h => hgrant ⟨h.1, h.2.2⟩, hfails⟩)
      | some node =>
        -- an existing one must be a file that no other open file locks out
        by_cases hopens : node ≠ .dir ∧ chkLock v₁ fs e mode.acc = .ok
        · obtain ⟨hfile, hlock⟩ := hopens
          cases node with
          | dir => exact absurd rfl hfile
          | file data =>
            exact .inl ⟨data, ⟨rfl, hlock⟩, fOpen_file hv hfs hpath fp slot hc hnode hlock⟩
        · have hno : node = .dir ∨ chkLock v₁ fs e mode.acc ≠ .ok := by
            rwa [Classical.not_and_iff_not_or_not, not_not] at hopens
          have hfails := fOpen_refused hv hfs hpath fp slot hnode hno
          refine .inr (.inr ⟨?_, by simp, hfails⟩)
          rintro data ⟨hfile, hlock⟩
          obtain rfl := Option.some.inj hfile
          exact hopens ⟨by simp, hlock⟩
    · -- the path denotes no entry
      have hnone : ∀ e, v.follow path ≠ .entry e := fun e he => hentry ⟨e, he⟩
      refine .inr (.inr ⟨fun data => not_exists_mounted hnone,
        fun h => not_exists_mounted hnone h.2, ?_⟩)
      have hfollow : v₁.follow = v.follow := by rw [← mountVolume_follow v, hv]
      unfold fOpen openEntry
      rw [hv, hfs]
      dsimp only
      rw [hfollow]
      cases hpath : v.follow path with
      | entry e => exact absurd hpath (hnone e)
      | _ => simp [hnodes]
  · -- the volume cannot be mounted
    rw [fOpen_of_not_ok hv hres]
    exact .inr (.inr ⟨fun data => not_exists_of_not_mountable hnot,
      fun h => not_exists_of_not_mountable hnot h.2, hres, hnodes⟩)

/-- `f_mkdir` makes the directory, or it fails and leaves the entries as they were. By the mount,
and by what the path denotes. -/
theorem fMkdir_cases (v : Volume) (path : Path) (slot : Bool) :
    MakesDir v path slot ∧ (fMkdir v path slot).1 = .ok ∨
    ¬ MakesDir v path slot ∧ (fMkdir v path slot).1 ≠ .ok ∧
      (fMkdir v path slot).2.nodes = v.nodes := by
  obtain ⟨fs, v₁, hmount, hv, hfs, hnodes, hfollow⟩ | ⟨res, v₁, hnot, hv, hres, hnodes⟩ :=
    mountVolume_cases v
  · unfold fMkdir MakesDir
    rw [hv, hfs]
    dsimp only
    rw [hfollow, hnodes]
    cases hpath : v.follow path with
    | origin | invalidName | noPath => simp [hnodes]
    | entry e =>
      cases hnode : v.nodes e with
      | some node => simp [hnode, hnodes]
      | none =>
        cases slot with
        | true => exact .inl ⟨⟨fs, e, hmount, rfl, hnode, rfl⟩, by simp [hnode]⟩
        | false => simp [hnode, hnodes]
  · rw [fMkdir_of_not_ok hv hres]
    exact .inr ⟨not_exists_of_not_mountable hnot, hres, hnodes⟩

/-- `f_unlink` removes the entry, or it fails and leaves the entries as they were. By the mount, by
whether the path denotes an entry, and by the three checks of that entry. -/
theorem fUnlink_cases (v : Volume) (path : Path) (removable : Bool) :
    Removes v path removable ∧ (fUnlink v path removable).1 = .ok ∨
    ¬ Removes v path removable ∧ (fUnlink v path removable).1 ≠ .ok ∧
      (fUnlink v path removable).2.nodes = v.nodes := by
  obtain ⟨fs, v₁, hmount, hv, hfs, hnodes, hfollow⟩ | ⟨res, v₁, hnot, hv, hres, hnodes⟩ :=
    mountVolume_cases v
  · by_cases hentry : ∃ e, v.follow path = .entry e
    · obtain ⟨e, hpath⟩ := hentry
      have hremoves : Removes v path removable ↔ (v.nodes e).isSome = true ∧
          findSlot (mountVolume v).2.files (Lock.holds fs e) = none ∧ removable = true :=
        exists_mounted_iff hmount hpath
      rw [hremoves, hv]
      unfold fUnlink
      rw [hv, hfs]
      dsimp only
      rw [hfollow, hpath, hnodes]
      cases hnode : v.nodes e with
      | none => simp [hnode, hnodes]
      | some node =>
        cases hopen : findSlot v₁.files (Lock.holds fs e) with
        | some i => simp [hnode, hopen, hnodes]
        | none => cases removable <;> simp [hnode, hopen, hnodes]
    · -- the path denotes no entry
      have hnone : ∀ e, v.follow path ≠ .entry e := fun e he => hentry ⟨e, he⟩
      refine .inr ⟨not_exists_mounted hnone, ?_⟩
      unfold fUnlink
      rw [hv, hfs]
      dsimp only
      rw [hfollow]
      cases hpath : v.follow path with
      | entry e => exact absurd hpath (hnone e)
      | _ => simp [hnodes]
  · rw [fUnlink_of_not_ok hv hres]
    exact .inr ⟨not_exists_of_not_mountable hnot, hres, hnodes⟩

end Conditions

/-! ### Calls on an open file -/

section OpenFile
variable {v : Volume} {fp : Fil}

/-- `f_read` on a valid file object that was opened for reading. -/
theorem fRead_eq (hv : fp.valid v = true) (hr : fp.faRead = true) (btr : Nat) :
    fRead v fp btr = (.ok, (fp.data.drop fp.fptr).take btr,
      { fp with fptr := fp.fptr + ((fp.data.drop fp.fptr).take btr).length }) := by
  simp [fRead, hv, hr]

/-- `f_write` at the end of a valid file object that was opened for writing appends. -/
theorem fWrite_eq (hv : fp.valid v = true) (hw : fp.faWrite = true)
    (hend : fp.fptr = fp.data.length) (buff : List UInt8) (room : Nat) :
    fWrite v fp buff room = (.ok, (buff.take room).length,
      { fp with
        data := fp.data ++ buff.take room
        fptr := fp.fptr + (buff.take room).length
        faModified := true }) := by
  simp [fWrite, hv, hw, hend]

/-- `f_read` and `f_write` keep what `validate` looks at. -/
@[simp] theorem fRead_fs (btr : Nat) : (fRead v fp btr).2.2.fs = fp.fs := by
  unfold fRead
  split_ifs <;> rfl

/-- `f_read` keeps the mount number in the file object. -/
@[simp] theorem fRead_id (btr : Nat) : (fRead v fp btr).2.2.id = fp.id := by
  unfold fRead
  split_ifs <;> rfl

/-- `f_write` keeps the owner of the file object. -/
@[simp] theorem fWrite_fs (buff : List UInt8) (room : Nat) :
    (fWrite v fp buff room).2.2.fs = fp.fs := by
  unfold fWrite
  split_ifs <;> rfl

/-- It keeps its mount number. -/
@[simp] theorem fWrite_id (buff : List UInt8) (room : Nat) :
    (fWrite v fp buff room).2.2.id = fp.id := by
  unfold fWrite
  split_ifs <;> rfl

/-- `f_read` moves the file pointer only. -/
theorem fRead_frame (v : Volume) (fp : Fil) (btr : Nat) :
    ∃ fptr, (fRead v fp btr).2.2 = { fp with fptr } := by
  unfold fRead
  split_ifs
  · exact ⟨_, rfl⟩
  · exact ⟨fp.fptr, rfl⟩
  · exact ⟨fp.fptr, rfl⟩

/-- So does `f_lseek`. -/
theorem fLseek_frame (v : Volume) (fp : Fil) (ofs : Nat) :
    ∃ fptr, (fLseek v fp ofs).2 = { fp with fptr } := by
  unfold fLseek
  split_ifs
  · exact ⟨_, rfl⟩
  · exact ⟨fp.fptr, rfl⟩

/-- `f_write` changes the bytes, the file pointer and `FA_MODIFIED`. -/
theorem fWrite_frame (v : Volume) (fp : Fil) (buff : List UInt8) (room : Nat) :
    ∃ data fptr faModified, (fWrite v fp buff room).2.2 = { fp with data, fptr, faModified } := by
  unfold fWrite
  split_ifs
  · exact ⟨_, _, true, rfl⟩
  · exact ⟨fp.data, fp.fptr, fp.faModified, rfl⟩
  · exact ⟨fp.data, fp.fptr, fp.faModified, rfl⟩

/-- `f_close` on a valid file object writes a changed file to its directory entry. -/
theorem fClose_nodes (hv : fp.valid v = true) :
    (fClose v fp).2.2.nodes =
      if fp.faModified then Function.update v.nodes fp.entry (some (.file fp.data))
      else v.nodes := by
  unfold fClose fSync
  by_cases hm : fp.faModified <;> simp [hv, hm, decLock]

/-- `f_close` changes nothing of the paths. -/
@[simp] theorem fClose_follow (fp : Fil) : (fClose v fp).2.2.follow = v.follow := by
  unfold fClose fSync
  by_cases hv : fp.valid v <;> by_cases hm : fp.faModified <;> simp [hv, hm, decLock]

/-- `f_close` on a valid file object clears its owner. -/
theorem fClose_fs (hv : fp.valid v = true) : (fClose v fp).2.1.fs = none := by
  unfold fClose fSync
  by_cases hm : fp.faModified <;> simp [hv, hm]

/-- A file object without an owner is not valid. -/
theorem valid_of_fs_none (h : fp.fs = none) : fp.valid v = false := by
  simp [Fil.valid, validate, h]

/-- `f_close` on an invalid file object does nothing. -/
theorem fClose_invalid (hv : fp.valid v = false) : fClose v fp = (.invalidObject, fp, v) := by
  simp [fClose, fSync, hv]

end OpenFile

end NucleoH743.FatFs
