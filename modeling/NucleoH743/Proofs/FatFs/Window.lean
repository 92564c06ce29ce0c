import NucleoH743.FatFs.Window
import NucleoH743.Lib.WriteBack

/-!
# `Proofs.FatFs.Window`: the window is a write-back cache

`Fatfs.view` is the content of the drive as the filesystem object sees it: the drive, with the
window over it while the window is dirty. Whatever the drive answers, moving the window does not
change it, apart from the second FAT, which takes the sectors of the first one:

`Kept` leaves two things open: what the second FAT holds, which the functions write and never read,
and where the window is. A drive that fails may leave anything in the sector that it was to write,
but this sector is the one that the window still shows, as the mark of the change is not taken back.

`editAll_reaches_drive` puts this to use without the file functions: any changes of sectors, made as
the functions on FAT and directories make them, arrive on the drive in their order.

- `keeps_syncWindow`, `keeps_moveWindow`: what the functions leave.
- `Kept.trans`: two of them, one after the other.
-/

set_option autoImplicit false

namespace NucleoH743.Ff

open Diskio Mkfs
open Prog (always_seq always_mono)

/-- The drive can fail. -/
def MayFail (ok : Answer → Prop) : Prop := ∃ junk, ok (.failed junk)

/-- A program ends in a value and a content of the drive with `Q`, when all the answers of the
drive are `ok`. -/
abbrev Ends {α : Type} (ok : Answer → Prop) (p : DiskProg α) (Q : α → Image → Prop) (d : Image) :
    Prop :=
  p.Always diskHandle ok Q d

/-! ### The disk functions -/

section Disk
variable {α : Type} {ok : Answer → Prop} {Q : α → Image → Prop} {d : Image}

/-- A sector is 4096 bytes of the buffer. -/
theorem length_sectors (n : UInt32) (buf : Buf) : (sectors n buf).length = n.toNat * 4096 :=
  Blocks.length_slice _ _ _

/-- One sector, as it is written back. -/
theorem length_sectors_one (buf : Buf) : (sectors 1 buf).length = 4096 := length_sectors 1 buf

/-- A write of sectors from a buffer. One that fails leaves any bytes there. -/
theorem ends_diskWrite {buf : Buf} {sect count : UInt32} {n : Nat} (hn : count.toNat * 4096 = n)
    {k : DResult → DiskProg α}
    (hdone : Ends ok (k .ok) Q (Blocks.store d (sectAddr sect) (sectors count buf)))
    (hfail : ∀ data, data.length = n → MayFail ok →
      Ends ok (k .error) Q (Blocks.store d (sectAddr sect) data)) :
    Ends ok (diskWrite buf sect count >>= k) Q d := by
  rintro (_ | junk) hok
  · exact hdone
  · refine hfail _ ?_ ⟨junk, hok⟩
    rw [Blocks.length_slice, length_sectors, hn]

/-- A read of sectors. One that fails delivers any bytes. -/
theorem ends_diskRead {buf : Buf} {sect count : UInt32} {n : Nat} (hn : count.toNat * 4096 = n)
    {k : DResult × List UInt8 → DiskProg α}
    (hdone : Ends ok (k (.ok, Blocks.slice d (sectAddr sect) n)) Q d)
    (hfail : ∀ data, data.length = n → MayFail ok → Ends ok (k (.error, data)) Q d) :
    Ends ok (diskRead buf sect count >>= k) Q d := by
  subst hn
  rintro (_ | junk) hok
  · exact hdone
  · exact hfail _ (Blocks.length_slice _ _ _) ⟨junk, hok⟩

end Disk

/-! ### What is seen -/

/-- A byte of a sector to which the functions copy one of the first FAT. -/
def Geometry.Mirror (g : Geometry) (a : Nat) : Prop :=
  g.nFats = 2 ∧ ∃ sect : UInt32, sect - g.fatbase < g.fsize ∧ a / 4096 = (sect + g.fsize).toNat

namespace Fatfs

/-- The window as a buffer of a sector. -/
def window (fs : Fatfs) : WriteBack.Buffer UInt8 := ⟨sectAddr fs.winsect, fs.win, fs.wflag⟩

/-- The content of the drive with the dirty window over it. -/
def view (fs : Fatfs) (d : Image) : Image := WriteBack.view 4096 fs.window d

/-- A valid window holds its sector. -/
def Coherent (fs : Fatfs) (d : Image) : Prop :=
  fs.winsect ≠ 0 - 1 → WriteBack.Holds 4096 fs.window d

end Fatfs

/-- What is left of a filesystem object `fs` and a drive `d`. -/
structure Kept (fs : Fatfs) (d : Image) (fs' : Fatfs) (d' : Image) : Prop where
  geometry : fs'.toGeometry = fs.toGeometry
  alloc : fs'.toAllocInfo = fs.toAllocInfo
  id : fs'.id = fs.id
  view : ∀ a, ¬ fs.Mirror a → fs'.view d' a = fs.view d a
  coherent : fs'.Coherent d'

/-- A call that does nothing keeps the volume. -/
theorem Kept.refl {fs : Fatfs} {d : Image} (h : fs.Coherent d) : Kept fs d fs d :=
  ⟨rfl, rfl, rfl, fun _ _ => rfl, h⟩

/-- Two calls that keep it keep it together. -/
theorem Kept.trans {fs fs' fs'' : Fatfs} {d d' d'' : Image} (h : Kept fs d fs' d')
    (h' : Kept fs' d' fs'' d'') : Kept fs d fs'' d'' where
  geometry := h'.geometry.trans h.geometry
  alloc := h'.alloc.trans h.alloc
  id := h'.id.trans h.id
  view := by
    intro a ha
    have ha' : ¬ fs'.Mirror a := by
      rw [h.geometry]
      exact ha
    rw [h'.view a ha', h.view a ha]
  coherent := h'.coherent

variable {ok : Answer → Prop} {fs : Fatfs} {d : Image}

/-- A cell of the valid window. -/
theorem Fatfs.Coherent.win_eq (h : fs.Coherent d) (hsect : fs.winsect ≠ 0 - 1) {i : Nat}
    (hi : i < 4096) : fs.win i = fs.view d (sectAddr fs.winsect + i) :=
  (h hsect i hi).symm

/-- A dirty window need not agree with its sector on the drive. -/
theorem coherent_of_dirty (h : fs.wflag = true) : fs.Coherent d :=
  fun _ => WriteBack.holds_dirty h

/-- Through a clean window the drive is seen as it is. -/
theorem view_of_clean (h : fs.wflag = false) : fs.view d = d := WriteBack.view_clean h

/-! ### `sync_window` -/

/-- The address of a cell lies in its sector. -/
theorem sectAddr_div (sect : UInt32) {i : Nat} (hi : i < 4096) :
    (sectAddr sect + i) / 4096 = sect.toNat := by
  unfold sectAddr
  omega

/-- A store to one sector does not reach a cell of another one. -/
theorem store_sector_of_ne (sect : UInt32) {data : List UInt8} (hdata : data.length = 4096)
    {a : Nat} (h : a / 4096 ≠ sect.toNat) : Blocks.store d (sectAddr sect) data a = d a := by
  refine Blocks.store_of_outside _ _ ?_
  unfold sectAddr
  omega

/-- The window has been written, and the second FAT holds `data` where it follows the window. The
copy is the same sector of the other FAT, or anything where the write of it has failed, and no one
reads the second FAT. -/
theorem kept_written (hflag : fs.wflag = true) {data : List UInt8} (hdata : data.length = 4096)
    (hfat : fs.winsect - fs.fatbase < fs.fsize) (hnum : fs.nFats = 2) :
    Kept fs d { fs with wflag := false }
      (Blocks.store (Blocks.store d (sectAddr fs.winsect) (sectors 1 fs.win))
        (sectAddr (fs.winsect + fs.fsize)) data) where
  geometry := rfl
  alloc := rfl
  id := rfl
  view := by
    intro a ha
    have hne : a / 4096 ≠ (fs.winsect + fs.fsize).toNat := fun heq => ha ⟨hnum, _, hfat, heq⟩
    rw [view_of_clean rfl, store_sector_of_ne _ hdata hne]
    exact (congrFun (WriteBack.view_dirty (b := fs.window) hflag) a).symm
  coherent := by
    intro _ i hi
    -- the copy goes to another sector
    have hother : (sectAddr fs.winsect + i) / 4096 ≠ (fs.winsect + fs.fsize).toNat := by
      rw [sectAddr_div _ hi]
      intro heq
      have hself : fs.winsect = fs.winsect + fs.fsize := UInt32.toNat_inj.1 heq
      have hzero : fs.fsize = 0 := by simpa using hself
      rw [hzero] at hfat
      exact absurd hfat (by simp)
    show WriteBack.view 4096 (Fatfs.window { fs with wflag := false }) _ _ = _
    rw [WriteBack.view_clean rfl]
    exact (store_sector_of_ne _ hdata hother).trans
      (WriteBack.store_block (b := fs.window) hi)

/-- With one FAT, a window that was written back is clean and shows the same. -/
theorem kept_written_once (hflag : fs.wflag = true) :
    Kept fs d { fs with wflag := false }
      (Blocks.store d (sectAddr fs.winsect) (sectors 1 fs.win)) where
  geometry := rfl
  alloc := rfl
  id := rfl
  view := by
    intro a _
    exact congrFun (WriteBack.view_writeBack (b := fs.window) hflag) a
  coherent := fun _ => WriteBack.holds_writeBack (b := fs.window)

/-- A drive that fails has the content of the window in the window only. -/
theorem kept_failed (hflag : fs.wflag = true) {data : List UInt8} (hdata : data.length = 4096) :
    Kept fs d fs (Blocks.store d (sectAddr fs.winsect) data) where
  geometry := rfl
  alloc := rfl
  id := rfl
  view := by
    intro a _
    exact congrFun (WriteBack.view_overwritten (b := fs.window) hflag hdata.le) a
  coherent := coherent_of_dirty hflag

/-- `sync_window` A window that is not dirty is left alone. A write that fails leaves it dirty with
its content, and the copy to the second FAT is not checked by the code. -/
theorem keeps_syncWindow (hcoh : fs.Coherent d) :
    Ends ok (syncWindow fs) (fun r d' => Kept fs d r.2 d' ∧
      r.2.winsect = fs.winsect ∧ r.2.win = fs.win ∧
      (r.1 = .ok ∧ r.2.wflag = false ∨ r.1 = .diskErr ∧ MayFail ok)) d := by
  unfold syncWindow
  by_cases hflag : fs.wflag = true
  · rw [if_pos hflag]
    refine ends_diskWrite (n := 4096) rfl ?_ ?_
    · rw [if_pos rfl]
      dsimp only
      by_cases hfat : fs.winsect - fs.fatbase < fs.fsize
      · rw [if_pos hfat]
        by_cases hnum : fs.nFats = 2
        · rw [if_pos hnum]
          -- the write to the second FAT is not checked
          refine ends_diskWrite (n := 4096) rfl ?_ ?_
          · have hlen := length_sectors_one fs.win
            exact ⟨kept_written hflag hlen hfat hnum, rfl, rfl, .inl ⟨rfl, rfl⟩⟩
          · intro data hdata _
            exact ⟨kept_written hflag hdata hfat hnum, rfl, rfl, .inl ⟨rfl, rfl⟩⟩
        · rw [if_neg hnum]
          exact ⟨kept_written_once hflag, rfl, rfl, .inl ⟨rfl, rfl⟩⟩
      · rw [if_neg hfat]
        exact ⟨kept_written_once hflag, rfl, rfl, .inl ⟨rfl, rfl⟩⟩
    · intro data hdata hfail
      rw [if_neg (by decide)]
      exact ⟨kept_failed hflag hdata, rfl, rfl, .inr ⟨rfl, hfail⟩⟩
  · rw [if_neg hflag]
    exact ⟨Kept.refl hcoh, rfl, rfl, .inl ⟨rfl, by simpa using hflag⟩⟩

/-! ### `move_window` -/

/-- What is read is in the window. -/
theorem memCpy_sector {addr : Nat} {win : Buf} {i : Nat} (hi : i < 4096) :
    memCpy 0 (Blocks.slice d addr 4096) win i = d (addr + i) := by
  have hlt : i < (Blocks.slice d addr 4096).length := by
    rw [Blocks.length_slice]
    exact hi
  have hcell := Blocks.store_of_mem win 0 hlt
  rw [Nat.zero_add] at hcell
  rw [memCpy, hcell]
  simp [Blocks.slice]

/-- A clean window goes to any sector. The drive has all of it, so nothing is lost with the old
sector. -/
theorem kept_loaded (hclean : fs.wflag = false) (sect : UInt32) {win : Buf}
    (hwin : ∀ i < 4096, win i = d (sectAddr sect + i)) :
    Kept fs d { fs with win := win, winsect := sect } d where
  geometry := rfl
  alloc := rfl
  id := rfl
  view := by
    intro a _
    have hview : Fatfs.view { fs with win := win, winsect := sect } d = d := view_of_clean hclean
    rw [view_of_clean hclean, hview]
  coherent := by
    intro _
    have hload := WriteBack.holds_load (n := 4096) hwin
    rw [← hclean] at hload
    exact hload

/-- A clean window that becomes invalid. -/
theorem kept_invalid (hclean : fs.wflag = false) (win : Buf) :
    Kept fs d { fs with win := win, winsect := 0 - 1 } d where
  geometry := rfl
  alloc := rfl
  id := rfl
  view := by
    intro a _
    have hview : Fatfs.view { fs with win := win, winsect := 0 - 1 } d = d := view_of_clean hclean
    rw [view_of_clean hclean, hview]
  coherent := fun hne => absurd rfl hne

/-- `move_window` A dirty window is written back first, and where this fails the old sector stays in
it. A read that fails leaves a window without a sector. -/
theorem keeps_moveWindow (hcoh : fs.Coherent d) (sect : UInt32) :
    Ends ok (moveWindow fs sect) (fun r d' => Kept fs d r.2 d' ∧
      (r.1 = .ok ∧ r.2.winsect = sect ∨
        r.1 = .diskErr ∧ MayFail ok ∧ (r.2.winsect = fs.winsect ∨ r.2.winsect = 0 - 1))) d := by
  unfold moveWindow
  by_cases hsect : sect ≠ fs.winsect
  · rw [if_pos hsect]
    refine always_seq (keeps_syncWindow hcoh) ?_
    rintro ⟨res, fs'⟩ d' ⟨hkept, hwinsect, -, hres⟩
    dsimp only at hkept hwinsect hres ⊢
    rcases hres with ⟨rfl, hclean⟩ | ⟨rfl, hfail⟩
    · rw [if_pos rfl]
      refine ends_diskRead (n := 4096) rfl ?_ ?_
      · refine ⟨hkept.trans (kept_loaded hclean sect ?_), .inl ⟨rfl, rfl⟩⟩
        intro i hi
        dsimp only
        rw [memCpy_sector hi]
      · intro data _ hfail
        exact ⟨hkept.trans (kept_invalid hclean _), .inr ⟨rfl, hfail, .inr rfl⟩⟩
    · rw [if_neg (by decide)]
      exact ⟨hkept, .inr ⟨rfl, hfail, .inl hwinsect⟩⟩
  · rw [if_neg hsect]
    exact ⟨Kept.refl hcoh, .inl ⟨rfl, (not_not.1 hsect).symm⟩⟩

/-! ### Changes through the window -/

/-- A change of some bytes of a sector, as all of the functions on the FAT and the directories make
it. -/
structure Edit where
  sect : UInt32
  ofs : Nat
  data : List UInt8

/-- Move the window, change it and mark it. -/
def editWindow (fs : Fatfs) (e : Edit) : DiskProg (FResult × Fatfs) := do
  let (res, fs) ← moveWindow fs e.sect
  if res ≠ .ok then return (res, fs)
  else return (.ok, { fs with win := memCpy e.ofs e.data fs.win, wflag := true })

/-- Changes one after the other, and the last of them written back. -/
def editAll : List Edit → Fatfs → DiskProg (FResult × Fatfs)
  | [], fs => syncWindow fs
  | e :: es, fs => do
    let (res, fs) ← editWindow fs e
    if res ≠ .ok then return (res, fs) else editAll es fs

/-- The change of the memory. -/
def Edit.apply (m : Image) (e : Edit) : Image := Blocks.store m (sectAddr e.sect + e.ofs) e.data

/-- A change lies in a sector. -/
structure Edit.Valid (e : Edit) : Prop where
  sect : e.sect ≠ 0 - 1
  inside : e.ofs + e.data.length ≤ 4096

/-- What changes make of one byte depends on that byte only. -/
theorem apply_congr {m m' : Image} {a : Nat} (h : m a = m' a) (es : List Edit) :
    es.foldl Edit.apply m a = es.foldl Edit.apply m' a := by
  induction es generalizing m m' with
  | nil => exact h
  | cons e es ih => exact ih (Blocks.store_congr _ _ h)

/-- One change. The sector comes into the window, unless it is there, and the bytes are changed in
it. What is seen of the drive changes at once, the drive itself later. -/
theorem keeps_editWindow (hcoh : fs.Coherent d) {e : Edit} (he : e.Valid) :
    Ends ok (editWindow fs e) (fun r d' => r.2.toGeometry = fs.toGeometry ∧ r.2.Coherent d' ∧
      (r.1 = .ok ∧ (∀ a, ¬ fs.Mirror a → r.2.view d' a = e.apply (fs.view d) a) ∨
        r.1 = .diskErr ∧ MayFail ok ∧ ∀ a, ¬ fs.Mirror a → r.2.view d' a = fs.view d a)) d := by
  unfold editWindow
  refine always_seq (keeps_moveWindow hcoh e.sect) ?_
  rintro ⟨res, fs1⟩ d1 ⟨hkept, ⟨rfl, hsect⟩ | ⟨rfl, hfail, -⟩⟩
  · dsimp only at hkept hsect ⊢
    rw [if_neg (by decide)]
    have hne : fs1.winsect ≠ 0 - 1 := by
      rw [hsect]
      exact he.sect
    have hview : Fatfs.view { fs1 with win := memCpy e.ofs e.data fs1.win, wflag := true } d1 =
        Blocks.store (fs1.view d1) (sectAddr e.sect + e.ofs) e.data := by
      rw [← hsect]
      exact WriteBack.view_store (b := fs1.window) (hkept.coherent hne) he.inside
    refine ⟨hkept.geometry, coherent_of_dirty rfl, .inl ⟨rfl, fun a ha => ?_⟩⟩
    rw [hview]
    exact Blocks.store_congr _ _ (hkept.view a ha)
  · dsimp only at hkept ⊢
    rw [if_pos (by decide)]
    exact ⟨hkept.geometry, hkept.coherent, .inr ⟨rfl, hfail, hkept.view⟩⟩

/-- The window is a cache in front of the drive. All changes are on the drive at the end, in their
order, whatever sectors they are in. When the drive fails, those in front of the failure are still
seen, and no other. The second FAT is left out, which follows the first one. -/
theorem editAll_reaches_drive (es : List Edit) (hcoh : fs.Coherent d) (hes : ∀ e ∈ es, e.Valid) :
    Ends ok (editAll es fs) (fun r d' =>
      (r.1 = .ok ∧ ∀ a, ¬ fs.Mirror a → d' a = es.foldl Edit.apply (fs.view d) a) ∨
      (r.1 = .diskErr ∧ MayFail ok ∧ ∃ n ≤ es.length, ∀ a, ¬ fs.Mirror a →
        r.2.view d' a = (es.take n).foldl Edit.apply (fs.view d) a)) d := by
  induction es generalizing fs d with
  | nil =>
    refine always_mono ?_ (keeps_syncWindow hcoh)
    rintro ⟨res, fs1⟩ d1 ⟨hkept, -, -, ⟨rfl, hclean⟩ | ⟨rfl, hfail⟩⟩
    · refine .inl ⟨rfl, fun a ha => ?_⟩
      have hview := hkept.view a ha
      rwa [view_of_clean hclean] at hview
    · exact .inr ⟨rfl, hfail, 0, Nat.le_refl 0, hkept.view⟩
  | cons e es ih =>
    refine always_seq (keeps_editWindow hcoh (hes e List.mem_cons_self)) ?_
    rintro ⟨res, fs1⟩ d1 ⟨hgeo, hcoh1, ⟨rfl, hview⟩ | ⟨rfl, hfail, hview⟩⟩
    · -- the edit is in the window or on the drive, and the rest works on it
      dsimp only at hgeo hcoh1 hview ⊢
      rw [if_neg (by decide)]
      refine always_mono ?_ (ih hcoh1 fun e he => hes e (List.mem_cons_of_mem _ he))
      rw [hgeo]
      rintro ⟨res, fs2⟩ d2 (⟨hok, hall⟩ | ⟨herr, hfail, n, hn, hall⟩)
      · exact .inl ⟨hok, fun a ha => (hall a ha).trans (apply_congr (hview a ha) es)⟩
      · refine .inr ⟨herr, hfail, n + 1, Nat.succ_le_succ hn, fun a ha => ?_⟩
        exact (hall a ha).trans (apply_congr (hview a ha) _)
    · dsimp only
      rw [if_pos (by decide)]
      exact .inr ⟨rfl, hfail, 0, Nat.zero_le _, hview⟩

/-- A drive that may fail in any call. -/
def AnyAnswer (_ : Answer) : Prop := True

/-- A FAT12 volume with three clusters. The first of them is in use. -/
def smallDisk : Image := fun a => if a = 4099 then 0xFF else if a = 4100 then 0x0F else 0

/-- Its filesystem object, with the window on the boot sector. -/
def smallFs : Fatfs where
  fsType := some .fat12
  nFats := 2
  nRootdir := 128
  csize := 1
  nFatent := 5
  fsize := 1
  volbase := 0
  fatbase := 1
  dirbase := 3
  database := 4
  lastClst := 2
  freeClst := 2
  fsiFlag := 0
  wflag := false
  winsect := 0
  win := smallDisk
  id := 1

/-- The window of the small volume agrees with its sector. -/
theorem small_coherent : smallFs.Coherent smallDisk := by
  intro _ i _
  show smallDisk (0 * 4096 + i) = smallDisk i
  rw [Nat.zero_mul, Nat.zero_add]

/-- Two changes, the second of them in the FAT, which has a copy. -/
theorem editAll_small :
    Ends AnyAnswer (editAll [⟨3, 4094, [1, 2]⟩, ⟨1, 0, [0xF8]⟩] smallFs) (fun r d' =>
      (r.1 = .ok ∧ ∀ a, ¬ smallFs.Mirror a →
        d' a = [⟨3, 4094, [1, 2]⟩, ⟨1, 0, [0xF8]⟩].foldl Edit.apply (smallFs.view smallDisk) a) ∨
      (r.1 = .diskErr ∧ MayFail AnyAnswer ∧ ∃ n ≤ 2, ∀ a, ¬ smallFs.Mirror a →
        r.2.view d' a = ([⟨3, 4094, [1, 2]⟩, ⟨1, 0, [0xF8]⟩].take n).foldl Edit.apply
          (smallFs.view smallDisk) a)) smallDisk := by
  refine editAll_reaches_drive _ small_coherent ?_
  intro e he
  rcases List.mem_cons.1 he with rfl | he
  · exact ⟨by decide, by decide⟩
  · rw [List.mem_singleton.1 he]
    exact ⟨by decide, by decide⟩

end NucleoH743.Ff
