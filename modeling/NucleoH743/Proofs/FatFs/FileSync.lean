import NucleoH743.Proofs.FatFs.FileRead

/-!
# `Proofs.FatFs.FileSync`: `f_sync` puts the file on the disk

`f_sync` writes back the sector buffer, the directory entry in the window and with it the FAT, so
that the drive alone holds the file: `Stored`. A file object that is filled from the entry, of a
filesystem object that has been mounted since, has the same content.

What is seen through the window and the sector buffer is not on the drive yet, so the content of a
file as it is seen says nothing about the time after a mount. `Stored` speaks of the drive alone.
`f_sync` gets there in the order of the code: the sector buffer, the directory entry in the window,
and the window itself with `sync_fs`, and each of these steps is a `SyncFrame`, which lists all that
it may touch.

The second FAT and the FSINFO sector are left out of what lasts (`Lasting`), as a mount reads
neither of them for the content of a file.

- `ldClust_syncEntry`, `size_syncEntry`: what the entry says.
- `keeps_syncFs`, `keeps_fSync`, `keeps_fClose`.
- `Stored.opened`: the file is opened again.
-/

set_option autoImplicit false

namespace NucleoH743.Ff

open Diskio Mkfs Chains
open Prog (always_seq always_mono)

/-! ### The directory entry -/

section Entry
variable {p a : Nat} {win win' : Buf} {data : List UInt8}

/-- A word that was stored is loaded again. -/
theorem ldWord_stWord (v : UInt16) : ldWord p (stWord p v win) = v := by
  have hlt := v.toNat_lt
  have hmod : v.toNat % 256 ^ 2 = v.toNat := by omega
  rw [ldWord, stWord, LittleEndian.load_store, hmod]
  exact UInt16.ofNat_toNat

/-- So is a double word. -/
theorem ldDword_stDword (v : UInt32) : ldDword p (stDword p v win) = v := by
  have hlt := v.toNat_lt
  have hmod : v.toNat % 256 ^ 4 = v.toNat := by omega
  rw [ldDword, stDword, LittleEndian.load_store, hmod]
  exact UInt32.ofNat_toNat

/-- A store past the word. -/
theorem ldWord_store (h : p + 2 ≤ a ∨ a + data.length ≤ p) :
    ldWord p (Blocks.store win a data) = ldWord p win := by
  rw [ldWord, LittleEndian.load_of_disjoint _ h, ldWord]

/-- A store beside a double word leaves it alone. -/
theorem ldDword_store (h : p + 4 ≤ a ∨ a + data.length ≤ p) :
    ldDword p (Blocks.store win a data) = ldDword p win := by
  rw [ldDword, LittleEndian.load_of_disjoint _ h, ldDword]

/-- The same bytes at another place. -/
theorem ldWord_congr {q : Nat} (h : ∀ i < 2, win (p + i) = win' (q + i)) :
    ldWord p win = ldWord q win' := by
  rw [ldWord, ldWord, LittleEndian.load, LittleEndian.load, Blocks.slice_congr _ _ h]

/-- A double word depends on its four bytes. -/
theorem ldDword_congr {q : Nat} (h : ∀ i < 4, win (p + i) = win' (q + i)) :
    ldDword p win = ldDword q win' := by
  rw [ldDword, ldDword, LittleEndian.load, LittleEndian.load, Blocks.slice_congr _ _ h]

/-- An entry is its 32 bytes. -/
theorem ldClust_congr {t : Option FatType} {q : Nat}
    (h : ∀ i < 32, win (p + i) = win' (q + i)) : ldClust t p win = ldClust t q win' := by
  have hword : ∀ n, n + 2 ≤ 32 → ldWord (p + n) win = ldWord (q + n) win' := by
    intro n hn
    refine ldWord_congr fun i hi => ?_
    rw [Nat.add_assoc, Nat.add_assoc]
    exact h (n + i) (by omega)
  unfold ldClust
  rw [hword dirFstClusLO (by decide), hword dirFstClusHI (by decide)]

/-- The halves of a cluster number. A shift by half of the width and an `or` put them together
again. By the bits. -/
theorem join_clust (cl : UInt32) :
    cl.toUInt16.toUInt32 ||| (cl >>> 16).toUInt16.toUInt32 <<< 16 = cl := by
  have hlt := cl.toNat_lt
  have hlow : cl.toUInt16.toUInt32.toNat = cl.toNat % 2 ^ 16 := by
    rw [UInt16.toNat_toUInt32]
    exact UInt32.toNat_toUInt16 cl
  have hhigh : (cl >>> 16).toUInt16.toUInt32.toNat = cl.toNat / 2 ^ 16 := by
    have hshift : (cl >>> 16).toNat = cl.toNat / 2 ^ 16 := by
      rw [UInt32.toNat_shiftRight]
      exact Nat.shiftRight_eq_div_pow cl.toNat 16
    rw [UInt16.toNat_toUInt32, UInt32.toNat_toUInt16, hshift]
    exact Nat.mod_eq_of_lt (by omega)
  have hsum : (cl >>> 16).toUInt16.toUInt32.toNat <<< ((16 : UInt32).toNat % 32) % 2 ^ 32 =
      cl.toNat / 2 ^ 16 * 2 ^ 16 := by
    rw [hhigh, Nat.shiftLeft_eq]
    show cl.toNat / 65536 * 65536 % 4294967296 = cl.toNat / 65536 * 65536
    omega
  refine UInt32.toNat_inj.1 ?_
  rw [UInt32.toNat_or, UInt32.toNat_shiftLeft, hsum, hlow,
    Bits.or_add (Nat.mod_lt _ (by decide))]
  omega

/-- The first cluster of an entry. On FAT12 and FAT16 its number has 16 bits. On FAT32 the two
halves are joined. -/
theorem ldClust_stClust {t : Option FatType} {cl : UInt32}
    (hcl : t ≠ some .fat32 → cl.toNat < 2 ^ 16) : ldClust t p (stClust t p cl win) = cl := by
  unfold ldClust stClust
  dsimp only
  by_cases ht : t = some .fat32
  · have hlow : ldWord (p + dirFstClusLO) (stWord (p + dirFstClusHI) (cl >>> 16).toUInt16
        (stWord (p + dirFstClusLO) cl.toUInt16 win)) = cl.toUInt16 := by
      refine (ldWord_store (.inr ?_)).trans (ldWord_stWord _)
      rw [LittleEndian.length_bytes]
      unfold dirFstClusLO dirFstClusHI
      omega
    rw [if_pos ht, if_pos ht, hlow, ldWord_stWord]
    exact join_clust cl
  · rw [if_neg ht, if_neg ht, ldWord_stWord]
    refine UInt32.toNat_inj.1 ?_
    rw [UInt16.toNat_toUInt32, UInt32.toNat_toUInt16]
    exact Nat.mod_eq_of_lt (hcl ht)

/-- A store past the first cluster. -/
theorem ldClust_store {t : Option FatType} (hlow : a + data.length ≤ p + dirFstClusLO ∨
      p + dirFstClusLO + 2 ≤ a)
    (hhigh : a + data.length ≤ p + dirFstClusHI ∨ p + dirFstClusHI + 2 ≤ a) :
    ldClust t p (Blocks.store win a data) = ldClust t p win := by
  unfold ldClust
  rw [ldWord_store hlow.symm, ldWord_store hhigh.symm]

end Entry

variable {ok : Answer → Prop} {t : FatType} {fs fs' : Fatfs} {d d' : Image} {fp : Fil}
  {cs : List Nat} {tm : UInt32}

/-- The entry that `f_sync` makes has the first cluster of the file. On FAT12 and FAT16 only the low
half is read, so there the number has to fit into it, as the number of clusters sees to. -/
theorem ldClust_syncEntry (hcl : fs.fsType ≠ some .fat32 → fp.sclust.toNat < 2 ^ 16) :
    ldClust fs.fsType fp.dirPtr (syncEntry fs fp tm) = fp.sclust := by
  have hword : ∀ v : Nat, (LittleEndian.bytes 2 v).length = 2 := LittleEndian.length_bytes 2
  have hdword : ∀ v : Nat, (LittleEndian.bytes 4 v).length = 4 := LittleEndian.length_bytes 4
  unfold syncEntry
  dsimp only
  refine (ldClust_store (.inl ?_) (.inl ?_)).trans ?_
  · rw [hword]
    unfold dirLstAccDate dirFstClusLO
    omega
  · rw [hword]
    unfold dirLstAccDate dirFstClusHI
    omega
  refine (ldClust_store (.inl ?_) (.inr ?_)).trans ?_
  · rw [hdword]
    unfold dirModTime dirFstClusLO
    omega
  · unfold dirModTime dirFstClusHI
    omega
  refine (ldClust_store (.inr ?_) (.inr ?_)).trans ?_
  · unfold dirFileSize dirFstClusLO
    omega
  · unfold dirFileSize dirFstClusHI
    omega
  exact ldClust_stClust hcl

/-- And its size. -/
theorem size_syncEntry (fs : Fatfs) (fp : Fil) (tm : UInt32) :
    ldDword (fp.dirPtr + dirFileSize) (syncEntry fs fp tm) = fp.objsize := by
  have hword : ∀ v : Nat, (LittleEndian.bytes 2 v).length = 2 := LittleEndian.length_bytes 2
  have hdword : ∀ v : Nat, (LittleEndian.bytes 4 v).length = 4 := LittleEndian.length_bytes 4
  unfold syncEntry
  dsimp only
  refine (ldDword_store (.inr ?_)).trans ((ldDword_store (.inr ?_)).trans (ldDword_stDword _))
  · rw [hword]
    unfold dirLstAccDate dirFileSize
    omega
  · rw [hdword]
    unfold dirModTime dirFileSize
    omega

/-- The other entries of the sector stay. `f_sync` stores into the 32 bytes of its own entry, and
`st_clust` does too. -/
theorem syncEntry_outside {i : Nat} (h : i < fp.dirPtr ∨ fp.dirPtr + 32 ≤ i) :
    syncEntry fs fp tm i = fs.win i := by
  have hword : ∀ v : Nat, (LittleEndian.bytes 2 v).length = 2 := LittleEndian.length_bytes 2
  have hdword : ∀ v : Nat, (LittleEndian.bytes 4 v).length = 4 := LittleEndian.length_bytes 4
  have hstore : ∀ (win : Buf) (n : Nat) (data : List UInt8), n + data.length ≤ 32 →
      Blocks.store win (fp.dirPtr + n) data i = win i := fun win n data hn =>
    Blocks.store_of_outside _ _ (by omega)
  have hclust : ∀ win : Buf, stClust fs.fsType fp.dirPtr fp.sclust win i = win i := by
    intro win
    unfold stClust
    by_cases ht : fs.fsType = some .fat32
    · rw [if_pos ht]
      refine (hstore _ dirFstClusHI _ ?_).trans (hstore _ dirFstClusLO _ ?_)
      · rw [hword]
        decide
      · rw [hword]
        decide
    · rw [if_neg ht]
      refine hstore _ dirFstClusLO _ ?_
      rw [hword]
      decide
  unfold syncEntry
  refine (hstore _ dirLstAccDate _ ?_).trans ((hstore _ dirModTime _ ?_).trans
    ((hstore _ dirFileSize _ ?_).trans ((hclust _).trans (hstore _ dirAttr _ ?_))))
  · rw [hword]
    decide
  · rw [hdword]
    decide
  · rw [hdword]
    decide
  · show 11 + 1 ≤ 32
    decide

/-! ### `sync_fs` -/

/-- What `sync_fs` leaves: the FSINFO sector is written when it is due. -/
structure SyncedFs (ok : Answer → Prop) (fs : Fatfs) (d : Image) (fs' : Fatfs) (d' : Image) :
    Prop where
  geometry : fs'.toGeometry = fs.toGeometry
  lastClst : fs'.lastClst = fs.lastClst
  freeClst : fs'.freeClst = fs.freeClst
  id : fs'.id = fs.id
  coherent : fs'.Coherent d' ∨ MayFail ok
  view : ∀ a, ¬ fs.Mirror a → (fs.fsType = some .fat32 → a / 4096 ≠ (fs.volbase + 1).toNat) →
    fs'.view d' a = fs.view d a
  placed : fs'.winsect = fs.winsect ∨
    fs.fsType = some .fat32 ∧ fs'.winsect = fs.volbase + 1

/-- Where nothing is due, the volume is kept as it is. -/
theorem SyncedFs.of_kept (h : Kept fs d fs' d') (hsect : fs'.winsect = fs.winsect) :
    SyncedFs ok fs d fs' d' :=
  ⟨h.geometry, congrArg AllocInfo.lastClst h.alloc, congrArg AllocInfo.freeClst h.alloc, h.id,
    .inl h.coherent, fun a ha _ => h.view a ha, .inl hsect⟩

/-- The end of `sync_fs`. -/
theorem keeps_ctrlSync {fs1 : Fatfs} {d1 : Image} (h : SyncedFs ok fs d fs1 d1)
    (hclean : fs1.wflag = false) :
    Ends ok (do
        let (r, _) ← ioctl ctrlSync 0
        if r ≠ .ok then return (.diskErr, fs1) else return (.ok, fs1))
      (fun r d' => SyncedFs ok fs d r.2 d' ∧
        (r.1 = FResult.ok ∧ r.2.wflag = false ∨ r.1 = .diskErr ∧ MayFail ok)) d1 := by
  rintro (_ | junk) hok
  · exact ⟨h, .inl ⟨rfl, hclean⟩⟩
  · exact ⟨h, .inr ⟨rfl, junk, hok⟩⟩

/-- The FSINFO sector has been written, or a drive that fails has left anything there. It lies
outside of the FAT, of the clusters and of the directory, so nothing else depends on it. -/
theorem syncedFs_fsinfo {fs1 : Fatfs} {d1 : Image} (hkept : Kept fs d fs1 d1)
    (hclean : fs1.wflag = false) (htype : fs.fsType = some .fat32) (win : Buf) {data : List UInt8}
    (hlen : data.length = 4096) (hdata : data = sectors 1 win ∨ MayFail ok) :
    SyncedFs ok fs d { fs1 with win := win, winsect := fs1.volbase + 1, fsiFlag := 0 }
      (Blocks.store d1 (sectAddr (fs1.volbase + 1)) data) := by
  have hlast : fs1.lastClst = fs.lastClst := congrArg AllocInfo.lastClst hkept.alloc
  have hfree : fs1.freeClst = fs.freeClst := congrArg AllocInfo.freeClst hkept.alloc
  have hbase : fs1.volbase = fs.volbase := congrArg Geometry.volbase hkept.geometry
  refine ⟨hkept.geometry, hlast, hfree, hkept.id, ?_, ?_, .inr ⟨htype, ?_⟩⟩
  · rcases hdata with hdata | hfail
    · refine .inl ?_
      intro _
      unfold Fatfs.window
      dsimp only
      rw [hclean, hdata]
      exact WriteBack.holds_writeBack (b := ⟨sectAddr (fs1.volbase + 1), win, true⟩)
    · exact .inr hfail
  · intro a ha hne
    generalize hfs2 : ({ fs1 with win := win, winsect := fs1.volbase + 1, fsiFlag := 0 } : Fatfs)
      = fs2
    have hclean2 : fs2.wflag = false := by
      rw [← hfs2]
      exact hclean
    rw [← hkept.view a ha, view_of_clean hclean, view_of_clean hclean2, hbase]
    exact store_sector_of_ne _ hlen (hne htype)
  · show fs1.volbase + 1 = _
    rw [hbase]

/-- `sync_fs` It writes the window, and on FAT32 the FSINFO sector if its content has changed. A
drive that fails at the second has the first. -/
theorem keeps_syncFs (hcoh : fs.Coherent d) :
    Ends ok (syncFs fs) (fun r d' => SyncedFs ok fs d r.2 d' ∧
      (r.1 = .ok ∧ r.2.wflag = false ∨ r.1 = .diskErr ∧ MayFail ok)) d := by
  unfold syncFs
  refine always_seq (keeps_syncWindow hcoh) ?_
  rintro ⟨res, fs1⟩ d1 ⟨hkept, hsect, -, ⟨rfl, hclean⟩ | ⟨rfl, hfail⟩⟩
  · dsimp only at hkept hsect hclean ⊢
    rw [if_pos rfl]
    by_cases hdue : fs1.fsType = some .fat32 ∧ fs1.fsiFlag = 1
    · rw [if_pos hdue]
      have htype : fs.fsType = some .fat32 :=
        (congrArg Geometry.fsType hkept.geometry).symm.trans hdue.1
      -- the write of the FSINFO sector is not checked
      refine ends_diskWrite (n := 4096) rfl ?_ ?_
      · exact keeps_ctrlSync (syncedFs_fsinfo hkept hclean htype _ (length_sectors_one _)
          (.inl rfl)) hclean
      · intro data hlen hfail
        exact keeps_ctrlSync (syncedFs_fsinfo hkept hclean htype _ hlen (.inr hfail)) hclean
    · rw [if_neg hdue]
      exact keeps_ctrlSync (.of_kept hkept hsect) hclean
  · dsimp only at hkept hsect ⊢
    rw [if_neg (by decide)]
    exact ⟨.of_kept hkept hsect, .inr ⟨rfl, hfail⟩⟩

/-! ### What lasts -/

namespace Geometry
variable {g : Geometry}

/-- The end of the FATs. -/
def fatEnd (g : Geometry) : Nat := g.fatbase.toNat + g.nFats.toNat * g.fsize.toNat

/-- A byte of the first FAT, or behind the FATs. -/
def Lasting (g : Geometry) (a : Nat) : Prop :=
  (∃ i < g.fsize.toNat * 4096, a = sectAddr g.fatbase + i) ∨ g.fatEnd * 4096 ≤ a

/-- The FSINFO sector lies in front of the FATs. -/
def FsinfoPlaced (g : Geometry) : Prop :=
  g.fsType = some .fat32 → (g.volbase + 1).toNat < g.fatbase.toNat

/-- The second FAT is no part of what lasts: it may be behind the first one. -/
theorem WellFormed.lasting_not_mirror (hw : g.WellFormed t) {a : Nat} (h : g.Lasting a) :
    ¬ g.Mirror a := by
  rcases h with ⟨i, hi, rfl⟩ | hend
  · exact hw.not_mirror hi
  · intro hm
    obtain ⟨-, hlt⟩ := hw.inFats_of_mirror hm
    unfold fatEnd at hend
    omega

/-- The FSINFO sector is none either. It lies in front of the FATs. -/
theorem Lasting.not_fsinfo {a : Nat} (h : g.Lasting a) (hfsi : g.FsinfoPlaced)
    (ht : g.fsType = some .fat32) : a / 4096 ≠ (g.volbase + 1).toNat := by
  have hlt := hfsi ht
  rcases h with ⟨i, -, rfl⟩ | hend
  · unfold sectAddr
    omega
  · unfold fatEnd at hend
    omega

/-- The clusters lie behind the FATs. -/
theorem WellFormed.lasting_of_inClsts (hw : g.WellFormed t) {cs : List Nat} {a : Nat}
    (h : g.InClsts cs a) : g.Lasting a := by
  obtain ⟨c, -, hle, -⟩ := h
  have hend : g.fatEnd * 4096 ≤ g.clstAddr c :=
    Nat.mul_le_mul_right _ (hw.fats.trans (Nat.le_add_right _ _))
  exact Or.inr (hend.trans hle)

end Geometry

/-! ### `f_sync` -/

/-- The address of the directory entry. -/
def FilOpen.entryAddr (fo : FilOpen) : Nat := sectAddr fo.dirSect + fo.dirPtr

/-- The directory entry lies in a sector behind the FATs that is none of the clusters `cs`. -/
structure EntryPlaced (g : Geometry) (cs : List Nat) (fo : FilOpen) : Prop where
  inside : fo.dirPtr + 32 ≤ 4096
  behind : g.fatEnd ≤ fo.dirSect.toNat
  valid : fo.dirSect ≠ 0 - 1
  away : ¬ g.InClsts cs (sectAddr fo.dirSect)

/-- The directory entry is a part of it, since it lies behind the FATs. -/
theorem EntryPlaced.lasting {g : Geometry} {fo : FilOpen} (he : EntryPlaced g cs fo) (i : Nat) :
    g.Lasting (fo.entryAddr + i) := by
  have hle := he.behind
  have hend : g.fatEnd * 4096 ≤ fo.entryAddr + i := by
    unfold FilOpen.entryAddr sectAddr
    omega
  exact Or.inr hend

/-- The entry is not in the clusters. -/
theorem EntryPlaced.outside {g : Geometry} {fo : FilOpen} (he : EntryPlaced g cs fo) {a : Nat}
    (ha : g.InClsts cs a) : a < fo.entryAddr ∨ fo.entryAddr + 32 ≤ a := by
  have hin := he.inside
  by_contra hmem
  refine he.away (Geometry.inClsts_sector ?_ ha)
  unfold FilOpen.entryAddr sectAddr at *
  omega

/-- What `f_sync` leaves of the volume. Apart from the clusters `cs` of the file and its entry
nothing changes. -/
structure SyncFrame (ok : Answer → Prop) (cs : List Nat) (fo : FilOpen) (fs : Fatfs) (d : Image)
    (fs' : Fatfs) (d' : Image) : Prop where
  geometry : fs'.toGeometry = fs.toGeometry
  id : fs'.id = fs.id
  lastClst : fs'.lastClst = fs.lastClst
  freeClst : fs'.freeClst = fs.freeClst
  coherent : fs'.Coherent d' ∨ MayFail ok
  bytes : ∀ a, fs.Lasting a → ¬ fs.InClsts cs a → a < fo.entryAddr ∨ fo.entryAddr + 32 ≤ a →
    fs'.view d' a = fs.view d a
  placed : fs'.winsect = fs.winsect ∨ fs'.winsect = fo.dirSect ∨
    fs'.winsect.toNat < fs.database.toNat ∨ fs'.winsect = 0 - 1

/-- The table is as it was. The sector of the entry and the FSINFO sector lie outside of the FAT. -/
theorem SyncFrame.fat {fo : FilOpen} (hw : fs.WellFormed t) (he : EntryPlaced fs.toGeometry cs fo)
    (h : SyncFrame ok cs fo fs d fs' d') {c : Nat} (hc : c < fs.nFatent.toNat) :
    fs'.fat d' c = fs.fat d c := by
  have hmem : ∀ i < fs.fsize.toNat * 4096, fs'.fatMem d' i = fs.fatMem d i := by
    intro i hi
    have hfats := hw.inFats hi
    have hbase : fs'.fatbase = fs.fatbase := congrArg Geometry.fatbase h.geometry
    unfold Fatfs.fatMem
    rw [hbase]
    refine h.bytes _ (.inl ⟨i, hi, rfl⟩) (fun hin => hw.not_inFats hin hfats) (.inl ?_)
    have hlt := hfats.2
    have hle := he.behind
    unfold Geometry.fatEnd at hle
    unfold FilOpen.entryAddr
    unfold sectAddr at *
    omega
  rw [fat_congr hw h.geometry hmem hc, fat_eq hw]

/-- A call that touches the file and its entry only leaves the volume in order, for the FAT is
elsewhere. -/
theorem SyncFrame.sound {fo : FilOpen} (hs : Sound t fs d) (he : EntryPlaced fs.toGeometry cs fo)
    (h : SyncFrame ok cs fo fs d fs' d') (hcoh : fs'.Coherent d') : Sound t fs' d' := by
  have hw := hs.wellFormed
  have hclst : fs'.Clst = fs.Clst := congrArg Geometry.Clst h.geometry
  have hn : fs'.nFatent = fs.nFatent := congrArg Geometry.nFatent h.geometry
  refine ⟨?_, hcoh, ?_, ?_⟩
  · rw [h.geometry]
    exact hw
  · intro c hc
    rw [hclst] at hc
    rw [h.fat hw he hc.2]
    exact hs.sane c hc
  · have hcount : fs'.freeClusters d' = fs.freeClusters d := by
      unfold Fatfs.freeClusters
      rw [hn]
      exact freeCount_congr fun c _ hlt => by rw [h.fat hw he hlt]
    rw [hcount, h.freeClst, hn]
    exact hs.count

/-- The window of another file. -/
theorem SyncFrame.away {fo : FilOpen} {cs2 : List Nat} (hw : fs.WellFormed t)
    (h : SyncFrame ok cs fo fs d fs' d') (hcs : ∀ c ∈ cs2, fs.Clst c) (haway : fs.Away cs2)
    (hentry : ¬ fs.InClsts cs2 (sectAddr fo.dirSect)) : fs'.Away cs2 := by
  rcases h.placed with heq | heq | hrest
  · exact away_of_placed hw h.geometry (.inl heq) hcs haway
  · unfold Fatfs.Away
    rw [heq, h.geometry]
    exact hentry
  · exact away_of_placed hw h.geometry (.inr hrest) hcs haway

/-- Another file is as it was. -/
theorem SyncFrame.other {fo : FilOpen} {fp2 : Fil} {cs2 : List Nat} (hw : fs.WellFormed t)
    (hcs : ∀ c ∈ cs, 2 ≤ c) (he : EntryPlaced fs.toGeometry cs fo)
    (h : SyncFrame ok cs fo fs d fs' d') (ho2 : Opened fs d fp2 cs2) (hdisj : ∀ c ∈ cs2, c ∉ cs)
    (hentry : ¬ fs.InClsts cs2 (sectAddr fo.dirSect)) :
    Opened fs' d' fp2 cs2 ∧ fp2.content fs' d' cs2 = fp2.content fs d cs2 := by
  have htwo : ∀ c ∈ cs2, 2 ≤ c := fun c hc => (ho2.chain.clst c hc).1
  have hout : EntryPlaced fs.toGeometry cs2 fo := ⟨he.inside, he.behind, he.valid, hentry⟩
  obtain ⟨ho', hmem⟩ := ho2.of_bytes hw h.geometry
    (fun c hc => h.fat hw he (ho2.chain.clst c hc).2) (fun a ha => by
      refine h.bytes a (hw.lasting_of_inClsts ha) (fun hin => ?_) (hout.outside ha)
      obtain ⟨c, hc, hmem⟩ := ha.disjoint hin htwo hcs
      exact hdisj c hc hmem)
    (h.away hw ho2.chain.clst ho2.away hentry)
  exact ⟨ho', content_congr ho2 rfl hmem⟩

/-! ### The steps of `f_sync` -/

section Steps
variable {fo : FilOpen}

/-- A call that does nothing touches nothing. -/
theorem SyncFrame.refl (hcoh : fs.Coherent d) : SyncFrame ok cs fo fs d fs d :=
  ⟨rfl, rfl, rfl, rfl, .inl hcoh, fun _ _ _ _ => rfl, .inl rfl⟩

/-- Two such calls are one. Each of the fields is composed by itself. The entry may be changed by
both. -/
theorem SyncFrame.trans {fs'' : Fatfs} {d'' : Image} (h : SyncFrame ok cs fo fs d fs' d')
    (h' : SyncFrame ok cs fo fs' d' fs'' d'') : SyncFrame ok cs fo fs d fs'' d'' where
  geometry := h'.geometry.trans h.geometry
  id := h'.id.trans h.id
  lastClst := h'.lastClst.trans h.lastClst
  freeClst := h'.freeClst.trans h.freeClst
  coherent := h'.coherent
  bytes := by
    intro a hlast hout hentry
    rw [← h.bytes a hlast hout hentry]
    rw [← h.geometry] at hlast hout
    exact h'.bytes a hlast hout hentry
  placed := by
    have hbase : fs'.database = fs.database := congrArg Geometry.database h.geometry
    rcases h'.placed with heq | heq | hlt | hinv
    · rw [heq]
      exact h.placed
    · exact .inr (.inl heq)
    · rw [hbase] at hlt
      exact .inr (.inr (.inl hlt))
    · exact .inr (.inr (.inr hinv))

/-- The sector buffer is written back. -/
theorem OwnOnly.syncFrame (h : OwnOnly cs fs d d') : SyncFrame ok cs fo fs d fs d' :=
  ⟨rfl, rfl, rfl, rfl, .inl h.coherent, fun a _ hout _ => h.bytes a hout, .inl rfl⟩

/-- The window goes to the entry. -/
theorem Kept.syncFrame (hw : fs.WellFormed t) (h : Kept fs d fs' d')
    (hplaced : fs'.winsect = fo.dirSect ∨ fs'.winsect = fs.winsect ∨ fs'.winsect = 0 - 1) :
    SyncFrame ok cs fo fs d fs' d' where
  geometry := h.geometry
  id := h.id
  lastClst := congrArg AllocInfo.lastClst h.alloc
  freeClst := congrArg AllocInfo.freeClst h.alloc
  coherent := .inl h.coherent
  bytes := fun a hlast _ _ => h.view a (hw.lasting_not_mirror hlast)
  placed := by
    rcases hplaced with heq | heq | heq
    · exact .inr (.inl heq)
    · exact .inl heq
    · exact .inr (.inr (.inr heq))

/-- The entry changes in the window. Outside of the 32 bytes of the entry what is seen of the disk
is as before. -/
theorem view_syncEntry (hcoh : fs.Coherent d) (hsect : fs.winsect = fp.dirSect)
    (hvalid : fp.dirSect ≠ 0 - 1) :
    (∀ a, a < fp.entryAddr ∨ fp.entryAddr + 32 ≤ a →
      Fatfs.view { fs with win := syncEntry fs fp tm, wflag := true } d a = fs.view d a) ∧
    ∀ i < 4096, Fatfs.view { fs with win := syncEntry fs fp tm, wflag := true } d
      (sectAddr fp.dirSect + i) = syncEntry fs fp tm i := by
  constructor
  · intro a ha
    refine WriteBack.view_change (b := fs.window) (hcoh (by rwa [hsect])) fun i _ heq => ?_
    refine syncEntry_outside ?_
    have haddr : fs.window.addr = sectAddr fp.dirSect := by
      rw [← hsect]
      rfl
    rw [haddr] at heq
    unfold FilOpen.entryAddr at ha
    omega
  · intro i hi
    rw [← hsect]
    exact WriteBack.holds_dirty (n := 4096)
      (b := Fatfs.window { fs with win := syncEntry fs fp tm, wflag := true }) rfl i hi

/-- Writing the FSINFO sector touches neither the file nor the FAT. It is one sector of the reserved
area. -/
theorem SyncedFs.syncFrame (hw : fs.WellFormed t) (hfsi : fs.FsinfoPlaced)
    (h : SyncedFs ok fs d fs' d') : SyncFrame ok cs fo fs d fs' d' where
  geometry := h.geometry
  id := h.id
  lastClst := h.lastClst
  freeClst := h.freeClst
  coherent := h.coherent
  bytes := fun a hlast _ _ =>
    h.view a (hw.lasting_not_mirror hlast) fun ht => hlast.not_fsinfo hfsi ht
  placed := by
    rcases h.placed with heq | ⟨ht, heq⟩
    · exact .inl heq
    · have hlt := hfsi ht
      have hfats := hw.fats
      rw [← heq] at hlt
      exact .inr (.inr (.inl (by omega)))

end Steps

/-- The drive alone holds the file: its entry, its chain and its bytes. -/
structure Stored (t : FatType) (g : Geometry) (fp : Fil) (cs : List Nat) (d : Image)
    (data : List UInt8) : Prop where
  clust : ldClust (some t) fp.entryAddr d = fp.sclust
  size : ldDword (fp.entryAddr + dirFileSize) d = fp.objsize
  chain : Linked (entryAt t fun i => d (sectAddr g.fatbase + i)) g.Last cs
  valid : ∀ c ∈ cs, g.Clst c
  head : fp.sclust.toNat = cs.headD 0
  fits : fp.objsize.toNat ≤ cs.length * g.bcs
  data : Blocks.slice (Scatter.gather g.bcs (cs.map g.clstAddr) d) 0 fp.objsize.toNat = data

/-- On FAT12 and FAT16 the number of the first cluster has 16 bits. A volume of these types has
fewer than 2^16 clusters. -/
theorem Opened.sclust_lt (hw : fs.WellFormed t) (ho : Opened fs d fp cs)
    (ht : fs.fsType ≠ some .fat32) : fp.sclust.toNat < 2 ^ 16 := by
  rw [ho.head]
  cases cs with
  | nil => exact Nat.two_pow_pos 16
  | cons c cs =>
    have hlt := (ho.chain.clst c List.mem_cons_self).2
    have hlimit := hw.limit
    rw [hw.fsType] at ht
    have hmax : maxClst t + 2 < 2 ^ 16 := by
      cases t with
      | fat12 => decide
      | fat16 => decide
      | fat32 => exact absurd rfl ht
    show c < _
    omega

/-- The entry, the FAT and the clusters are on the drive, when nothing is left in the window and
the buffer. -/
theorem stored_of_clean (hw : fs.WellFormed t) (ho : Opened fs d fp cs)
    (hwflag : fs.wflag = false) (hdirty : fp.faDirty = false)
    (hclust : ldClust (some t) fp.entryAddr (fs.view d) = fp.sclust)
    (hsize : ldDword (fp.entryAddr + dirFileSize) (fs.view d) = fp.objsize) :
    Stored t fs.toGeometry fp cs d (fp.content fs d cs) := by
  have hview := view_of_clean (d := d) hwflag
  rw [hview] at hclust hsize
  refine ⟨hclust, hsize, ?_, ho.chain.clst, ho.head, ho.size, ?_⟩
  · have hfat : fs.fat d = entryAt t fun i => d (sectAddr fs.fatbase + i) := by
      funext c
      rw [fat_eq hw]
      unfold Fatfs.fatMem
      rw [hview]
    rw [← hfat]
    exact ho.chain.linked
  · have hbuf : fp.view d = d := WriteBack.view_clean hdirty
    unfold Fil.content Fil.mem
    rw [hview, hbuf]

/-- The entry of a file object with a clean buffer goes to the drive. The sector of the entry is
brought into the window, the entry is changed there, and `sync_fs` writes it out. Where this returns
`FR_OK` the drive has the entry, and the clusters are as they were. -/
theorem keeps_storeEntry (hs : Sound t fs d) (ho : Opened fs d fp cs)
    (he : EntryPlaced fs.toGeometry cs fp.toFilOpen) (hfsi : fs.FsinfoPlaced)
    (hdirty : fp.faDirty = false) :
    Ends ok (storeEntry fs fp tm) (fun r d' => SyncFrame ok cs fp.toFilOpen fs d r.2.2 d' ∧
      (r.1 = .ok ∧ r.2.1 = { fp with faModified := false } ∧ r.2.2.wflag = false ∧
          Opened r.2.2 d' r.2.1 cs ∧ r.2.1.content r.2.2 d' cs = fp.content fs d cs ∧
          Stored t fs.toGeometry r.2.1 cs d' (fp.content fs d cs) ∨
        r.1 = .diskErr ∧ MayFail ok)) d := by
  have hw := hs.wellFormed
  unfold storeEntry
  refine always_seq (keeps_moveWindow hs.coherent fp.dirSect) ?_
  rintro ⟨res, fs2⟩ d2 ⟨hkept, ⟨rfl, hsect⟩ | ⟨rfl, hfail, hplaced⟩⟩
  · dsimp only at hkept hsect ⊢
    rw [if_neg (by decide)]
    have hgeo2 := hkept.geometry
    have hw2 : fs2.WellFormed t := by
      rw [hgeo2]
      exact hw
    have hfsi2 : fs2.FsinfoPlaced := by
      rw [hgeo2]
      exact hfsi
    obtain ⟨hout, hentry⟩ := view_syncEntry hkept.coherent hsect he.valid
    have hclust : ldClust (some t) fp.dirPtr (syncEntry fs2 fp tm) = fp.sclust := by
      rw [← hw2.fsType]
      refine ldClust_syncEntry fun ht => ho.sclust_lt hw ?_
      rwa [hgeo2] at ht
    have hsize := size_syncEntry fs2 fp tm
    generalize syncEntry fs2 fp tm = win at hout hentry hclust hsize ⊢
    -- the entry in the window
    have hframe3 : SyncFrame ok cs fp.toFilOpen fs d { fs2 with win := win, wflag := true } d2 :=
      (hkept.syncFrame hw (.inl hsect)).trans ⟨rfl, rfl, rfl, rfl, .inl (coherent_of_dirty rfl),
        fun a _ _ hentry => hout a hentry, .inl rfl⟩
    refine always_seq (keeps_syncFs (coherent_of_dirty rfl)) ?_
    rintro ⟨res, fs4⟩ d4 ⟨hsynced, hres⟩
    dsimp only at hsynced hres ⊢
    have hframe4 := hframe3.trans (hsynced.syncFrame hw2 hfsi2)
    refine ⟨hframe4, ?_⟩
    rcases hres with ⟨rfl, hclean⟩ | ⟨rfl, hfail⟩
    · refine .inl ⟨rfl, rfl, hclean, ?_⟩
      -- the clusters are as they were, and the entry is as in the window
      have hown : ∀ a, fs.InClsts cs a → fs4.view d4 a = fs.view d a := by
        intro a ha
        have hlast := hw.lasting_of_inClsts ha
        have hmirror := hw.lasting_not_mirror hlast
        rw [← hkept.view a hmirror, ← hout a (he.outside ha)]
        rw [← hgeo2] at hlast hmirror
        exact hsynced.view a hmirror fun ht => hlast.not_fsinfo hfsi2 ht
      have hshown : ∀ i, fp.dirPtr + i < 4096 →
          fs4.view d4 (fp.entryAddr + i) = win (fp.dirPtr + i) := by
        intro i hi
        have hlast := he.lasting i
        rw [← hgeo2] at hlast
        rw [hsynced.view _ (hw2.lasting_not_mirror hlast) fun ht => hlast.not_fsinfo hfsi2 ht]
        have haddr : fp.entryAddr + i = sectAddr fp.dirSect + (fp.dirPtr + i) := by
          unfold FilOpen.entryAddr
          rw [Nat.add_assoc]
        rw [haddr]
        exact hentry _ hi
      have hin := he.inside
      obtain ⟨ho4, hmem4⟩ := ho.of_bytes hw hframe4.geometry
        (fun c hc => hframe4.fat hw he (ho.chain.clst c hc).2) hown
        (hframe4.away hw ho.chain.clst ho.away he.away)
      have hcontent : fp.content fs4 d4 cs = fp.content fs d cs := content_congr ho rfl hmem4
      have hw4 : fs4.WellFormed t := by
        rw [hframe4.geometry]
        exact hw
      have hstored := stored_of_clean hw4 ho4 hclean hdirty
        ((ldClust_congr fun i hi => hshown i (by omega)).trans hclust) (by
          refine (ldDword_congr fun i hi => ?_).trans hsize
          rw [Nat.add_assoc, Nat.add_assoc]
          have hofs : dirFileSize = 28 := rfl
          exact hshown _ (by omega))
      rw [hframe4.geometry, hcontent] at hstored
      exact ⟨⟨ho4.chain, ho4.head, ho4.size, ho4.ptr, ho4.clust, ho4.sect, ho4.shown, ho4.dirty,
        ho4.holds, ho4.away⟩, hcontent,
        ⟨hstored.clust, hstored.size, hstored.chain, hstored.valid, hstored.head, hstored.fits,
          hstored.data⟩⟩
    · exact .inr ⟨rfl, hfail⟩
  · dsimp only at hkept hplaced ⊢
    rw [if_pos (by decide)]
    exact ⟨hkept.syncFrame hw (.inr hplaced), .inr ⟨rfl, hfail⟩⟩

/-- `f_sync` puts a file that has been changed on the drive. The buffer goes first and the entry
behind it, so that an entry on the drive never names bytes that are not. An error of the drive is
returned at each of these steps. -/
theorem keeps_fSync (hs : Sound t fs d) (ho : Opened fs d fp cs) (hu : Usable fs fp)
    (he : EntryPlaced fs.toGeometry cs fp.toFilOpen) (hfsi : fs.FsinfoPlaced)
    (hmod : fp.faModified = true) :
    Ends ok (fSync fs fp tm) (fun r d' => SyncFrame ok cs fp.toFilOpen fs d r.2.2 d' ∧
      (r.1 = .ok ∧ r.2.1 = { fp with faDirty := false, faModified := false } ∧
          r.2.2.wflag = false ∧ Opened r.2.2 d' r.2.1 cs ∧
          r.2.1.content r.2.2 d' cs = fp.content fs d cs ∧
          Stored t fs.toGeometry r.2.1 cs d' (fp.content fs d cs) ∨
        (r.1 = .diskErr ∨ r.1 = .invalidObject) ∧ MayFail ok)) d := by
  have hw := hs.wellFormed
  unfold fSync
  refine always_seq (keeps_validate hw hu) ?_
  rintro res d' ⟨rfl, rfl | ⟨rfl, hfail⟩⟩
  · rw [if_neg (by decide), if_pos hmod]
    refine always_seq (keeps_flushSector hs.coherent ho.away ho.dirty ho.holds) ?_
    rintro ⟨res, fp1⟩ d1 ⟨hown, hview1, ⟨rfl, hfp1, hholds⟩ | ⟨rfl, hfail, -⟩⟩
    · dsimp only at hview1 hfp1 hholds ⊢
      rw [if_neg (by decide)]
      subst hfp1
      have ho1 : Opened fs d1 { fp with faDirty := false } cs :=
        ho.moved hw hown rfl ho.size ho.ptr ho.clust ho.sect ho.shown
          (fun h => Bool.noConfusion h) hholds
      have hcontent1 : Fil.content { fp with faDirty := false } fs d1 cs = fp.content fs d' cs :=
        content_congr ho rfl fun i _ => by
          unfold Fil.mem
          rw [hview1]
      refine always_mono ?_ (keeps_storeEntry (hown.sound hs) ho1 he hfsi rfl)
      rintro ⟨res, fp2, fs2⟩ d2 ⟨hframe, hres⟩
      rw [hcontent1] at hres
      refine ⟨hown.syncFrame.trans hframe, ?_⟩
      rcases hres with hdone | ⟨herr, hfail⟩
      · exact .inl hdone
      · exact .inr ⟨.inl herr, hfail⟩
    · dsimp only
      rw [if_pos (by decide)]
      exact ⟨hown.syncFrame, .inr ⟨.inl rfl, hfail⟩⟩
  · rw [if_pos (by decide)]
    exact ⟨.refl hs.coherent, .inr ⟨.inr rfl, hfail⟩⟩

/-- `f_close` puts it there as well, and gives the file object back. After a sync without an error
the object is no longer one of the volume. Where the sync fails it stays open, with the error for a
result. -/
theorem keeps_fClose (hs : Sound t fs d) (ho : Opened fs d fp cs) (hu : Usable fs fp)
    (he : EntryPlaced fs.toGeometry cs fp.toFilOpen) (hfsi : fs.FsinfoPlaced)
    (hmod : fp.faModified = true) :
    Ends ok (fClose fs fp tm) (fun r d' => SyncFrame ok cs fp.toFilOpen fs d r.2.2 d' ∧
      (r.1 = .ok ∧ r.2.1.hasFs = false ∧
          Stored t fs.toGeometry fp cs d' (fp.content fs d cs) ∨
        (r.1 = .diskErr ∨ r.1 = .invalidObject) ∧ MayFail ok)) d := by
  unfold fClose
  refine always_seq (keeps_fSync hs ho hu he hfsi hmod) ?_
  rintro ⟨res, fp1, fs1⟩ d1 ⟨hframe, hres⟩
  dsimp only at hframe hres ⊢
  rcases hres with ⟨rfl, rfl, -, -, -, hstored⟩ | ⟨herr, hfail⟩
  · rw [if_neg (by decide)]
    have hw1 : fs1.WellFormed t := by
      rw [hframe.geometry]
      exact hs.wellFormed
    refine always_seq (keeps_validate hw1 ⟨hu.hasFs, hu.id.trans hframe.id.symm, hu.err⟩) ?_
    rintro res d2 ⟨rfl, rfl | ⟨rfl, hfail⟩⟩
    · rw [if_neg (by decide)]
      exact ⟨hframe, .inl ⟨rfl, rfl, hstored.clust, hstored.size, hstored.chain, hstored.valid,
        hstored.head, hstored.fits, hstored.data⟩⟩
    · rw [if_pos (by decide)]
      exact ⟨hframe, .inr ⟨.inr rfl, hfail⟩⟩
  · have hne : res ≠ .ok := by
      rcases herr with rfl | rfl <;> decide
    rw [if_pos hne]
    exact ⟨hframe, .inr ⟨herr, hfail⟩⟩

/-! ### The next open -/

/-- A filesystem object of the same volume, whose window shows the entry, has the file again. What a
mount reads of the volume is its geometry, and the entry gives the first cluster and the size. So
nothing of the old filesystem object is needed. -/
theorem Stored.opened {g : Geometry} {data : List UInt8} (h : Stored t g fp cs d data)
    (hw : fs.WellFormed t) (hgeo : fs.toGeometry = g) (hclean : fs.wflag = false)
    (hcoh : fs.Coherent d) (he : EntryPlaced g cs fp.toFilOpen) (hsect : fs.winsect = fp.dirSect)
    (fp0 : Fil) (faRead faWrite faModified : Bool) :
    Opened fs d (openFil fs fp0 fp.dirPtr faRead faWrite faModified) cs ∧
      (openFil fs fp0 fp.dirPtr faRead faWrite faModified).content fs d cs = data := by
  subst hgeo
  have hview := view_of_clean (d := d) hclean
  have hin := he.inside
  -- the window shows the entry
  have hwin : ∀ i, fp.dirPtr + i < 4096 → fs.win (fp.dirPtr + i) = d (fp.entryAddr + i) := by
    intro i hi
    have hcell := hcoh.win_eq (by rw [hsect]; exact he.valid) hi
    rw [hcell, hview, hsect]
    unfold FilOpen.entryAddr
    rw [Nat.add_assoc]
  have hclust : ldClust fs.fsType fp.dirPtr fs.win = fp.sclust := by
    rw [hw.fsType, ← h.clust]
    exact ldClust_congr fun i hi => hwin i (by omega)
  have hsize : ldDword (fp.dirPtr + dirFileSize) fs.win = fp.objsize := by
    rw [← h.size]
    refine ldDword_congr fun i hi => ?_
    have hofs : dirFileSize = 28 := rfl
    rw [Nat.add_assoc, Nat.add_assoc]
    exact hwin _ (by omega)
  have hfat : fs.fat d = entryAt t fun i => d (sectAddr fs.fatbase + i) := by
    funext c
    rw [fat_eq hw]
    unfold Fatfs.fatMem
    rw [hview]
  have hshows : ¬ Fil.Shows (openFil fs fp0 fp.dirPtr faRead faWrite faModified)
      fs.toGeometry cs := by
    rintro ⟨c, -, hle, -⟩
    have hpos := hw.database_pos
    have hzero : (openFil fs fp0 fp.dirPtr faRead faWrite faModified).sect.toNat = 0 := rfl
    unfold Geometry.clstAddr sectAddr at hle
    omega
  constructor
  · constructor
    case chain =>
      refine ⟨?_, h.valid⟩
      rw [hfat]
      exact h.chain
    case head =>
      show (ldClust fs.fsType fp.dirPtr fs.win).toNat = _
      rw [hclust, h.head]
    case size =>
      show (ldDword (fp.dirPtr + dirFileSize) fs.win).toNat ≤ _
      rw [hsize]
      exact h.fits
    case ptr => exact Nat.zero_le _
    case clust => exact fun hpos => absurd hpos (Nat.lt_irrefl 0)
    case sect => exact fun hne => absurd rfl hne
    case shown => exact .inl hw.database_pos
    case dirty => exact fun hd => Bool.noConfusion hd
    case holds => exact fun hs => absurd hs hshows
    case away =>
      unfold Fatfs.Away
      rw [hsect]
      exact he.away
  · show Blocks.slice (Scatter.gather _ _ _) 0
      (ldDword (fp.dirPtr + dirFileSize) fs.win).toNat = data
    have hbuf : Fil.view (openFil fs fp0 fp.dirPtr faRead faWrite faModified) d = d :=
      WriteBack.view_clean rfl
    rw [hsize, hview, hbuf]
    exact h.data

/-- What was in a changed file when `f_close` returned `FR_OK` is in it when it is opened again, by
any filesystem object that the volume gets with a mount. A call of the drive that fails during
`f_close` cannot be the reason that it is not, since `f_close` then returns the error.

`FA_MODIFIED` must be set. `f_sync` clears it also when its `sync_fs` has failed, and so a `f_close`
behind a failed `f_sync` finds nothing to write: it returns `FR_OK`, although the drive may lack
the entry. -/
theorem fClose_durable (hs : Sound t fs d) (ho : Opened fs d fp cs) (hu : Usable fs fp)
    (he : EntryPlaced fs.toGeometry cs fp.toFilOpen) (hfsi : fs.FsinfoPlaced)
    (hmod : fp.faModified = true) :
    Ends ok (fClose fs fp tm) (fun r d' =>
      (r.1 = .ok ∧ ∀ fs2 : Fatfs, fs2.toGeometry = fs.toGeometry → fs2.wflag = false →
        fs2.Coherent d' → fs2.winsect = fp.dirSect → ∀ fp0 faRead faWrite faModified,
          Opened fs2 d' (openFil fs2 fp0 fp.dirPtr faRead faWrite faModified) cs ∧
          (openFil fs2 fp0 fp.dirPtr faRead faWrite faModified).content fs2 d' cs =
            fp.content fs d cs) ∨
      (r.1 = .diskErr ∨ r.1 = .invalidObject) ∧ MayFail ok) d := by
  refine always_mono ?_ (keeps_fClose hs ho hu he hfsi hmod)
  rintro ⟨res, fp', fs'⟩ d' ⟨-, ⟨hok, -, hstored⟩ | hfail⟩
  · refine .inl ⟨hok, ?_⟩
    intro fs2 hgeo hclean hcoh hsect fp0 faRead faWrite faModified
    have hw2 : fs2.WellFormed t := by
      rw [hgeo]
      exact hs.wellFormed
    exact hstored.opened hw2 hgeo hclean hcoh he hsect fp0 faRead faWrite faModified
  · exact .inr hfail

/-- The sample file has its entry in the root directory, behind the FATs. -/
theorem small_entryPlaced : EntryPlaced smallFs.toGeometry [2] smallFil.toFilOpen where
  inside := by decide
  behind := by decide
  valid := by decide
  away := by
    rintro ⟨c, -, hle, -⟩
    have hle' : (4 + 1 * (c - 2)) * 4096 ≤ 3 * 4096 := hle
    omega

/-- A volume of twelve-bit entries has no FSINFO sector. -/
theorem small_fsinfoPlaced : smallFs.FsinfoPlaced := fun h => nomatch h

/-- The sample file, closed and opened again. -/
theorem fClose_small :
    Ends AnyAnswer (fClose smallFs smallFil 0) (fun r d' =>
      (r.1 = .ok ∧ ∀ fs2 : Fatfs, fs2.toGeometry = smallFs.toGeometry → fs2.wflag = false →
        fs2.Coherent d' → fs2.winsect = 3 → ∀ fp0 faRead faWrite faModified,
          Opened fs2 d' (openFil fs2 fp0 0 faRead faWrite faModified) [2] ∧
          (openFil fs2 fp0 0 faRead faWrite faModified).content fs2 d' [2] =
            smallFil.content smallFs smallDisk [2]) ∨
      (r.1 = .diskErr ∨ r.1 = .invalidObject) ∧ MayFail AnyAnswer) smallDisk :=
  fClose_durable small_sound small_opened small_usable small_entryPlaced small_fsinfoPlaced rfl

end NucleoH743.Ff
