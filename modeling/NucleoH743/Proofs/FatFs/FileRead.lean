import NucleoH743.Proofs.FatFs.FileLayout

/-!
# `Proofs.FatFs.FileRead`: `f_read` reads the file

A round of `f_read` transfers sectors from the disk, with the dirty buffer put in its place, or a
part of the sector buffer. Either way it is a piece of the memory of the file.

A round transfers a piece that lies in one cluster and either begins at a sector or stays inside of
one. `ReadsOn` says what it leaves: the object is open on the same chain, the file holds what it
held, and the file pointer is behind the piece. The proof that the right bytes are transferred has
two sources: `Blocks.slice` of the clusters, for whole sectors, and the sector buffer. Where a read
of whole sectors covers a dirty sector of the buffer, `f_read` copies that sector over what came
from the disk.

The loop is an induction on the bytes that are left, and each round transfers at least one.

- `keeps_readRound`: one round.
- `keeps_fRead`: the bytes behind the file pointer are read, up to the end of the file.
-/

set_option autoImplicit false

namespace NucleoH743.Ff

open Diskio Mkfs Chains
open Prog (always_seq always_mono)

variable {ok : Answer → Prop} {t : FatType} {fs fs' : Fatfs} {d d' : Image} {fp : Fil}
  {cs : List Nat}

/-! ### The current cluster -/

/-- Inside a cluster it is the one of the byte in front. -/
theorem clust_inside (ho : Opened fs d fp cs) (h : fp.fptr.toNat % fs.bcs ≠ 0) :
    cs[fp.fptr.toNat / fs.bcs]? = some fp.clust.toNat := by
  have hpos : 0 < fp.fptr.toNat := by
    rcases Nat.eq_zero_or_pos fp.fptr.toNat with hzero | hpos
    · rw [hzero, Nat.zero_mod] at h
      exact absurd rfl h
    · exact hpos
  rw [← div_pred h]
  exact ho.clust hpos

/-- A position inside a sector is not at the border of a cluster. -/
theorem mod_bcs_ne {f : Nat} (h : f % 4096 ≠ 0) : f % fs.bcs ≠ 0 := by
  intro hzero
  have hdvd : 4096 ∣ f := (Nat.dvd_mul_left 4096 _).trans (Nat.dvd_of_mod_eq_zero hzero)
  exact h (Nat.mod_eq_zero_of_dvd hdvd)

/-- The first cluster of a chain is its head. -/
theorem getElem_zero (h : 0 < cs.length) : cs[0] = cs.headD 0 := by
  cases cs with
  | nil => exact absurd h (Nat.lt_irrefl 0)
  | cons c cs => rfl

/-- At the begin of a cluster, `f_read` follows the chain. At the first byte it is the first cluster
of the file, and inside of a cluster the current one. At the border between two it is what the FAT
has for the current one. -/
theorem keeps_readClust (hs : Sound t fs d) (ho : Opened fs d fp cs)
    (hsector : fp.fptr.toNat % 4096 = 0) (hin : fp.fptr.toNat < cs.length * fs.bcs) :
    Ends ok (readClust fs fp (csectOf fs.toGeometry fp)) (fun r d' => Looked fs d r.2 d' ∧
      ((∃ clst : UInt32, r.1 = .ok clst ∧ cs[fp.fptr.toNat / fs.bcs]? = some clst.toNat) ∨
        r.1 = .error .diskErr ∧ MayFail ok)) d := by
  have hw := hs.wellFormed
  have hofs := csectOf_mul hw fp hsector
  have hdiv : fp.fptr.toNat / fs.bcs < cs.length := Scatter.div_lt hin
  unfold readClust
  by_cases hcsect : csectOf fs.toGeometry fp = 0
  · rw [if_pos hcsect]
    have hmod : fp.fptr.toNat % fs.bcs = 0 := by
      rw [← hofs, hcsect]
      rfl
    by_cases htop : fp.fptr = 0
    · -- the first cluster
      rw [if_pos htop, Prog.pure_eq, Prog.ret_bind]
      dsimp only
      have hzero : fp.fptr.toNat / fs.bcs = 0 := by
        rw [htop]
        exact Nat.zero_div _
      have hpos : 0 < cs.length := by omega
      have hhead : cs[0] = fp.sclust.toNat := by
        rw [ho.head]
        exact getElem_zero hpos
      have hc : fs.Clst fp.sclust.toNat := by
        rw [← hhead]
        exact ho.chain.clst _ (List.getElem_mem hpos)
      have hlt := (clst_lt hw hc.2)
      have hne : fp.sclust ≠ 0xFFFFFFFF := by
        intro heq
        rw [heq] at hlt
        exact absurd hlt (by decide)
      have htwo : ¬ fp.sclust < 2 := by
        rw [UInt32.lt_iff_toNat_lt]
        exact Nat.not_lt.2 hc.1
      rw [if_neg htwo, if_neg hne]
      refine ⟨Looked.refl hs.coherent, .inl ⟨_, rfl, ?_⟩⟩
      rw [hzero, List.getElem?_eq_getElem hpos, hhead]
    · rw [if_neg htop]
      have hpos : 0 < fp.fptr.toNat := by
        have hne : fp.fptr.toNat ≠ 0 := fun h => htop (UInt32.toNat_inj.1 h)
        omega
      -- the last byte is in the cluster before
      have hprev := div_pred_of_mod hpos hw.bcs_pos hmod
      obtain ⟨hi, hget⟩ := List.getElem?_eq_some_iff.1 (ho.clust hpos)
      have hc : fs.Clst fp.clust.toNat := by
        rw [← hget]
        exact ho.chain.clst _ (List.getElem_mem hi)
      have hnext : fs.fat d fp.clust.toNat = cs[fp.fptr.toNat / fs.bcs] := by
        have hlink := ho.chain.linked.next_getElem hi (by omega)
        rw [hget] at hlink
        simp only [hprev] at hlink
        exact hlink
      have hcn := ho.chain.clst _ (List.getElem_mem hdiv)
      rw [← hnext] at hcn
      refine always_seq (keeps_getFat hw hs.coherent hc.1 hc.2) ?_
      rintro ⟨clst, fs1⟩ d1 ⟨hlooked, hclst⟩
      dsimp only at hlooked hclst ⊢
      rcases hclst with hclst | ⟨rfl, hfail⟩
      · have htwo : ¬ clst < 2 := by
          rw [UInt32.lt_iff_toNat_lt, hclst]
          exact Nat.not_lt.2 hcn.1
        rw [if_neg htwo, if_neg (ne_of_fat hw hclst)]
        refine ⟨hlooked, .inl ⟨clst, rfl, ?_⟩⟩
        rw [List.getElem?_eq_getElem hdiv, hclst, hnext]
      · rw [if_neg (by decide), if_pos rfl]
        exact ⟨hlooked, .inr ⟨rfl, hfail⟩⟩
  · rw [if_neg hcsect]
    refine ⟨Looked.refl hs.coherent, .inl ⟨_, rfl, clust_inside ho ?_⟩⟩
    rw [← hofs]
    have hne : (csectOf fs.toGeometry fp).toNat ≠ 0 := fun h => hcsect (UInt32.toNat_inj.1 h)
    omega

/-! ### Pieces of the file -/

/-- A part of the sector buffer is a piece of the file. The buffer shows the sector of this part, so
its bytes are those that are seen of the file. -/
theorem slice_buffer (hw : fs.WellFormed t) {m : Image} (hholds : WriteBack.Holds 4096 fp.buffer m)
    {f n : Nat} (hsect : sectAddr fp.sect = fs.fileAddr cs (f / 4096 * 4096))
    (hn : f % 4096 + n ≤ 4096) :
    Blocks.slice fp.buf (f % 4096) n =
      Blocks.slice (Scatter.gather fs.bcs (cs.map fs.clstAddr) (fp.view m)) f n := by
  refine Blocks.slice_congr _ _ fun i hi => ?_
  have hroom := sector_room hw f
  have hcell := hholds (f % 4096 + i) (by omega)
  have haddr : fs.fileAddr cs (f + i) = fp.buffer.addr + (f % 4096 + i) := by
    have hsplit : f + i = f / 4096 * 4096 + (f % 4096 + i) := by omega
    rw [hsplit, Geometry.fileAddr, Scatter.addr_add (by omega)]
    exact congrArg (· + (f % 4096 + i)) hsect.symm
  show fp.buf _ = fp.view m (fs.fileAddr cs (f + i))
  rw [haddr]
  exact hcell.symm

/-- The buffer is among `cc` sectors from `sect` on. -/
theorem sub_lt_iff {x sect cc : UInt32} (hend : sect.toNat + cc.toNat ≤ 2 ^ 32) :
    x - sect < cc ↔ sect.toNat ≤ x.toNat ∧ x.toNat < sect.toNat + cc.toNat := by
  have hx := x.toNat_lt
  rw [UInt32.lt_iff_toNat_lt, UInt32.toNat_sub]
  omega

/-- How far one sector lies behind another, in bytes, as the code computes it. Both are among the
sectors of one transfer, so nothing wraps. -/
theorem toNat_sub_mul {x sect : UInt32} (hle : sect.toNat ≤ x.toNat) {cc : Nat}
    (hlt : x.toNat < sect.toNat + cc) (hcc : cc ≤ 2 ^ 20) :
    ((x - sect) * ss).toNat = sectAddr x - sectAddr sect := by
  have hsub : (x - sect).toNat = x.toNat - sect.toNat :=
    UInt32.toNat_sub_of_le _ _ (UInt32.le_iff_toNat_le.2 hle)
  have hss : ss.toNat = 4096 := rfl
  rw [UInt32.toNat_mul, hsub, hss, Nat.mod_eq_of_lt (by omega)]
  exact Nat.sub_mul _ _ _

/-- The bytes of a piece of the file that lies in one cluster. -/
theorem inClsts_piece (hw : fs.WellFormed t) {sect : UInt32} {f n i : Nat}
    (hsect : sectAddr sect = fs.fileAddr cs f) (hin : f < cs.length * fs.bcs)
    (hroom : f % fs.bcs + n ≤ fs.bcs) (hi : i < n) : fs.InClsts cs (sectAddr sect + i) := by
  rw [hsect, Geometry.fileAddr, ← Scatter.addr_add (by omega)]
  refine fileAddr_mem hw ?_
  -- the cluster of `f` is one of the chain
  have hdiv := Scatter.div_lt hin
  have hsplit := Nat.mod_add_div f fs.bcs
  have hle : (f / fs.bcs + 1) * fs.bcs ≤ cs.length * fs.bcs := Nat.mul_le_mul_right _ hdiv
  rw [Nat.succ_mul, Nat.mul_comm] at hle
  omega

/-- Sectors of the clusters have numbers of 32 bits. -/
theorem sect_end (hw : fs.WellFormed t) (hcs : ∀ c ∈ cs, fs.Clst c) {sect cc : UInt32}
    (hin : ∀ i < cc.toNat * 4096, fs.InClsts cs (sectAddr sect + i)) :
    sect.toNat + cc.toNat ≤ 2 ^ 32 := by
  rcases Nat.eq_zero_or_pos cc.toNat with hzero | hpos
  · have hlt := sect.toNat_lt
    omega
  · obtain ⟨c, hc, -, hlt⟩ := hin (cc.toNat * 4096 - 1) (by omega)
    have hlast := Geometry.clstAddr_end hw (hcs c hc)
    unfold sectAddr at hlt
    omega

/-- Whole sectors inside a cluster, read from the disk. A sector among them that is in the buffer
and dirty is newer there than on the disk, and is copied over what was read. So the bytes are those
that are seen of the file. -/
theorem keeps_readDirect (hw : fs.WellFormed t) (hcs : ∀ c ∈ cs, fs.Clst c)
    (haway : fs.Away cs) (fp : Fil) (buff : Buf) (br : UInt32) {sect cc : UInt32} {f : Nat}
    (hsect : sectAddr sect = fs.fileAddr cs f)
    (hin : f < cs.length * fs.bcs) (hroom : f % fs.bcs + cc.toNat * 4096 ≤ fs.bcs)
    (hcc : cc.toNat < 2 ^ 20) :
    Ends ok (readDirect fp buff br sect cc) (fun r d' => d' = d ∧
      (r = (.done (ss * cc), Blocks.store buff br.toNat
          (Blocks.slice (fp.mem fs d cs) f (cc.toNat * 4096))) ∨
        r.1 = .abort .diskErr ∧ MayFail ok)) d := by
  have hbytes : ∀ i < cc.toNat * 4096, fs.InClsts cs (sectAddr sect + i) := fun i hi =>
    inClsts_piece hw hsect hin hroom hi
  have hend := sect_end hw hcs hbytes
  have hpiece : Blocks.slice (fp.view (fs.view d)) (sectAddr sect) (cc.toNat * 4096) =
      Blocks.slice (fp.mem fs d cs) f (cc.toNat * 4096) := by
    rw [hsect]
    exact Scatter.slice_gather hroom
  unfold readDirect
  refine ends_diskRead (n := cc.toNat * 4096) rfl ?_ ?_
  · dsimp only
    rw [if_neg (by decide)]
    refine ⟨rfl, .inl ?_⟩
    rw [← hpiece, slice_view haway hbytes]
    by_cases hdirty : fp.faDirty = true ∧ fp.sect - sect < cc
    · -- the buffer is newer than the disk
      obtain ⟨hd, hlt⟩ := hdirty
      rw [if_pos ⟨hd, hlt⟩]
      obtain ⟨hle, hlt⟩ := (sub_lt_iff hend).1 hlt
      rw [toNat_sub_mul hle hlt hcc.le]
      have haddr : fp.buffer.addr = sectAddr fp.sect := rfl
      have hbegin : sectAddr sect ≤ fp.buffer.addr := by
        rw [haddr]
        unfold sectAddr
        omega
      have hlast : fp.buffer.addr + 4096 ≤ sectAddr sect + cc.toNat * 4096 := by
        rw [haddr]
        unfold sectAddr
        omega
      exact congrArg _ (WriteBack.store_slice_view (m := fs.view d) hd buff br.toNat hbegin hlast)
    · -- the sector of the buffer is not read, or is clean
      rw [if_neg hdirty]
      have hout : fp.buffer.dirty = true → sectAddr sect + cc.toNat * 4096 ≤ fp.buffer.addr ∨
          fp.buffer.addr + 4096 ≤ sectAddr sect := by
        intro hd
        have hnot : ¬ (sect.toNat ≤ fp.sect.toNat ∧ fp.sect.toNat < sect.toNat + cc.toNat) :=
          fun h => hdirty ⟨hd, (sub_lt_iff hend).2 h⟩
        show _ ≤ sectAddr fp.sect ∨ sectAddr fp.sect + _ ≤ _
        unfold sectAddr
        omega
      have hslice := WriteBack.slice_view_outside (n := 4096) (m := fs.view d) hout
      rw [← hslice]
      rfl
  · intro data _ hfail
    dsimp only
    rw [if_pos (by decide)]
    exact ⟨rfl, .inr ⟨rfl, hfail⟩⟩

/-! ### A round -/

/-- What a round that reads `cnt` bytes leaves. -/
structure ReadsOn (t : FatType) (fs : Fatfs) (d : Image) (fp : Fil) (cs : List Nat) (cnt : UInt32)
    (fs' : Fatfs) (d' : Image) (fp' : Fil) : Prop where
  frame : Frame cs cs fs d fs' d'
  sound : Sound t fs' d'
  opened : Opened fs' d' { fp' with fptr := fp.fptr + cnt } cs
  mem : ∀ i < cs.length * fs.bcs, fp'.mem fs' d' cs i = fp.mem fs d cs i
  toOpen : fp'.toFilOpen = fp.toFilOpen
  info : fp'.toFilInfo = fp.toFilInfo
  fptr : fp'.fptr = fp.fptr
  count : fs'.freeClusters d' = fs.freeClusters d

/-- The file pointer behind a piece. -/
theorem toNat_fptr_add {cnt : UInt32} (h : fp.fptr.toNat + cnt.toNat ≤ fp.objsize.toNat) :
    (fp.fptr + cnt).toNat = fp.fptr.toNat + cnt.toNat := by
  have hsize := fp.objsize.toNat_lt
  rw [UInt32.toNat_add]
  omega

/-- A round that follows a look at the FAT. The look has changed nothing that the file depends
on. -/
theorem ReadsOn.of_looked (hw : fs.WellFormed t) (ho : Opened fs d fp cs)
    (h : Looked fs d fs' d') {cnt : UInt32} {fs'' : Fatfs} {d'' : Image} {fp'' : Fil}
    (hr : ReadsOn t fs' d' fp cs cnt fs'' d'' fp'') : ReadsOn t fs d fp cs cnt fs'' d'' fp'' where
  frame := (h.file hw ho.chain.clst).trans hr.frame
  sound := hr.sound
  opened := hr.opened
  mem := by
    intro i hi
    have hi' : i < cs.length * fs'.bcs := by
      rw [h.geometry]
      exact hi
    rw [hr.mem i hi', (ho.looked hw h).2 i hi]
  toOpen := hr.toOpen
  info := hr.info
  fptr := hr.fptr
  count := hr.count.trans (h.freeClusters hw)

/-- The piece lies in the current cluster, and the object sees what it saw. What is left to show for
each kind of piece is where the file pointer and the sector buffer are. -/
theorem readsOn_moved (hs : Sound t fs d) (ho : Opened fs d fp cs) (hown : OwnOnly cs fs d d')
    (fp' : Fil) (hopen : fp'.toFilOpen = fp.toFilOpen) (hinfo : fp'.toFilInfo = fp.toFilInfo)
    (hfptr : fp'.fptr = fp.fptr) (hview : fp'.view (fs.view d') = fp.view (fs.view d))
    {cnt : UInt32} (hpos : 0 < cnt.toNat)
    (hend : fp.fptr.toNat + cnt.toNat ≤ fp.objsize.toNat)
    (hroom : fp.fptr.toNat % fs.bcs + cnt.toNat ≤ fs.bcs)
    (hclust : cs[fp.fptr.toNat / fs.bcs]? = some fp'.clust.toNat)
    (hsect : (fp.fptr.toNat + cnt.toNat) % 4096 ≠ 0 →
      sectAddr fp'.sect = fs.fileAddr cs ((fp.fptr.toNat + cnt.toNat) / 4096 * 4096))
    (hshown : fp'.sect.toNat < fs.database.toNat ∨ fp'.Shows fs.toGeometry cs)
    (hdirty : fp'.faDirty = true → fp'.Shows fs.toGeometry cs)
    (hholds : fp'.Shows fs.toGeometry cs → WriteBack.Holds 4096 fp'.buffer (fs.view d')) :
    ReadsOn t fs d fp cs cnt fs d' fp' where
  frame := hown.frame hs.wellFormed ho.chain.clst
  sound := hown.sound hs
  opened := by
    have hadd := toNat_fptr_add hend
    have hsize : fp'.objsize = fp.objsize := congrArg FilInfo.objsize hinfo
    refine ho.moved hs.wellFormed hown (congrArg FilInfo.sclust hinfo) ?_ ?_ ?_ ?_ hshown hdirty
      hholds
    · dsimp only
      rw [hsize]
      exact ho.size
    · dsimp only
      rw [hadd, hsize]
      exact hend
    · intro _
      rw [hadd, div_add_pred hpos hroom]
      exact hclust
    · intro hne
      rw [hadd] at hne ⊢
      exact hsect hne
  mem := by
    intro i _
    unfold Fil.mem
    rw [hview]
  toOpen := hopen
  info := hinfo
  fptr := hfptr
  count := hown.freeClusters hs.wellFormed

/-- A part of the sector buffer that is extracted. The bytes of the buffer are those of the file,
from the place of the file pointer in its sector on. -/
theorem readsOn_copyOut (hs : Sound t fs d) (ho : Opened fs d fp cs) (hown : OwnOnly cs fs d d')
    (fp' : Fil) (hopen : fp'.toFilOpen = fp.toFilOpen) (hinfo : fp'.toFilInfo = fp.toFilInfo)
    (hfptr : fp'.fptr = fp.fptr) (hview : fp'.view (fs.view d') = fp.view (fs.view d))
    (hholds : WriteBack.Holds 4096 fp'.buffer (fs.view d'))
    (hclust : cs[fp.fptr.toNat / fs.bcs]? = some fp'.clust.toNat)
    (hsect : sectAddr fp'.sect = fs.fileAddr cs (fp.fptr.toNat / 4096 * 4096))
    (buff : Buf) {btr : UInt32} (br : UInt32) (hpos : 0 < btr.toNat)
    (hbtr : fp.fptr.toNat + btr.toNat ≤ fp.objsize.toNat) :
    ∃ cnt : UInt32, copyOut fp' buff btr br = (.done cnt, Blocks.store buff br.toNat
        (Blocks.slice (fp.mem fs d cs) fp.fptr.toNat cnt.toNat)) ∧
      0 < cnt.toNat ∧ cnt.toNat ≤ btr.toNat ∧ ReadsOn t fs d fp cs cnt fs d' fp' := by
  have hw := hs.wellFormed
  have hclip := toNat_clipSector fp' btr
  rw [hfptr] at hclip
  have hmod := Nat.mod_lt fp.fptr.toNat (by decide : 0 < 4096)
  have hin : fp.fptr.toNat / 4096 * 4096 < cs.length * fs.bcs := by
    have hsize := ho.size
    omega
  have hshows : fp'.Shows fs.toGeometry cs := by
    unfold Fil.Shows
    rw [hsect]
    exact fileAddr_mem hw hin
  refine ⟨clipSector fp' btr, ?_, by omega, by omega, ?_⟩
  · have hslice := slice_buffer (n := (clipSector fp' btr).toNat) hw hholds hsect (by omega)
    unfold copyOut
    dsimp only
    rw [toNat_mod_ss, hfptr, hslice, hview]
    rfl
  · refine readsOn_moved hs ho hown fp' hopen hinfo hfptr hview (by omega) (by omega)
      (mod_bcs_add hw (by omega)) hclust ?_ (.inr hshows) (fun _ => hshows) (fun _ => hholds)
    intro hne
    rw [hsect]
    have hsame : (fp.fptr.toNat + (clipSector fp' btr).toNat) / 4096 =
        fp.fptr.toNat / 4096 := by omega
    rw [hsame]

/-- What a round of `f_read` comes to. -/
def ReadsRound (ok : Answer → Prop) (t : FatType) (fs : Fatfs) (d : Image) (fp : Fil)
    (cs : List Nat) (buff : Buf) (btr br : UInt32) (r : Round) (buff' : Buf) (fp' : Fil)
    (fs' : Fatfs) (d' : Image) : Prop :=
  (∃ cnt : UInt32, r = .done cnt ∧ buff' = Blocks.store buff br.toNat
      (Blocks.slice (fp.mem fs d cs) fp.fptr.toNat cnt.toNat) ∧
    0 < cnt.toNat ∧ cnt.toNat ≤ btr.toNat ∧ ReadsOn t fs d fp cs cnt fs' d' fp') ∨
  r = .abort .diskErr ∧ MayFail ok ∧ Frame cs cs fs d fs' d'

/-- A round at the begin of a sector. Whole sectors are read at once if there are any, and else the
sector is loaded into the buffer. -/
theorem keeps_readAt (hs : Sound t fs d) (ho : Opened fs d fp cs) {clst : UInt32}
    (hsector : fp.fptr.toNat % 4096 = 0)
    (hclst : cs[fp.fptr.toNat / fs.bcs]? = some clst.toNat) (buff : Buf) {btr : UInt32}
    (br : UInt32) (hpos : 0 < btr.toNat)
    (hbtr : fp.fptr.toNat + btr.toNat ≤ fp.objsize.toNat) :
    Ends ok (readAt fs.toGeometry { fp with clust := clst } buff btr br (csectOf fs.toGeometry fp))
      (fun r d' => ReadsRound ok t fs d fp cs buff btr br r.1 r.2.1 r.2.2 fs d') d := by
  have hw := hs.wellFormed
  have hin : fp.fptr.toNat < cs.length * fs.bcs := by
    have hsize := ho.size
    omega
  have hc : fs.Clst clst.toNat := by
    obtain ⟨hi, hget⟩ := List.getElem?_eq_some_iff.1 hclst
    rw [← hget]
    exact ho.chain.clst _ (List.getElem_mem hi)
  have hcur := sectAddr_current ho hw hsector hclst
  have hsize := btr.toNat_lt
  have hzero : (0 : UInt32).toNat = 0 := rfl
  unfold readAt
  rw [if_neg (clst2sect_ne_zero hw hc)]
  dsimp only
  generalize clst2sect fs.toGeometry clst + csectOf fs.toGeometry fp = sect at hcur ⊢
  have hccnat : (btr / ss).toNat = btr.toNat / 4096 := UInt32.toNat_div _ _
  by_cases hcc : 0 < btr / ss
  · -- whole sectors
    rw [if_pos hcc]
    have hccpos := UInt32.lt_iff_toNat_lt.1 hcc
    have hcsect := toNat_csectOf hw fp
    have hofs := csectOf_mul hw fp hsector
    have hlt := Nat.mod_lt (fp.fptr.toNat / 4096) hw.csize_pos
    have hclip := toNat_clip fs.toGeometry (csectOf fs.toGeometry fp) (btr / ss) (by omega)
      (by omega)
    generalize clip fs.toGeometry (csectOf fs.toGeometry fp) (btr / ss) = cc at hclip ⊢
    have hroom : fp.fptr.toNat % fs.bcs + cc.toNat * 4096 ≤ fs.bcs := by
      rw [← hofs]
      unfold Geometry.bcs
      omega
    have hbytes : (ss * cc).toNat = cc.toNat * 4096 := by
      have hss : ss.toNat = 4096 := rfl
      rw [UInt32.toNat_mul, hss, Nat.mod_eq_of_lt (by omega), Nat.mul_comm]
    refine always_seq (keeps_readDirect hw ho.chain.clst ho.away { fp with clust := clst } buff br
      hcur hin hroom (by omega)) ?_
    rintro ⟨r, buff'⟩ d' ⟨rfl, hres⟩
    dsimp only at hres ⊢
    rcases hres with heq | ⟨rfl, hfail⟩
    · obtain ⟨rfl, rfl⟩ := Prod.mk.inj heq
      refine .inl ⟨_, rfl, ?_, by omega, by omega, ?_⟩
      · rw [hbytes]
        rfl
      · refine readsOn_moved hs ho (OwnOnly.refl hs.coherent) { fp with clust := clst } rfl rfl rfl
          rfl (by omega) (by omega) (by rw [hbytes]; exact hroom) hclst ?_ ho.shown ho.dirty
          ho.holds
        intro hne
        omega
    · exact .inr ⟨rfl, hfail, Frame.refl hs.coherent ho.chain.clst⟩
  · -- a part of the sector, by the buffer
    rw [if_neg hcc]
    have hsect : fs.InClsts cs (sectAddr sect) := by
      rw [hcur]
      exact fileAddr_mem hw hin
    refine always_seq (keeps_loadSector { fp with clust := clst } hs.coherent ho.away
      ho.dirty ho.holds hsect) ?_
    rintro ⟨res, fp'⟩ d' ⟨hown, hres⟩
    dsimp only at hres ⊢
    rcases hres with ⟨rfl, hview, hholds, hfp⟩ | ⟨rfl, hfail⟩
    · rw [if_neg (by decide)]
      have hsame : fp.fptr.toNat / 4096 * 4096 = fp.fptr.toNat := by omega
      obtain ⟨cnt, hcopy, hcpos, hle, hreads⟩ := readsOn_copyOut hs ho hown fp' (by rw [hfp])
        (by rw [hfp]) (by rw [hfp]) hview hholds (by rw [hfp]; exact hclst)
        (by rw [hsame, ← hcur, hfp]) buff br hpos hbtr
      rw [hcopy]
      exact .inl ⟨cnt, rfl, rfl, hcpos, hle, hreads⟩
    · rw [if_pos (by decide)]
      exact .inr ⟨rfl, hfail, hown.frame hw ho.chain.clst⟩

/-- One round of the loop of `f_read`. At the begin of a cluster the chain is followed first, which
is a look at the FAT; in the middle of a sector the buffer shows it already. -/
theorem keeps_readRound (hs : Sound t fs d) (ho : Opened fs d fp cs) (buff : Buf)
    {btr : UInt32} (br : UInt32) (hpos : 0 < btr.toNat)
    (hbtr : fp.fptr.toNat + btr.toNat ≤ fp.objsize.toNat) :
    Ends ok (readRound fs fp buff btr br)
      (fun r d' => ReadsRound ok t fs d fp cs buff btr br r.1 r.2.1 r.2.2.1 r.2.2.2 d') d := by
  have hw := hs.wellFormed
  have hin : fp.fptr.toNat < cs.length * fs.bcs := by
    have hsize := ho.size
    omega
  unfold readRound
  by_cases hsector : fp.fptr % ss = 0
  · rw [if_pos hsector]
    have hnat := (mod_ss_eq_zero _).1 hsector
    refine always_seq (keeps_readClust hs ho hnat hin) ?_
    rintro ⟨r, fs1⟩ d1 ⟨hlooked, ⟨clst, rfl, hclst⟩ | ⟨rfl, hfail⟩⟩
    · dsimp only at hlooked ⊢
      obtain ⟨ho1, hmem1⟩ := ho.looked hw hlooked
      have hframe := hlooked.file hw ho.chain.clst
      rw [← hlooked.geometry] at hclst ⊢
      refine always_seq (keeps_readAt (hs.looked hlooked) ho1 hnat hclst buff br hpos hbtr) ?_
      rintro ⟨r, buff', fp'⟩ d' (⟨cnt, rfl, rfl, hcpos, hle, hreads⟩ | ⟨rfl, hfail, hframe'⟩)
      · refine .inl ⟨cnt, rfl, ?_, hcpos, hle, hreads.of_looked hw ho hlooked⟩
        dsimp only
        have hpiece : Blocks.slice (fp.mem fs1 d1 cs) fp.fptr.toNat cnt.toNat =
            Blocks.slice (fp.mem fs d cs) fp.fptr.toNat cnt.toNat := by
          refine Blocks.slice_congr _ _ fun i hi => hmem1 _ ?_
          have hsize := ho.size
          omega
        rw [hpiece]
      · exact .inr ⟨rfl, hfail, hframe.trans hframe'⟩
    · exact .inr ⟨rfl, hfail, hlooked.file hw ho.chain.clst⟩
  · rw [if_neg hsector]
    have hnat : fp.fptr.toNat % 4096 ≠ 0 := fun h => hsector ((mod_ss_eq_zero _).2 h)
    have hsect := ho.sect hnat
    have hshows : fp.Shows fs.toGeometry cs := by
      unfold Fil.Shows
      rw [hsect]
      refine fileAddr_mem hw ?_
      omega
    obtain ⟨cnt, hcopy, hcpos, hle, hreads⟩ := readsOn_copyOut hs ho (OwnOnly.refl hs.coherent)
      fp rfl rfl rfl rfl (ho.holds hshows) (clust_inside ho (mod_bcs_ne hnat)) hsect buff br hpos
      hbtr
    rw [hcopy]
    exact .inl ⟨cnt, rfl, rfl, hcpos, hle, hreads⟩

/-! ### The loop -/

/-- What `n` bytes that have been read leave. -/
structure Reads (t : FatType) (fs : Fatfs) (d : Image) (fp : Fil) (cs : List Nat) (n : Nat)
    (fs' : Fatfs) (d' : Image) (fp' : Fil) : Prop where
  frame : Frame cs cs fs d fs' d'
  sound : Sound t fs' d'
  opened : Opened fs' d' fp' cs
  mem : ∀ i < cs.length * fs.bcs, fp'.mem fs' d' cs i = fp.mem fs d cs i
  toOpen : fp'.toFilOpen = fp.toFilOpen
  info : fp'.toFilInfo = fp.toFilInfo
  fptr : fp'.fptr.toNat = fp.fptr.toNat + n
  count : fs'.freeClusters d' = fs.freeClusters d

/-- A read of nothing has read nothing. -/
theorem Reads.refl (hs : Sound t fs d) (ho : Opened fs d fp cs) : Reads t fs d fp cs 0 fs d fp :=
  ⟨Frame.refl hs.coherent ho.chain.clst, hs, ho, fun _ _ => rfl, rfl, rfl, rfl, rfl⟩

/-- Two reads, one behind the other, are one of both lengths. The second starts at the file pointer
that the first has left, and neither changes the file. -/
theorem Reads.trans {fs'' : Fatfs} {d'' : Image} {fp' fp'' : Fil} {m n : Nat}
    (h : Reads t fs d fp cs m fs' d' fp') (h' : Reads t fs' d' fp' cs n fs'' d'' fp'') :
    Reads t fs d fp cs (m + n) fs'' d'' fp'' where
  frame := h.frame.trans h'.frame
  sound := h'.sound
  opened := h'.opened
  mem := by
    intro i hi
    have hi' : i < cs.length * fs'.bcs := by
      rw [h.frame.geometry]
      exact hi
    rw [h'.mem i hi', h.mem i hi]
  toOpen := h'.toOpen.trans h.toOpen
  info := h'.info.trans h.info
  fptr := by
    have hm := h.fptr
    have hn := h'.fptr
    omega
  count := h'.count.trans h.count

/-- A round. -/
theorem ReadsOn.reads {cnt : UInt32} {fp' : Fil}
    (hend : fp.fptr.toNat + cnt.toNat ≤ fp.objsize.toNat)
    (h : ReadsOn t fs d fp cs cnt fs' d' fp') :
    Reads t fs d fp cs cnt.toNat fs' d' { fp' with fptr := fp'.fptr + cnt } := by
  rw [h.fptr]
  exact ⟨h.frame, h.sound, h.opened, h.mem, h.toOpen, h.info, toNat_fptr_add hend, h.count⟩

/-- A piece of the file is what it was. -/
theorem Reads.slice_mem {fp' : Fil} {m : Nat} (ho : Opened fs d fp cs)
    (h : Reads t fs d fp cs m fs' d' fp') {f n : Nat} (hn : f + n ≤ fp.objsize.toNat) :
    Blocks.slice (fp'.mem fs' d' cs) f n = Blocks.slice (fp.mem fs d cs) f n := by
  refine Blocks.slice_congr _ _ fun i hi => h.mem _ ?_
  have hsize := ho.size
  omega

/-- The loop of `f_read` ends after `btr` bytes, unless the drive fails. By induction on the rounds,
of which each reads a byte at least. -/
theorem keeps_readLoop {fuel : Nat} (hs : Sound t fs d) (ho : Opened fs d fp cs) (buff : Buf)
    (btr br : UInt32) (hfuel : btr.toNat ≤ fuel)
    (hbtr : fp.fptr.toNat + btr.toNat ≤ fp.objsize.toNat)
    (hbr : br.toNat + btr.toNat < 2 ^ 32) :
    Ends ok (readLoop fuel fs fp buff btr br) (fun r d' =>
      r.1 = .ok ∧ r.2.1.toNat = br.toNat + btr.toNat ∧
          r.2.2.1 = Blocks.store buff br.toNat
            (Blocks.slice (fp.mem fs d cs) fp.fptr.toNat btr.toNat) ∧
          Reads t fs d fp cs btr.toNat r.2.2.2.2 d' r.2.2.2.1 ∨
        r.1 = .diskErr ∧ MayFail ok ∧ Frame cs cs fs d r.2.2.2.2 d') d := by
  induction fuel generalizing fs d fp buff btr br with
  | zero =>
    have hzero : btr.toNat = 0 := by omega
    rw [hzero]
    exact .inl ⟨rfl, rfl, (Blocks.store_nil _ _).symm, Reads.refl hs ho⟩
  | succ fuel ih =>
    rw [readLoop]
    by_cases hend : btr = 0
    · subst hend
      rw [if_pos rfl]
      exact .inl ⟨rfl, rfl, (Blocks.store_nil _ _).symm, Reads.refl hs ho⟩
    · have hpos : 0 < btr.toNat := by
        have hne : btr.toNat ≠ 0 := fun h => hend (UInt32.toNat_inj.1 h)
        omega
      rw [if_neg hend]
      refine always_seq (keeps_readRound hs ho buff br hpos hbtr) ?_
      rintro ⟨r, buff', fp', fs'⟩ d' (⟨cnt, rfl, rfl, hcpos, hle, hreads⟩ |
        ⟨rfl, hfail, hframe⟩)
      · dsimp only at hreads ⊢
        have hround := hreads.reads (by omega)
        have hsub : (btr - cnt).toNat = btr.toNat - cnt.toNat :=
          UInt32.toNat_sub_of_le _ _ (UInt32.le_iff_toNat_le.2 hle)
        have hadd : (br + cnt).toNat = br.toNat + cnt.toNat := by
          rw [UInt32.toNat_add]
          omega
        have hinfo : fp'.objsize = fp.objsize := congrArg FilInfo.objsize hreads.info
        have hfptr := hround.fptr
        dsimp only at hfptr
        -- the rest of the bytes
        have hrest := ih hround.sound hround.opened
          (Blocks.store buff br.toNat (Blocks.slice (fp.mem fs d cs) fp.fptr.toNat cnt.toNat))
          (btr - cnt) (br + cnt) (by omega) (by dsimp only; rw [hinfo]; omega) (by omega)
        refine always_mono ?_ hrest
        rintro ⟨res, br', buff', fp'', fs''⟩ d'' (⟨rfl, hbr', hbuff, hrest⟩ |
          ⟨rfl, hfail, hframe⟩)
        · dsimp only at hbr' hbuff hrest ⊢
          have htotal : cnt.toNat + (btr - cnt).toNat = btr.toNat := by omega
          have hall := hround.trans hrest
          rw [htotal] at hall
          refine .inl ⟨rfl, by omega, ?_, hall⟩
          rw [hround.slice_mem ho (by omega)] at hbuff
          have hlen : (Blocks.slice (fp.mem fs d cs) fp.fptr.toNat cnt.toNat).length = cnt.toNat :=
            Blocks.length_slice _ _ _
          rw [hbuff, hadd, ← htotal, Blocks.slice_add, Blocks.store_append, hlen, hfptr]
        · exact .inr ⟨rfl, hfail, hround.frame.trans hframe⟩
      · exact .inr ⟨rfl, hfail, hframe⟩

/-! ### The call -/

/-- A file object that passes `validate`, without an error. -/
structure Usable (fs : Fatfs) (fp : Fil) : Prop where
  hasFs : fp.hasFs = true
  id : fp.id = fs.id
  err : fp.err = .ok

/-- `validate` asks the drive for its status only, and fails where the drive does. -/
theorem keeps_validate (hw : fs.WellFormed t) (hu : Usable fs fp) :
    Ends ok (validate fs fp) (fun res d' => d' = d ∧
      (res = .ok ∨ res = .invalidObject ∧ MayFail ok)) d := by
  unfold validate
  rw [if_pos ⟨hu.hasFs, by rw [hw.fsType]; simp, hu.id⟩]
  rintro (_ | junk) hok
  · exact ⟨rfl, .inl rfl⟩
  · exact ⟨rfl, .inr ⟨rfl, junk, hok⟩⟩

/-- A file that is not open for reading. -/
theorem denied_fRead (hw : fs.WellFormed t) (hu : Usable fs fp) (hread : ¬ fp.faRead = true)
    (buff : Buf) (btr : UInt32) :
    Ends ok (fRead fs fp buff btr) (fun r d' => d' = d ∧
      (r = (.denied, 0, buff, fp, fs) ∨ r = (.invalidObject, 0, buff, fp, fs) ∧ MayFail ok)) d := by
  unfold fRead
  refine always_seq (keeps_validate hw hu) ?_
  rintro res d' ⟨rfl, rfl | ⟨rfl, hfail⟩⟩
  · rw [if_neg (by decide), if_neg (by simp [hu.err]), if_pos hread]
    exact ⟨rfl, .inl rfl⟩
  · rw [if_pos (by decide)]
    exact ⟨rfl, .inr ⟨rfl, hfail⟩⟩

/-- A piece of the content. -/
theorem slice_content (f n : Nat) :
    Blocks.slice (fp.mem fs d cs) f (min n (fp.objsize.toNat - f)) =
      ((fp.content fs d cs).drop f).take n := by
  refine List.ext_getElem ?_ fun i hi hi' => ?_
  · simp [Fil.content]
  · rw [Blocks.getElem_slice, List.getElem_take, List.getElem_drop]
    unfold Fil.content
    rw [Blocks.getElem_slice, Nat.zero_add]

/-- `f_read` puts the bytes behind the file pointer into the buffer, as many as there are, and
leaves the file, the other files and the rest of the buffer. The count is cut at the end of the file
before the loop. -/
theorem keeps_fRead (hs : Sound t fs d) (ho : Opened fs d fp cs) (hu : Usable fs fp)
    (hread : fp.faRead = true) (buff : Buf) (btr : UInt32) :
    Ends ok (fRead fs fp buff btr) (fun r d' => Frame cs cs fs d r.2.2.2.2 d' ∧
      (r.1 = .ok ∧ r.2.1.toNat = min btr.toNat (fp.objsize.toNat - fp.fptr.toNat) ∧
          r.2.2.1 = Blocks.store buff 0
            (((fp.content fs d cs).drop fp.fptr.toNat).take btr.toNat) ∧
          Reads t fs d fp cs r.2.1.toNat r.2.2.2.2 d' r.2.2.2.1 ∨
        (r.1 = .diskErr ∨ r.1 = .invalidObject) ∧ MayFail ok)) d := by
  have hframe := Frame.refl hs.coherent ho.chain.clst
  have hptr := ho.ptr
  unfold fRead
  refine always_seq (keeps_validate hs.wellFormed hu) ?_
  rintro res d' ⟨rfl, rfl | ⟨rfl, hfail⟩⟩
  · rw [if_neg (by decide), if_neg (by simp [hu.err]), if_neg (by simp [hread])]
    dsimp only
    -- `btr` is clipped at the end of the file
    have hsub : (fp.objsize - fp.fptr).toNat = fp.objsize.toNat - fp.fptr.toNat :=
      UInt32.toNat_sub_of_le _ _ (UInt32.le_iff_toNat_le.2 hptr)
    have hmin : (if fp.objsize - fp.fptr < btr then fp.objsize - fp.fptr else btr).toNat =
        min btr.toNat (fp.objsize.toNat - fp.fptr.toNat) := by
      by_cases hlt : fp.objsize - fp.fptr < btr
      · have hnat := UInt32.lt_iff_toNat_lt.1 hlt
        rw [if_pos hlt]
        omega
      · have hnat := mt UInt32.lt_iff_toNat_lt.2 hlt
        rw [if_neg hlt]
        omega
    generalize (if fp.objsize - fp.fptr < btr then fp.objsize - fp.fptr else btr) = n at hmin ⊢
    have hn := n.toNat_lt
    have hzero : (0 : UInt32).toNat = 0 := rfl
    refine always_mono ?_ (keeps_readLoop hs ho buff n 0 (Nat.le_refl _) (by omega) (by omega))
    rintro ⟨res, br, buff', fp', fs'⟩ d' (⟨rfl, hbr, hbuff, hreads⟩ | ⟨rfl, hfail, hframe'⟩)
    · dsimp only at hbr hbuff hreads ⊢
      rw [hzero, Nat.zero_add] at hbr
      rw [hmin, slice_content] at hbuff
      refine ⟨hreads.frame, .inl ⟨rfl, by rw [hbr, hmin], hbuff, ?_⟩⟩
      rw [hbr]
      exact hreads
    · exact ⟨hframe', .inr ⟨.inl rfl, hfail⟩⟩
  · rw [if_pos (by decide)]
    exact ⟨hframe, .inr ⟨.inr rfl, hfail⟩⟩

/-- `f_read` transfers the bytes behind the file pointer, as many as are asked for and there are,
whatever mixture of sectors, of parts of them and of clusters they are. The rest of the buffer, the
file and the other files stay, those even when the drive fails. -/
theorem fRead_reads (hs : Sound t fs d) (ho : Opened fs d fp cs) (hu : Usable fs fp)
    (hread : fp.faRead = true) (buff : Buf) (btr : UInt32) :
    Ends ok (fRead fs fp buff btr) (fun r d' => OthersKept cs fs d r.2.2.2.2 d' ∧
      ((r.1 = .ok ∧ r.2.1.toNat = min btr.toNat (fp.objsize.toNat - fp.fptr.toNat) ∧
          r.2.2.1 = Blocks.store buff 0
            (((fp.content fs d cs).drop fp.fptr.toNat).take btr.toNat) ∧
          Sound t r.2.2.2.2 d' ∧ Opened r.2.2.2.2 d' r.2.2.2.1 cs ∧
          r.2.2.2.1.content r.2.2.2.2 d' cs = fp.content fs d cs ∧
          r.2.2.2.1.fptr.toNat = fp.fptr.toNat + r.2.1.toNat) ∨
        (r.1 = .diskErr ∨ r.1 = .invalidObject) ∧ MayFail ok)) d := by
  refine always_mono ?_ (keeps_fRead hs ho hu hread buff btr)
  rintro ⟨res, br, buff', fp', fs'⟩ d' ⟨hframe, ⟨hok, hbr, hbuff, hr⟩ | hfail⟩
  · have hcontent := content_congr ho (congrArg FilInfo.objsize hr.info) hr.mem
    exact ⟨hframe.othersKept hs.wellFormed,
      .inl ⟨hok, hbr, hbuff, hr.sound, hr.opened, hcontent, hr.fptr⟩⟩
  · exact ⟨hframe.othersKept hs.wellFormed, .inr hfail⟩

/-- The sample file belongs to the small volume. -/
theorem small_usable : Usable smallFs smallFil := ⟨rfl, rfl, rfl⟩

/-- Seven bytes asked of a file of five. -/
theorem fRead_small :
    Ends AnyAnswer (fRead smallFs smallFil (fun _ => 1) 7) (fun r d' =>
      OthersKept [2] smallFs smallDisk r.2.2.2.2 d' ∧
      ((r.1 = .ok ∧ r.2.1.toNat = min 7 (5 - 0) ∧
          r.2.2.1 = Blocks.store (fun _ => 1) 0
            (((smallFil.content smallFs smallDisk [2]).drop 0).take 7) ∧
          Sound .fat12 r.2.2.2.2 d' ∧ Opened r.2.2.2.2 d' r.2.2.2.1 [2] ∧
          r.2.2.2.1.content r.2.2.2.2 d' [2] = smallFil.content smallFs smallDisk [2] ∧
          r.2.2.2.1.fptr.toNat = 0 + r.2.1.toNat) ∨
        (r.1 = .diskErr ∨ r.1 = .invalidObject) ∧ MayFail AnyAnswer)) smallDisk :=
  fRead_reads small_sound small_opened small_usable rfl (fun _ => 1) 7

end NucleoH743.Ff
