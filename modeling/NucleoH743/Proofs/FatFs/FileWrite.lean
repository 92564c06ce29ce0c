import NucleoH743.Proofs.FatFs.FileRead

/-!
# `Proofs.FatFs.FileWrite`: `f_write` writes the file

A round of `f_write` has a cluster for the file pointer, which `create_chain` finds at the end of
the chain, and puts a piece of the data there, on the disk or in the sector buffer.

`create_chain` for the cluster at the file pointer has two results beside an error: it follows the
chain, or it makes the chain longer by a cluster that was free (`Stretched.grown`). The chain of the
file grows before anything is written in the new cluster, so the file has clusters that hold no byte
of its content in between, which `Opened` allows.

A piece is written in one of two ways. Whole sectors go to the drive, past the sector buffer, and
where the buffer shows one of them its copy is replaced. A part of a sector goes to the buffer,
which is loaded before, unless the piece is at the end of the file and the sector has nothing to be
kept.

`WritesOn` collects what a round leaves, and the loop adds the rounds up. It ends early only if
`create_chain` finds no cluster, and then the volume is full.

- `keeps_writeClust`: the chain reaches the file pointer, or the volume is full.
- `keeps_writeRound`: one round.
- `keeps_fWrite`: the data is in the file from the file pointer on, as far as there is room.
-/

set_option autoImplicit false

namespace NucleoH743.Ff

open Diskio Mkfs Chains
open Prog (always_seq always_mono)

variable {ok : Answer → Prop} {t : FatType} {fs fs' : Fatfs} {d d' : Image} {fp : Fil}
  {cs : List Nat}

/-! ### A chain that grows -/

/-- The clusters of a chain do not overlap. -/
theorem Chain.apart (h : Chain fs d cs) : Scatter.Apart fs.bcs (cs.map fs.clstAddr) := by
  refine List.pairwise_map.2 (h.nodup.imp_of_mem ?_)
  intro a b ha hb hne
  exact Geometry.clstAddr_apart (h.clst a ha).1 (h.clst b hb).1 hne

/-- Nothing has been written, but the chain of the file has become `cs'`. -/
structure Grown (t : FatType) (fs : Fatfs) (d : Image) (fp : Fil) (cs : List Nat) (sclust : UInt32)
    (fs' : Fatfs) (d' : Image) (cs' : List Nat) : Prop where
  frame : Frame cs cs' fs d fs' d'
  sound : Sound t fs' d'
  opened : Opened fs' d' { fp with sclust := sclust } cs'
  mem : ∀ i < cs.length * fs.bcs, fp.mem fs' d' cs' i = fp.mem fs d cs i
  count : fs'.freeClusters d' + cs'.length = fs.freeClusters d + cs.length

/-- A look at the FAT does not change the chain. -/
theorem Looked.grown (hs : Sound t fs d) (ho : Opened fs d fp cs) (h : Looked fs d fs' d') :
    Grown t fs d fp cs fp.sclust fs' d' cs where
  frame := (h.frame hs.wellFormed []).file (fun _ hc => absurd hc List.not_mem_nil) ho.chain.clst
  sound := hs.looked h
  opened := (ho.looked hs.wellFormed h).1
  mem := (ho.looked hs.wellFormed h).2
  count := by rw [h.freeClusters hs.wellFormed]

variable {clst ncl : UInt32}

/-- A new cluster at the end of the chain. The bytes that the file has stay where they are, those of
the new cluster come behind them. The buffer shows the same sector as before, and no sector of
another file. -/
theorem Stretched.grown (hs : Sound t fs d) (ho : Opened fs d fp cs)
    (h : Stretched t fs d clst ncl fs' d') (hend : EndOf cs clst) :
    Grown t fs d fp cs (if fp.sclust = 0 then ncl else fp.sclust) fs' d' (cs ++ [ncl.toNat]) := by
  have hw := hs.wellFormed
  have hgeo := h.geometry
  have hchain := h.chain hw ho.chain hend
  -- the data of the old clusters lies outside the FAT, all that has changed
  have hbytes : ∀ a, fs.InClsts cs a → fs'.view d' a = fs.view d a := fun a ha =>
    h.outside a (hw.not_inFats ha)
  have hmap : (cs ++ [ncl.toNat]).map fs.clstAddr =
      cs.map fs.clstAddr ++ [fs.clstAddr ncl.toNat] := by simp
  -- and an old byte keeps its place, since the new cluster is the last one
  have haddr : ∀ i < cs.length * fs.bcs, fs.fileAddr (cs ++ [ncl.toNat]) i = fs.fileAddr cs i := by
    intro i hi
    unfold Geometry.fileAddr
    rw [hmap]
    exact Scatter.addr_append (by rwa [List.length_map])
  have hsize := ho.size
  have hptr := ho.ptr
  constructor
  case frame =>
    refine ⟨hgeo, h.id, h.coherent, List.subset_append_left _ _, ?_, ?_, ?_, ?_, h.placed⟩
    · intro c hc
      have hclst : fs'.Clst = fs.Clst := congrArg Geometry.Clst hgeo
      rw [← hclst]
      exact hchain.clst c hc
    · intro c hc
      rcases List.mem_append.1 hc with hmem | hmem
      · exact .inl hmem
      · rw [List.mem_singleton.1 hmem]
        exact .inr h.free
    · intro c hc hout hused
      refine h.others c hc ?_ ?_
      · rintro rfl
        exact hused h.free
      · rintro rfl
        rcases hend with ⟨rfl, -⟩ | ⟨-, init, rfl⟩
        · exact absurd hc.1 (by decide)
        · exact hout (List.mem_append_right _ (List.mem_singleton.2 rfl))
    · intro a ha _
      exact h.outside a ha
  case sound => exact h.sound
  case mem =>
    intro i hi
    unfold Fil.mem
    rw [hgeo, hmap, Scatter.gather_append (by rwa [List.length_map])]
    exact view_congr (hbytes _ (fileAddr_mem hw hi))
  case count =>
    have hcount := h.count
    rw [List.length_append, List.length_singleton]
    omega
  case opened =>
    have hmono : ∀ a, fs.InClsts cs a → fs.InClsts (cs ++ [ncl.toNat]) a := fun a ha =>
      ha.mono (List.subset_append_left _ _)
    constructor
    case chain => exact hchain
    case head =>
      have hhead := ho.head
      -- a first cluster is the file's start cluster from now on
      rcases hend with ⟨-, rfl⟩ | ⟨-, init, rfl⟩
      · have hzero : fp.sclust = 0 := UInt32.toNat_inj.1 hhead
        dsimp only
        rw [if_pos hzero]
        rfl
      · have hne : fp.sclust ≠ 0 := by
          intro hzero
          rw [hzero] at hhead
          have hpos : 0 < (init ++ [clst.toNat]).length := by simp
          have hc := ho.chain.clst _ (List.getElem_mem hpos)
          rw [getElem_zero hpos, ← hhead] at hc
          exact absurd hc.1 (by decide)
        dsimp only
        rw [if_neg hne, hhead]
        cases init <;> rfl
    case size =>
      rw [hgeo, List.length_append, List.length_singleton, Nat.succ_mul]
      exact Nat.le_trans hsize (Nat.le_add_right _ _)
    case ptr => exact hptr
    case clust =>
      rw [hgeo]
      intro hpos
      have hclust := ho.clust hpos
      obtain ⟨hi, -⟩ := List.getElem?_eq_some_iff.1 hclust
      rw [List.getElem?_append_left hi]
      exact hclust
    case sect =>
      rw [hgeo]
      intro hne
      dsimp only at hne ⊢
      rw [haddr _ (by omega)]
      exact ho.sect hne
    case shown =>
      rw [hgeo]
      rcases ho.shown with hlt | hshows
      · exact .inl hlt
      · exact .inr (hmono _ hshows)
    case dirty =>
      rw [hgeo]
      exact fun hd => hmono _ (ho.dirty hd)
    case holds =>
      rw [hgeo]
      intro hshows i hi
      rcases ho.shown with hlt | hold
      · -- a buffer that shows nothing
        obtain ⟨c, -, hle, -⟩ := hshows
        unfold Geometry.clstAddr sectAddr at hle
        dsimp only at hle
        omega
      · exact (view_congr (hbytes _ (hold.byte hi))).trans (ho.holds hold i hi)
    case away =>
      unfold Fatfs.Away
      rw [hgeo]
      rintro ⟨c, -, hle, -⟩
      have hwin := h.window
      unfold Geometry.clstAddr sectAddr at hle
      omega

/-! ### The current cluster -/

/-- What `writeClust` comes to. -/
def WritesClust (ok : Answer → Prop) (t : FatType) (fs : Fatfs) (d : Image) (fp : Fil)
    (cs : List Nat) (r : Option Round × Fil × Fatfs) (d' : Image) : Prop :=
  (∃ (cs' : List Nat) (sclust clst : UInt32), r.1 = none ∧
    r.2.1 = { fp with sclust := sclust, clust := clst } ∧
    Grown t fs d fp cs sclust r.2.2 d' cs' ∧
    cs'[fp.fptr.toNat / fs.bcs]? = some clst.toNat) ∨
  (r.1 = some .full ∧ r.2.1 = fp ∧ Looked fs d r.2.2 d' ∧ fs.freeClusters d = 0 ∧
    fp.fptr.toNat = cs.length * fs.bcs) ∨
  r.1 = some (.abort .diskErr) ∧ MayFail ok ∧ r.2.1 = fp ∧ Frame cs cs fs d r.2.2 d'

/-- A cluster is no code of `create_chain`. -/
theorem clst_ne_code (hw : fs.WellFormed t) (hc : fs.Clst clst.toNat) :
    clst ≠ 0 ∧ clst ≠ 1 ∧ clst ≠ 0xFFFFFFFF := by
  have hlt := clst_lt hw hc.2
  have htwo := hc.1
  refine ⟨?_, ?_, ?_⟩
  · rintro rfl
    exact absurd htwo (by decide)
  · rintro rfl
    exact absurd htwo (by decide)
  · rintro rfl
    exact absurd hlt (by decide)

/-- The end of `writeClust` with a cluster. The number is none of those that stand for a full volume
or an error. -/
theorem writesClust_of_clst (hw : fs.WellFormed t) {cs' : List Nat} {sclust : UInt32}
    (hsclust : sclust = if fp.sclust = 0 then clst else fp.sclust)
    (hg : Grown t fs d fp cs sclust fs' d' cs') (hc : fs.Clst clst.toNat)
    (hget : cs'[fp.fptr.toNat / fs.bcs]? = some clst.toNat) :
    Ends ok (if clst = 0 then return (some .full, fp, fs')
      else if clst = 1 then return (some (.abort .intErr), fp, fs')
      else if clst = 0xFFFFFFFF then return (some (.abort .diskErr), fp, fs')
      else
        let fp := { fp with clust := clst }
        return (none, if fp.sclust = 0 then { fp with sclust := clst } else fp, fs'))
      (WritesClust ok t fs d fp cs) d' := by
  obtain ⟨hzero, hone, hmax⟩ := clst_ne_code hw hc
  rw [if_neg hzero, if_neg hone, if_neg hmax]
  refine .inl ⟨cs', sclust, clst, rfl, ?_, hg, hget⟩
  subst hsclust
  by_cases hfirst : fp.sclust = 0
  · simp [hfirst]
  · simp [hfirst]

/-- A file whose first cluster is 0 has none. -/
theorem nil_of_head (ho : Opened fs d fp cs) (h : fp.sclust = 0) : cs = [] := by
  have hhead := ho.head
  rw [h] at hhead
  cases cs with
  | nil => rfl
  | cons c cs =>
    have htwo := (ho.chain.clst c List.mem_cons_self).1
    have hzero : (0 : UInt32).toNat = c := hhead
    have hz : (0 : UInt32).toNat = 0 := rfl
    omega

/-- The first cluster of the file. -/
theorem first_clst (ho : Opened fs d fp cs) (h : fp.sclust ≠ 0) :
    cs[0]? = some fp.sclust.toNat ∧ fs.Clst fp.sclust.toNat := by
  have hhead := ho.head
  cases cs with
  | nil => exact absurd (UInt32.toNat_inj.1 hhead) h
  | cons c cs =>
    have hc : fp.sclust.toNat = c := hhead
    rw [hc]
    exact ⟨rfl, ho.chain.clst c List.mem_cons_self⟩

/-- A file with a cluster has a first one. -/
theorem sclust_ne_zero (ho : Opened fs d fp cs) {c : Nat} (hc : c ∈ cs) : fp.sclust ≠ 0 := by
  intro hzero
  rw [nil_of_head ho hzero] at hc
  exact absurd hc List.not_mem_nil

/-- `create_chain` for a file without a cluster. The cluster begins the chain of the file, and its
number goes into the object by the caller. -/
theorem keeps_firstClust (hs : Sound t fs d) (ho : Opened fs d fp []) (hfirst : fp.sclust = 0) :
    Ends ok (createChain fs 0) (fun r d' =>
      (Grown t fs d fp [] r.1 r.2 d' [r.1.toNat] ∧ fs.Clst r.1.toNat) ∨
      (r.1 = 0 ∧ Looked fs d r.2 d' ∧ fs.freeClusters d = 0) ∨
      r.1 = 0xFFFFFFFF ∧ MayFail ok ∧ Frame [] [] fs d r.2 d') d := by
  refine always_mono ?_ (keeps_createChain hs fun h => absurd rfl h)
  rintro ⟨clst, fs1⟩ d1 hcreated
  cases hcreated with
  | followed _ hne => exact absurd rfl hne
  | stretched _ hst =>
    have hg := hst.grown hs ho (.inl ⟨rfl, rfl⟩)
    rw [if_pos hfirst] at hg
    exact .inl ⟨hg, hst.valid⟩
  | full hlooked _ hcount => exact .inr (.inl ⟨rfl, hlooked, hcount⟩)
  | failed hframe hfail =>
    refine .inr (.inr ⟨rfl, hfail, hframe.file ?_ ho.chain.clst⟩)
    intro c hc hclst
    rw [List.mem_singleton.1 hc] at hclst
    exact absurd hclst.1 (by decide)

/-- `create_chain` at cluster `i` of a file follows the chain, and stretches it at its end. At the
end of the chain a free cluster is appended, where there is one, and before the end nothing is
changed. -/
theorem keeps_nextClust (hs : Sound t fs d) (ho : Opened fs d fp cs) {i : Nat}
    (hget : cs[i]? = some clst.toNat) :
    Ends ok (createChain fs clst) (fun r d' =>
      (∃ cs', Grown t fs d fp cs fp.sclust r.2 d' cs' ∧ fs.Clst r.1.toNat ∧
        cs'[i + 1]? = some r.1.toNat) ∨
      (r.1 = 0 ∧ Looked fs d r.2 d' ∧ fs.freeClusters d = 0 ∧ i + 1 = cs.length) ∨
      r.1 = 0xFFFFFFFF ∧ MayFail ok ∧ Frame cs cs fs d r.2 d') d := by
  have hw := hs.wellFormed
  obtain ⟨hi, hclst⟩ := List.getElem?_eq_some_iff.1 hget
  have hmem : clst.toNat ∈ cs := by
    rw [← hclst]
    exact List.getElem_mem hi
  have hc := ho.chain.clst _ hmem
  have hne := (clst_ne_code hw hc).1
  -- the entry of the cluster is the last one exactly at the end of the chain
  have hlast : fs.Last (fs.fat d clst.toNat) → i + 1 = cs.length := by
    intro hmark
    by_contra hnot
    have hlt : i + 1 < cs.length := by omega
    have hlink := ho.chain.linked.next_getElem (Nat.lt_of_succ_lt hlt) hlt
    rw [hclst] at hlink
    have hin := (ho.chain.clst _ (List.getElem_mem hlt)).2
    rw [← hlink] at hin
    exact absurd hmark (Nat.not_le.2 hin)
  refine always_mono ?_ (keeps_createChain hs fun _ => ⟨hc, ho.chain.ne_zero hw hmem⟩)
  rintro ⟨ncl, fs1⟩ d1 hcreated
  cases hcreated with
  | followed hlooked _ hncl hlt =>
    have hnot : i + 1 < cs.length := by
      by_contra hge
      have hmark := ho.chain.linked.last_getElem hi (by omega)
      rw [hclst, ← hncl] at hmark
      exact absurd hmark (Nat.not_le.2 hlt)
    have hlink := ho.chain.linked.next_getElem (Nat.lt_of_succ_lt hnot) hnot
    rw [hclst, ← hncl] at hlink
    have hcn := ho.chain.clst _ (List.getElem_mem hnot)
    rw [← hlink] at hcn
    refine .inl ⟨cs, hlooked.grown hs ho, hcn, ?_⟩
    rw [List.getElem?_eq_getElem hnot, hlink]
  | stretched hmark hst =>
    have hlen := hlast (hmark hne)
    have hend : EndOf cs clst := by
      refine .inr ⟨hne, cs.dropLast, ?_⟩
      have hnil : cs ≠ [] := List.ne_nil_of_mem hmem
      have hgetLast : cs.getLast hnil = clst.toNat := by
        have hidx : cs.length - 1 = i := by omega
        simp only [List.getLast_eq_getElem, hidx]
        exact hclst
      rw [← hgetLast, List.dropLast_append_getLast]
    have hg := hst.grown hs ho hend
    rw [if_neg (sclust_ne_zero ho hmem)] at hg
    refine .inl ⟨cs ++ [ncl.toNat], hg, hst.valid, ?_⟩
    rw [hlen]
    simp
  | full hlooked hmark hcount => exact .inr (.inl ⟨rfl, hlooked, hcount, hlast (hmark hne)⟩)
  | failed hframe hfail =>
    refine .inr (.inr ⟨rfl, hfail, hframe.file ?_ ho.chain.clst⟩)
    intro c hcc _
    rw [List.mem_singleton.1 hcc]
    exact hmem

/-- At the begin of a cluster, `f_write` follows the chain or stretches it. At the first byte of a
file without a cluster a chain is begun. On a full volume there is no cluster, and the write ends
there. -/
theorem keeps_writeClust (hs : Sound t fs d) (ho : Opened fs d fp cs)
    (hsector : fp.fptr.toNat % 4096 = 0) :
    Ends ok (writeClust fs fp (csectOf fs.toGeometry fp)) (WritesClust ok t fs d fp cs) d := by
  have hw := hs.wellFormed
  have hofs := csectOf_mul hw fp hsector
  unfold writeClust
  -- a cluster is looked up only at its first sector
  by_cases hcsect : csectOf fs.toGeometry fp = 0
  · rw [if_pos hcsect]
    have hmod : fp.fptr.toNat % fs.bcs = 0 := by
      rw [← hofs, hcsect]
      rfl
    -- at the top of the file: its first cluster, further on the next one of the chain
    by_cases htop : fp.fptr = 0
    · rw [if_pos htop]
      have hzero : fp.fptr.toNat / fs.bcs = 0 := by
        rw [htop]
        exact Nat.zero_div _
      by_cases hfirst : fp.sclust = 0
      · -- a file without a cluster
        rw [if_pos hfirst]
        have hnil := nil_of_head ho hfirst
        subst hnil
        refine always_seq (keeps_firstClust hs ho hfirst) ?_
        rintro ⟨clst, fs1⟩ d1 (⟨hg, hc⟩ | ⟨rfl, hlooked, hcount⟩ | ⟨rfl, hfail, hframe⟩)
        · refine writesClust_of_clst hw (by rw [if_pos hfirst]) hg hc ?_
          rw [hzero]
          rfl
        · refine .inr (.inl ⟨rfl, rfl, hlooked, hcount, ?_⟩)
          rw [htop]
          simp
        · exact .inr (.inr ⟨rfl, hfail, rfl, hframe⟩)
      · rw [if_neg hfirst, Prog.pure_eq, Prog.ret_bind]
        obtain ⟨hget, hc⟩ := first_clst ho hfirst
        refine writesClust_of_clst hw ?_ ((Looked.refl hs.coherent).grown hs ho) hc ?_
        · rw [if_neg hfirst]
        · rw [hzero]
          exact hget
    · -- behind the top: the cluster that follows the current one
      rw [if_neg htop]
      have hpos : 0 < fp.fptr.toNat := by
        have hne : fp.fptr.toNat ≠ 0 := fun h => htop (UInt32.toNat_inj.1 h)
        omega
      have hprev := div_pred_of_mod hpos hw.bcs_pos hmod
      have hget := ho.clust hpos
      have hfirst : fp.sclust ≠ 0 := sclust_ne_zero ho (List.mem_of_getElem? hget)
      refine always_seq (keeps_nextClust hs ho hget) ?_
      rintro ⟨clst, fs1⟩ d1 (⟨cs', hg, hc, hnext⟩ | ⟨rfl, hlooked, hcount, hlen⟩ |
        ⟨rfl, hfail, hframe⟩)
      · refine writesClust_of_clst hw ?_ hg hc ?_
        · rw [if_neg hfirst]
        · rw [← hprev]
          exact hnext
      · refine .inr (.inl ⟨rfl, rfl, hlooked, hcount, ?_⟩)
        have hsplit := Nat.mod_add_div fp.fptr.toNat fs.bcs
        rw [hmod, ← hprev, hlen, Nat.zero_add, Nat.mul_comm] at hsplit
        exact hsplit.symm
      · exact .inr (.inr ⟨rfl, hfail, rfl, hframe⟩)
  · -- inside a cluster the current one is the right one
    rw [if_neg hcsect]
    refine .inl ⟨cs, fp.sclust, fp.clust, rfl, rfl, (Looked.refl hs.coherent).grown hs ho,
      clust_inside ho ?_⟩
    rw [← hofs]
    have hne : (csectOf fs.toGeometry fp).toNat ≠ 0 := fun h => hcsect (UInt32.toNat_inj.1 h)
    omega

/-! ### A round -/

/-- What a piece of data that has been written at the file pointer leaves. -/
structure WritesOn (t : FatType) (fs : Fatfs) (d : Image) (fp : Fil) (cs : List Nat)
    (data : List UInt8) (fs' : Fatfs) (d' : Image) (fp' : Fil) (cs' : List Nat) : Prop where
  frame : Frame cs cs' fs d fs' d'
  sound : Sound t fs' d'
  opened : Opened fs' d' fp' cs'
  mem : ∀ i < fp'.objsize.toNat,
    fp'.mem fs' d' cs' i = Blocks.store (fp.mem fs d cs) fp.fptr.toNat data i
  toOpen : fp'.toFilOpen = fp.toFilOpen
  err : fp'.err = fp.err
  fptr : fp'.fptr.toNat = fp.fptr.toNat + data.length
  objsize : fp'.objsize.toNat = max fp.objsize.toNat (fp.fptr.toNat + data.length)
  count : fs'.freeClusters d' + cs'.length = fs.freeClusters d + cs.length

/-- The end of a piece in the cluster of the file pointer. -/
theorem end_le {f n b len : Nat} (hin : f < len * b) (hroom : f % b + n ≤ b) :
    f + n ≤ len * b := by
  have hdiv : f / b < len := Nat.div_lt_of_lt_mul (by rwa [Nat.mul_comm] at hin)
  have hsplit := Nat.mod_add_div f b
  have hle : (f / b + 1) * b ≤ len * b := Nat.mul_le_mul_right _ hdiv
  rw [Nat.succ_mul, Nat.mul_comm] at hle
  omega

/-- The file pointer behind `cnt` bytes. The size is the old one or the pointer, whichever is
larger. -/
theorem grow_eq {cnt : UInt32} (hwrap : fp.fptr.toNat + cnt.toNat < 2 ^ 32) :
    (fp.grow cnt).fptr.toNat = fp.fptr.toNat + cnt.toNat ∧
      (fp.grow cnt).objsize.toNat = max fp.objsize.toNat (fp.fptr.toNat + cnt.toNat) := by
  have hadd : (fp.fptr + cnt).toNat = fp.fptr.toNat + cnt.toNat := by
    rw [UInt32.toNat_add]
    omega
  refine ⟨hadd, ?_⟩
  show (if fp.objsize < fp.fptr + cnt then fp.fptr + cnt else fp.objsize).toNat = _
  by_cases hlt : fp.objsize < fp.fptr + cnt
  · have hnat := UInt32.lt_iff_toNat_lt.1 hlt
    rw [if_pos hlt]
    omega
  · have hnat := mt UInt32.lt_iff_toNat_lt.2 hlt
    rw [if_neg hlt]
    omega

/-- The piece lies in the current cluster. The chain has not changed, and the file pointer moves
behind the piece. The size grows where the pointer goes past it. -/
theorem writesOn_moved (hs : Sound t fs d) (ho : Opened fs d fp cs) (hown : OwnOnly cs fs d d')
    (fp' : Fil) (hopen : fp'.toFilOpen = fp.toFilOpen) (hinfo : fp'.toFilInfo = fp.toFilInfo)
    (hfptr : fp'.fptr = fp.fptr) {cnt : UInt32} (hpos : 0 < cnt.toNat)
    (hwrap : fp.fptr.toNat + cnt.toNat < 2 ^ 32)
    (hroom : fp.fptr.toNat % fs.bcs + cnt.toNat ≤ fs.bcs)
    (hin : fp.fptr.toNat < cs.length * fs.bcs)
    (hclust : cs[fp.fptr.toNat / fs.bcs]? = some fp'.clust.toNat)
    (hsect : (fp.fptr.toNat + cnt.toNat) % 4096 ≠ 0 →
      sectAddr fp'.sect = fs.fileAddr cs ((fp.fptr.toNat + cnt.toNat) / 4096 * 4096))
    (hshown : fp'.sect.toNat < fs.database.toNat ∨ fp'.Shows fs.toGeometry cs)
    (hdirty : fp'.faDirty = true → fp'.Shows fs.toGeometry cs)
    (hholds : fp'.Shows fs.toGeometry cs → WriteBack.Holds 4096 fp'.buffer (fs.view d'))
    {data : List UInt8} (hdata : data.length = cnt.toNat)
    (hmem : ∀ i < max fp.objsize.toNat (fp.fptr.toNat + cnt.toNat),
      fp'.mem fs d' cs i = Blocks.store (fp.mem fs d cs) fp.fptr.toNat data i) :
    WritesOn t fs d fp cs data fs d' (fp'.grow cnt) cs := by
  have hobj : fp'.objsize = fp.objsize := congrArg FilInfo.objsize hinfo
  have hsclust : fp'.sclust = fp.sclust := congrArg FilInfo.sclust hinfo
  have herr : fp'.err = fp.err := congrArg FilInfo.err hinfo
  obtain ⟨hptr', hsize'⟩ := grow_eq (by rw [hfptr]; exact hwrap)
  rw [hfptr] at hptr' hsize'
  rw [hobj] at hsize'
  have hend := end_le hin hroom
  have hsize := ho.size
  constructor
  case frame => exact hown.frame hs.wellFormed ho.chain.clst
  case sound => exact hown.sound hs
  case opened =>
    refine ho.moved hs.wellFormed hown hsclust ?_ ?_ ?_ ?_ hshown hdirty hholds
    · rw [hsize']
      exact Nat.max_le.2 ⟨hsize, hend⟩
    · rw [hsize', hptr']
      exact Nat.le_max_right _ _
    · intro _
      rw [hptr', div_add_pred hpos hroom]
      exact hclust
    · intro hne
      rw [hptr'] at hne ⊢
      exact hsect hne
  case mem =>
    rw [hsize']
    exact hmem
  case toOpen => exact hopen
  case err => exact herr
  case fptr => rw [hptr', hdata]
  case objsize => rw [hsize', hdata]
  case count => rw [hown.freeClusters hs.wellFormed]

/-- Data that is put into the buffer is in the file. The buffer holds the rest of the sector before,
so the bytes beside the data are those of the file. -/
theorem mem_copyIn (hw : fs.WellFormed t) (hchain : Chain fs d cs) {m : Image}
    (hholds : WriteBack.Holds 4096 fp.buffer m) {f : Nat}
    (hsect : sectAddr fp.sect = fs.fileAddr cs (f / 4096 * 4096))
    (hin : f < cs.length * fs.bcs) {data : List UInt8} (hlen : f % 4096 + data.length ≤ 4096)
    {i : Nat} (hi : i < cs.length * fs.bcs) :
    Scatter.gather fs.bcs (cs.map fs.clstAddr)
        (Fil.view { fp with buf := memCpy (f % 4096) data fp.buf, faDirty := true } m) i =
      Blocks.store (Scatter.gather fs.bcs (cs.map fs.clstAddr) (fp.view m)) f data i := by
  have hroom := sector_room hw f
  have hmod := Nat.mod_lt f (by decide : 0 < 4096)
  have haddr : fp.buffer.addr + f % 4096 = fs.fileAddr cs f := by
    have hsplit : f = f / 4096 * 4096 + f % 4096 := by omega
    have hfile : fs.fileAddr cs f = fs.fileAddr cs (f / 4096 * 4096) + f % 4096 := by
      have hadd : fs.fileAddr cs (f / 4096 * 4096 + f % 4096) =
          fs.fileAddr cs (f / 4096 * 4096) + f % 4096 := Scatter.addr_add (by omega)
      rwa [← hsplit] at hadd
    rw [hfile, ← hsect]
    rfl
  have hview : Fil.view { fp with buf := memCpy (f % 4096) data fp.buf, faDirty := true } m =
      Blocks.store (fp.view m) (fs.fileAddr cs f) data := by
    rw [← haddr]
    exact WriteBack.view_store hholds hlen
  rw [hview]
  refine Scatter.gather_store hchain.apart ?_ (mod_bcs_add hw hlen) ?_
  · rw [List.length_map]
    exact Scatter.div_lt hin
  · rwa [List.length_map]

/-- Data that is put into a buffer with any content, at the end of the file. The old content of the
sector is behind the end of the file and does not count, so it need not be read. The data covers the
buffer from its begin. -/
theorem mem_fresh (fp : Fil) (m : Image) (hw : fs.WellFormed t) (hchain : Chain fs d cs)
    (hclean : fp.faDirty = false) {f : Nat} (hsector : f % 4096 = 0)
    (hin : f < cs.length * fs.bcs) (data : List UInt8) (hlen : data.length ≤ 4096) {sect : UInt32}
    (hsect : sectAddr sect = fs.fileAddr cs f) {i : Nat} (hi : i < f + data.length)
    (hi' : i < cs.length * fs.bcs) :
    Scatter.gather fs.bcs (cs.map fs.clstAddr)
        (Fil.view { fp with sect := sect, buf := memCpy 0 data fp.buf, faDirty := true } m) i =
      Blocks.store (Scatter.gather fs.bcs (cs.map fs.clstAddr) (fp.view m)) f data i := by
  have hview : fp.view m = m := WriteBack.view_clean hclean
  generalize hfq : ({ fp with sect := sect, buf := memCpy 0 data fp.buf, faDirty := true } : Fil)
    = fq
  have hblock : fq.view m = Blocks.store m (fs.fileAddr cs f) (fq.buffer.block 4096) := by
    rw [← hsect, ← hfq]
    exact WriteBack.view_dirty rfl
  have hlen' : (fq.buffer.block 4096).length = 4096 := WriteBack.length_block _ _
  rw [hblock, hview]
  have hdiv : f / fs.bcs < (cs.map fs.clstAddr).length := by
    rw [List.length_map]
    exact Scatter.div_lt hin
  refine (Scatter.gather_store hchain.apart hdiv (mod_bcs_add hw (by omega)) ?_).trans ?_
  · rwa [List.length_map]
  by_cases hlt : i < f
  · rw [Blocks.store_of_outside _ _ (.inl hlt), Blocks.store_of_outside _ _ (.inl hlt)]
  · -- a byte of the data
    obtain ⟨j, rfl⟩ : ∃ j, i = f + j := ⟨i - f, by omega⟩
    have hj : j < data.length := by omega
    have hj' : j < (fq.buffer.block 4096).length := by omega
    have hcell := Blocks.store_of_mem fp.buf 0 hj
    rw [Nat.zero_add] at hcell
    rw [Blocks.store_of_mem _ _ hj, Blocks.store_of_mem _ _ hj', WriteBack.block_getElem, ← hcell,
      ← hfq]
    rfl

/-- A sector that was copied holds its bytes. -/
theorem memCpy_sectors (src buf : Buf) {i : Nat} (hi : i < 4096) :
    memCpy 0 (sectors 1 src) buf i = src i := by
  have hcopy : memCpy 0 (sectors 1 src) buf i = src (0 + i) := memCpy_sector hi
  rwa [Nat.zero_add] at hcopy

/-- Whole sectors inside a cluster, written to the disk. A buffer that shows one of these sectors
gets the new content as well, so that it still holds what is on the disk. -/
theorem keeps_writeDirect (hs : Sound t fs d) (hcs : ∀ c ∈ cs, fs.Clst c)
    (haway : fs.Away cs) (fp : Fil) (hclean : fp.faDirty = false)
    (hholds : fp.Shows fs.toGeometry cs → WriteBack.Holds 4096 fp.buffer (fs.view d))
    (wbuff : Buf) (bw : UInt32) {sect cc : UInt32} {f : Nat}
    (hsect : sectAddr sect = fs.fileAddr cs f) (hin : f < cs.length * fs.bcs)
    (hroom : f % fs.bcs + cc.toNat * 4096 ≤ fs.bcs) (hcc : cc.toNat < 2 ^ 20) :
    Ends ok (writeDirect fp wbuff bw sect cc) (fun r d' => OwnOnly cs fs d d' ∧
      (r.1 = .done (ss * cc) ∧ r.2 = { fp with buf := r.2.buf } ∧
          (r.2.Shows fs.toGeometry cs → WriteBack.Holds 4096 r.2.buffer (fs.view d')) ∧
          fs.view d' = Blocks.store (fs.view d) (sectAddr sect)
            (Blocks.slice wbuff bw.toNat (cc.toNat * 4096)) ∨
        r.1 = .abort .diskErr ∧ MayFail ok)) d := by
  have hw := hs.wellFormed
  have hbytes : ∀ i < cc.toNat * 4096, fs.InClsts cs (sectAddr sect + i) := fun i hi =>
    inClsts_piece hw hsect hin hroom hi
  have hend := sect_end hw hcs hbytes
  unfold writeDirect
  refine ends_diskWrite (n := cc.toNat * 4096) rfl ?_ ?_
  · have hdata : sectors cc (advance bw.toNat wbuff) =
        Blocks.slice wbuff bw.toNat (cc.toNat * 4096) :=
      Blocks.slice_congr _ _ fun i _ => by rw [Nat.zero_add, advance]
    have hlen : (Blocks.slice wbuff bw.toNat (cc.toNat * 4096)).length = cc.toNat * 4096 :=
      Blocks.length_slice _ _ _
    rw [hdata]
    obtain ⟨hview, hown⟩ := ownOnly_store hs.coherent haway
      (fun i hi => hbytes i (by rwa [hlen] at hi))
    rw [if_neg (by decide)]
    by_cases hlt : fp.sect - sect < cc
    · -- the sector of the buffer is among them
      obtain ⟨hle, hlt'⟩ := (sub_lt_iff hend).1 hlt
      rw [if_pos hlt, toNat_sub_mul hle hlt' hcc.le]
      have hbuf : ∀ i < 4096, memCpy 0 (sectors 1
          (advance (bw.toNat + (sectAddr fp.sect - sectAddr sect)) wbuff)) fp.buf i =
            wbuff (bw.toNat + (sectAddr fp.sect - sectAddr sect + i)) := by
        intro i hi
        rw [memCpy_sectors _ _ hi, advance, Nat.add_assoc]
      generalize memCpy 0 (sectors 1 (advance (bw.toNat + (sectAddr fp.sect - sectAddr sect))
        wbuff)) fp.buf = buf at hbuf ⊢
      refine ⟨hown, .inl ⟨rfl, ?_, ?_, hview⟩⟩
      · rw [← hclean]
      · intro _ i hi
        have hcell : sectAddr fp.sect + i =
            sectAddr sect + (sectAddr fp.sect - sectAddr sect + i) := by
          unfold sectAddr
          omega
        have hmem : sectAddr fp.sect - sectAddr sect + i <
            (Blocks.slice wbuff bw.toNat (cc.toNat * 4096)).length := by
          rw [hlen]
          unfold sectAddr
          omega
        refine (congrFun (WriteBack.view_clean rfl) _).trans ?_
        show fs.view _ (sectAddr fp.sect + i) = buf i
        rw [hbuf i hi, hview, hcell, Blocks.store_of_mem _ _ hmem, Blocks.getElem_slice]
    · -- a buffer of another sector holds what it held
      rw [if_neg hlt]
      refine ⟨hown, .inl ⟨rfl, rfl, ?_, hview⟩⟩
      intro hshows i hi
      have hnot := mt (sub_lt_iff hend).2 hlt
      have hold := hholds hshows i hi
      have hview' : WriteBack.view 4096 fp.buffer = id :=
        funext fun m => WriteBack.view_clean hclean
      rw [hview'] at hold ⊢
      refine Eq.trans ?_ hold
      show fs.view _ (sectAddr fp.sect + i) = fs.view d (sectAddr fp.sect + i)
      rw [hview]
      refine Blocks.store_of_outside _ _ ?_
      rw [hlen]
      unfold sectAddr
      omega
  · -- a failed transfer has written within the clusters of the file at most
    intro data hdata hfail
    obtain ⟨-, hown⟩ := ownOnly_store hs.coherent haway
      (fun i hi => hbytes i (by rwa [hdata] at hi))
    rw [if_pos (by decide)]
    exact ⟨hown, .inr ⟨rfl, hfail⟩⟩

/-- Data that is put into the buffer of the sector at the file pointer. As many bytes as the sector
has room for, and no more than are left. The buffer is dirty afterwards, and the disk has not
changed. -/
theorem writesOn_copyIn (hs : Sound t fs d) (ho : Opened fs d fp cs) (hown : OwnOnly cs fs d d')
    (fp' : Fil) (hopen : fp'.toFilOpen = fp.toFilOpen) (hinfo : fp'.toFilInfo = fp.toFilInfo)
    (hfptr : fp'.fptr = fp.fptr)
    (hclust : cs[fp.fptr.toNat / fs.bcs]? = some fp'.clust.toNat)
    (hsect : sectAddr fp'.sect = fs.fileAddr cs (fp.fptr.toNat / 4096 * 4096))
    (hin : fp.fptr.toNat < cs.length * fs.bcs) (wbuff : Buf) {btw : UInt32} (bw : UInt32)
    (hpos : 0 < btw.toNat) (hwrap : fp.fptr.toNat + btw.toNat < 2 ^ 32)
    (hmem : ∀ n, fp.fptr.toNat % 4096 + n ≤ 4096 →
      ∀ i < max fp.objsize.toNat (fp.fptr.toNat + n), i < cs.length * fs.bcs →
      Fil.mem { fp' with
        buf := memCpy (fp.fptr.toNat % 4096) (Blocks.slice wbuff bw.toNat n) fp'.buf
        faDirty := true } fs d' cs i =
      Blocks.store (fp.mem fs d cs) fp.fptr.toNat (Blocks.slice wbuff bw.toNat n) i) :
    ∃ cnt : UInt32, (copyIn fp' wbuff btw bw).1 = .done cnt ∧ 0 < cnt.toNat ∧
      cnt.toNat ≤ btw.toNat ∧
      WritesOn t fs d fp cs (Blocks.slice wbuff bw.toNat cnt.toNat) fs d'
        ((copyIn fp' wbuff btw bw).2.grow cnt) cs := by
  have hw := hs.wellFormed
  have hclip := toNat_clipSector fp' btw
  rw [hfptr] at hclip
  have hmod := Nat.mod_lt fp.fptr.toNat (by decide : 0 < 4096)
  have hshows : fp'.Shows fs.toGeometry cs := by
    unfold Fil.Shows
    rw [hsect]
    exact fileAddr_mem hw (by omega)
  have hroom : fp.fptr.toNat % fs.bcs + (clipSector fp' btw).toNat ≤ fs.bcs :=
    mod_bcs_add hw (by omega)
  have hend := end_le hin hroom
  have hsize := ho.size
  refine ⟨clipSector fp' btw, rfl, by omega, by omega, ?_⟩
  refine writesOn_moved hs ho hown (copyIn fp' wbuff btw bw).2 hopen hinfo hfptr (by omega)
    (by omega) hroom hin hclust ?_ (.inr hshows) (fun _ => hshows)
    (fun _ => WriteBack.holds_dirty rfl) (Blocks.length_slice _ _ _) ?_
  · intro hne
    have hsame : (fp.fptr.toNat + (clipSector fp' btw).toNat) / 4096 =
        fp.fptr.toNat / 4096 := by omega
    rw [hsame]
    exact hsect
  · intro i hi
    have hput := hmem (clipSector fp' btw).toNat (by omega) i hi (by omega)
    rw [← hput]
    unfold copyIn
    dsimp only
    rw [toNat_mod_ss, hfptr]

/-- A round at the begin of a sector. The buffer is written back if it is dirty. Then whole sectors
go past it to the disk; a part of a sector goes into the buffer, which is filled before if the file
has bytes in that sector. -/
theorem keeps_writeAt (hs : Sound t fs d) (ho : Opened fs d fp cs) {clst : UInt32}
    (hsector : fp.fptr.toNat % 4096 = 0)
    (hclst : cs[fp.fptr.toNat / fs.bcs]? = some clst.toNat) (wbuff : Buf) {btw : UInt32}
    (bw : UInt32) (hpos : 0 < btw.toNat) (hwrap : fp.fptr.toNat + btw.toNat < 2 ^ 32) :
    Ends ok (writeAt fs.toGeometry { fp with clust := clst } wbuff btw bw
        (csectOf fs.toGeometry fp)) (fun r d' =>
      (∃ cnt : UInt32, r.1 = .done cnt ∧ 0 < cnt.toNat ∧ cnt.toNat ≤ btw.toNat ∧
        WritesOn t fs d fp cs (Blocks.slice wbuff bw.toNat cnt.toNat) fs d' (r.2.grow cnt) cs) ∨
      r.1 = .abort .diskErr ∧ MayFail ok ∧ OwnOnly cs fs d d') d := by
  have hw := hs.wellFormed
  obtain ⟨hidx, hget⟩ := List.getElem?_eq_some_iff.1 hclst
  have hc : fs.Clst clst.toNat := by
    rw [← hget]
    exact ho.chain.clst _ (List.getElem_mem hidx)
  have hin : fp.fptr.toNat < cs.length * fs.bcs :=
    (Nat.div_lt_iff_lt_mul hw.bcs_pos).1 hidx
  have hcur := sectAddr_current ho hw hsector hclst
  have hsame : fp.fptr.toNat / 4096 * 4096 = fp.fptr.toNat := by omega
  have hzero : (0 : UInt32).toNat = 0 := rfl
  unfold writeAt
  refine always_seq (keeps_flushSector hs.coherent ho.away
    ho.dirty ho.holds) ?_
  rintro ⟨res, fp1⟩ d1 ⟨hown1, hview1, ⟨rfl, hfp1, hholds1⟩ | ⟨rfl, hfail, -⟩⟩
  · dsimp only at hview1 hfp1 hholds1
    subst hfp1
    dsimp only
    rw [if_neg (by decide), if_neg (clst2sect_ne_zero hw hc)]
    generalize clst2sect fs.toGeometry clst + csectOf fs.toGeometry fp = sect at hcur ⊢
    -- the memory that is seen is that of the disk now
    have hview1' : fs.view d1 = fp.view (fs.view d) :=
      (WriteBack.view_clean (b := ⟨sectAddr fp.sect, fp.buf, false⟩) rfl).symm.trans
        hview1
    have hs1 := hown1.sound hs
    have hccnat : (btw / ss).toNat = btw.toNat / 4096 := UInt32.toNat_div _ _
    by_cases hcc : 0 < btw / ss
    · -- whole sectors
      rw [if_pos hcc]
      have hccpos := UInt32.lt_iff_toNat_lt.1 hcc
      have hcsect := toNat_csectOf hw fp
      have hofs := csectOf_mul hw fp hsector
      have hlt := Nat.mod_lt (fp.fptr.toNat / 4096) hw.csize_pos
      have hclip := toNat_clip fs.toGeometry (csectOf fs.toGeometry fp) (btw / ss) (by omega)
        (by omega)
      generalize clip fs.toGeometry (csectOf fs.toGeometry fp) (btw / ss) = cc at hclip ⊢
      have hroom : fp.fptr.toNat % fs.bcs + cc.toNat * 4096 ≤ fs.bcs := by
        rw [← hofs]
        unfold Geometry.bcs
        omega
      have hbytes : (ss * cc).toNat = cc.toNat * 4096 := by
        have hss : ss.toNat = 4096 := rfl
        rw [UInt32.toNat_mul, hss, Nat.mod_eq_of_lt (by omega), Nat.mul_comm]
      refine always_mono ?_ (keeps_writeDirect hs1 ho.chain.clst ho.away _ rfl hholds1 wbuff bw
        hcur hin hroom (by omega))
      rintro ⟨r, fp2⟩ d2 ⟨hown2, ⟨rfl, hfp2, hholds2, hview2⟩ | ⟨rfl, hfail⟩⟩
      · dsimp only at hfp2 hholds2 hview2 ⊢
        refine .inl ⟨_, rfl, by omega, by omega, ?_⟩
        have hclean2 : fp2.faDirty = false := by rw [hfp2]
        have hsect2 : fp2.sect = fp.sect := by rw [hfp2]
        refine writesOn_moved hs ho (hown1.trans hown2) fp2 (by rw [hfp2]) (by rw [hfp2])
          (by rw [hfp2]) (by omega) (by omega) (by rw [hbytes]; exact hroom) hin
          (by rw [hfp2]; exact hclst) ?_ ?_ ?_ hholds2 (Blocks.length_slice _ _ _) ?_
        · intro hne
          omega
        · unfold Fil.Shows
          rw [hsect2]
          exact ho.shown
        · intro hd
          rw [hclean2] at hd
          exact absurd hd (by decide)
        · intro i hi
          have hend := end_le hin hroom
          have hsize := ho.size
          have hview : fp2.view (fs.view d2) = fs.view d2 := WriteBack.view_clean hclean2
          unfold Fil.mem
          rw [hview, hview2, hview1', hcur, hbytes]
          refine Scatter.gather_store ho.chain.apart ?_ ?_ ?_
          · rwa [List.length_map]
          · rwa [Blocks.length_slice]
          · rw [List.length_map]
            omega
      · exact .inr ⟨rfl, hfail, hown1.trans hown2⟩
    · -- a part of the sector, by the buffer
      rw [if_neg hcc]
      have hsect : fs.InClsts cs (sectAddr sect) := by
        rw [hcur]
        exact fileAddr_mem hw hin
      have hcur' : sectAddr sect = fs.fileAddr cs (fp.fptr.toNat / 4096 * 4096) := by
        rw [hsame]
        exact hcur
      -- a buffer that holds the sector
      have hheld : ∀ fp2 : Fil, fp2.toFilOpen = fp.toFilOpen → fp2.toFilInfo = fp.toFilInfo →
          fp2.fptr = fp.fptr → fp2.clust = clst → fp2.faDirty = false → fp2.sect = sect →
          WriteBack.Holds 4096 fp2.buffer (fs.view d1) → Ends ok (pure (copyIn fp2 wbuff btw bw))
            (fun r d' => (∃ cnt : UInt32, r.1 = .done cnt ∧ 0 < cnt.toNat ∧
              cnt.toNat ≤ btw.toNat ∧ WritesOn t fs d fp cs
                (Blocks.slice wbuff bw.toNat cnt.toNat) fs d' (r.2.grow cnt) cs) ∨
              r.1 = .abort .diskErr ∧ MayFail ok ∧ OwnOnly cs fs d d') d1 := by
        intro fp2 hopen hinfo hfptr hclust hclean hat hholds
        refine .inl (writesOn_copyIn hs ho hown1 fp2 hopen hinfo hfptr (by rw [hclust]; exact hclst)
          (by rw [hat]; exact hcur') hin wbuff bw hpos hwrap ?_)
        intro n hn i _ hi
        have hview2 : fp2.view (fs.view d1) = fp.view (fs.view d) :=
          (WriteBack.view_clean hclean).trans hview1'
        have hlen : (Blocks.slice wbuff bw.toNat n).length = n := Blocks.length_slice _ _ _
        have hput := mem_copyIn hw ho.chain hholds (by rw [hat]; exact hcur') hin
          (by rwa [hlen]) hi
        rw [hview2] at hput
        exact hput
      by_cases hfill : fp.sect ≠ sect ∧ fp.fptr < fp.objsize
      · rw [if_pos hfill]
        refine always_seq (keeps_readSector ho.away hsect) ?_
        rintro ⟨res, fp2⟩ d2 ⟨rfl, hfp2, hres⟩
        dsimp only at hfp2 hres ⊢
        rcases hres with ⟨rfl, hbuf⟩ | ⟨rfl, hfail⟩
        · rw [if_neg (by decide)]
          refine hheld { fp2 with sect := sect } (by rw [hfp2]) (by rw [hfp2]) (by rw [hfp2])
            (by rw [hfp2]) (by rw [hfp2]) rfl ?_
          have hload := WriteBack.holds_load (n := 4096) hbuf
          have hclean : fp2.faDirty = false := by rw [hfp2]
          rw [← hclean] at hload
          exact hload
        · rw [if_pos (by decide)]
          exact .inr ⟨rfl, hfail, hown1⟩
      · rw [if_neg hfill, Prog.pure_eq, Prog.ret_bind]
        dsimp only
        rw [if_neg (by decide)]
        by_cases hat : fp.sect = sect
        · subst hat
          exact hheld _ rfl rfl rfl rfl rfl rfl (hholds1 hsect)
        · -- at the end of the file the rest of the sector does not matter
          have hend : fp.objsize.toNat ≤ fp.fptr.toNat := by
            have hnot : ¬ fp.fptr < fp.objsize := fun h => hfill ⟨hat, h⟩
            exact Nat.le_of_not_lt (mt UInt32.lt_iff_toNat_lt.2 hnot)
          refine .inl (writesOn_copyIn hs ho hown1 { fp with
            clust := clst, faDirty := false, sect := sect } rfl rfl rfl hclst hcur' hin wbuff bw
            hpos hwrap ?_)
          intro n hn i hi hi'
          have hlen : (Blocks.slice wbuff bw.toNat n).length = n := Blocks.length_slice _ _ _
          have hput := mem_fresh { fp with clust := clst, faDirty := false } (fs.view d1) hw
            ho.chain rfl hsector hin (Blocks.slice wbuff bw.toNat n) (by omega) hcur (by omega) hi'
          have hview : Fil.view { fp with clust := clst, faDirty := false } (fs.view d1) =
              fp.view (fs.view d) := (WriteBack.view_clean rfl).trans hview1'
          rw [hview] at hput
          rw [hsector]
          exact hput
  · dsimp only
    rw [if_pos (by decide)]
    exact .inr ⟨rfl, hfail, hown1⟩

/-- A piece that is written after the chain has grown. The growth adds clusters behind the others
and moves no byte, so the piece lands where it would have on a chain that was long enough before. -/
theorem Grown.writesOn (ho : Opened fs d fp cs) {sclust : UInt32} {cs' cs'' : List Nat}
    {fs'' : Fatfs} {d'' : Image} {fp'' : Fil} {data : List UInt8}
    (h : Grown t fs d fp cs sclust fs' d' cs')
    (h' : WritesOn t fs' d' { fp with sclust := sclust } cs' data fs'' d'' fp'' cs'') :
    WritesOn t fs d fp cs data fs'' d'' fp'' cs'' where
  frame := h.frame.trans h'.frame
  sound := h'.sound
  opened := h'.opened
  mem := by
    intro i hi
    have hsize := h'.objsize
    have hold := ho.size
    have hptr := ho.ptr
    rw [h'.mem i hi]
    dsimp only at hsize ⊢
    by_cases hin : i < cs.length * fs.bcs
    · exact Blocks.store_congr _ _ (h.mem i hin)
    · exact Blocks.store_inside _ _ (by omega) (by omega)
  toOpen := h'.toOpen
  err := h'.err
  fptr := h'.fptr
  objsize := h'.objsize
  count := h'.count.trans h.count

/-- What a round of `f_write` comes to. -/
def WritesRound (ok : Answer → Prop) (t : FatType) (fs : Fatfs) (d : Image) (fp : Fil)
    (cs : List Nat) (wbuff : Buf) (btw bw : UInt32) (r : Round × Fil × Fatfs) (d' : Image) : Prop :=
  (∃ (cnt : UInt32) (cs' : List Nat), r.1 = .done cnt ∧ 0 < cnt.toNat ∧ cnt.toNat ≤ btw.toNat ∧
    WritesOn t fs d fp cs (Blocks.slice wbuff bw.toNat cnt.toNat) r.2.2 d' (r.2.1.grow cnt) cs') ∨
  (r.1 = .full ∧ r.2.1 = fp ∧ Looked fs d r.2.2 d' ∧ fs.freeClusters d = 0 ∧
    fp.fptr.toNat = cs.length * fs.bcs) ∨
  r.1 = .abort .diskErr ∧ MayFail ok ∧ ∃ cs', Frame cs cs' fs d r.2.2 d'

/-- One round of the loop of `f_write`. At the begin of a sector the cluster is found first, which
may be a new one. Inside of a sector the buffer holds it already. -/
theorem keeps_writeRound (hs : Sound t fs d) (ho : Opened fs d fp cs) (wbuff : Buf)
    {btw : UInt32} (bw : UInt32) (hpos : 0 < btw.toNat)
    (hwrap : fp.fptr.toNat + btw.toNat < 2 ^ 32) :
    Ends ok (writeRound fs fp wbuff btw bw) (WritesRound ok t fs d fp cs wbuff btw bw) d := by
  have hw := hs.wellFormed
  unfold writeRound
  by_cases hsector : fp.fptr % ss = 0
  · rw [if_pos hsector]
    have hnat := (mod_ss_eq_zero _).1 hsector
    refine always_seq (keeps_writeClust hs ho hnat) ?_
    rintro ⟨o, fp1, fs1⟩ d1 (⟨cs', sclust, clst, rfl, rfl, hg, hget⟩ |
      ⟨rfl, rfl, hlooked, hcount, hend⟩ | ⟨rfl, hfail, rfl, hframe⟩)
    · dsimp only at hg ⊢
      have hgeo := hg.frame.geometry
      rw [← hgeo] at hget
      have hround : Ends ok _ _ d1 := keeps_writeAt hg.sound hg.opened hnat hget wbuff bw hpos hwrap
      rw [hgeo] at hround ⊢
      refine always_seq hround ?_
      rintro ⟨r, fp2⟩ d2 (⟨cnt, rfl, hcpos, hle, hon⟩ | ⟨rfl, hfail, hown⟩)
      · exact .inl ⟨cnt, cs', rfl, hcpos, hle, hg.writesOn ho hon⟩
      · refine .inr (.inr ⟨rfl, hfail, cs', hg.frame.trans ?_⟩)
        exact hown.frame hg.sound.wellFormed hg.opened.chain.clst
    · exact .inr (.inl ⟨rfl, rfl, hlooked, hcount, hend⟩)
    · exact .inr (.inr ⟨rfl, hfail, cs, hframe⟩)
  · rw [if_neg hsector]
    have hnat : fp.fptr.toNat % 4096 ≠ 0 := fun h => hsector ((mod_ss_eq_zero _).2 h)
    have hsect := ho.sect hnat
    have hclust := clust_inside ho (mod_bcs_ne hnat)
    obtain ⟨hidx, -⟩ := List.getElem?_eq_some_iff.1 hclust
    have hin : fp.fptr.toNat < cs.length * fs.bcs :=
      (Nat.div_lt_iff_lt_mul hw.bcs_pos).1 hidx
    have hshows : fp.Shows fs.toGeometry cs := by
      unfold Fil.Shows
      rw [hsect]
      exact fileAddr_mem hw (by omega)
    obtain ⟨cnt, hdone, hcpos, hle, hon⟩ := writesOn_copyIn hs ho (OwnOnly.refl hs.coherent) fp rfl
      rfl rfl hclust hsect hin wbuff bw hpos hwrap (by
        intro n hn i _ hi
        have hlen : (Blocks.slice wbuff bw.toNat n).length = n := Blocks.length_slice _ _ _
        exact mem_copyIn hw ho.chain (ho.holds hshows) hsect hin (by rwa [hlen]) hi)
    exact .inl ⟨cnt, cs, hdone, hcpos, hle, hon⟩

/-! ### The loop -/

/-- A write of nothing has written nothing. -/
theorem WritesOn.refl (hs : Sound t fs d) (ho : Opened fs d fp cs) :
    WritesOn t fs d fp cs [] fs d fp cs where
  frame := Frame.refl hs.coherent ho.chain.clst
  sound := hs
  opened := ho
  mem := by
    intro i _
    rw [Blocks.store_nil]
  toOpen := rfl
  err := rfl
  fptr := rfl
  objsize := (Nat.max_eq_left ho.ptr).symm
  count := rfl

/-- Two pieces, one behind the other. The second starts where the file pointer stands behind the
first. The frames are composed, and so are the two stores. -/
theorem WritesOn.trans {fs'' : Fatfs} {d'' : Image} {fp' fp'' : Fil} {cs' cs'' : List Nat}
    {data data' : List UInt8} (h : WritesOn t fs d fp cs data fs' d' fp' cs')
    (h' : WritesOn t fs' d' fp' cs' data' fs'' d'' fp'' cs'') :
    WritesOn t fs d fp cs (data ++ data') fs'' d'' fp'' cs'' where
  frame := h.frame.trans h'.frame
  sound := h'.sound
  opened := h'.opened
  mem := by
    intro i hi
    have hsize := h'.objsize
    have hold := h.objsize
    rw [h'.mem i hi, Blocks.store_append, h.fptr]
    by_cases hin : i < fp'.objsize.toNat
    · exact Blocks.store_congr _ _ (h.mem i hin)
    · rw [h.fptr] at hsize
      exact Blocks.store_inside _ _ (by omega) (by omega)
  toOpen := h'.toOpen.trans h.toOpen
  err := h'.err.trans h.err
  fptr := by
    rw [h'.fptr, h.fptr, List.length_append, Nat.add_assoc]
  objsize := by
    rw [h'.objsize, h.objsize, h.fptr, List.length_append]
    omega
  count := h'.count.trans h.count

/-- The file object with the mark of a change. -/
theorem Opened.modified (ho : Opened fs d fp cs) :
    Opened fs d { fp with faModified := true } cs :=
  ⟨ho.chain, ho.head, ho.size, ho.ptr, ho.clust, ho.sect, ho.shown, ho.dirty, ho.holds, ho.away⟩

/-- The mark that the file was changed is no part of what a write is about. -/
theorem WritesOn.modified {fp' : Fil} {cs' : List Nat} {data : List UInt8}
    (h : WritesOn t fs d fp cs data fs' d' fp' cs') :
    WritesOn t fs d fp cs data fs' d' { fp' with faModified := true } cs' :=
  ⟨h.frame, h.sound, h.opened.modified, h.mem, h.toOpen, h.err, h.fptr, h.objsize, h.count⟩

/-- The bytes that the clusters of the file and the free ones have room for. -/
def room (fs : Fatfs) (d : Image) (cs : List Nat) : Nat :=
  (fs.freeClusters d + cs.length) * fs.bcs

/-- A write leaves the room for the file the same: a cluster that it takes was free. -/
theorem WritesOn.room_eq {fp' : Fil} {cs' : List Nat} {data : List UInt8}
    (h : WritesOn t fs d fp cs data fs' d' fp' cs') : room fs' d' cs' = room fs d cs := by
  unfold room
  rw [h.count, h.frame.geometry]

/-- The size of a file is within the room for it: its clusters hold all its bytes. -/
theorem Opened.le_room (ho : Opened fs d fp cs) : fp.objsize.toNat ≤ room fs d cs :=
  ho.size.trans (Nat.mul_le_mul_right _ (Nat.le_add_left _ _))

/-- The loop of `f_write` ends after `btw` bytes, or when the volume is full, unless the drive
fails. By induction on the rounds, each of which writes at least one byte. `room` is how far the
chain and the free clusters go, so the number of the bytes is known in advance. -/
theorem keeps_writeLoop {fuel : Nat} (hs : Sound t fs d) (ho : Opened fs d fp cs) (wbuff : Buf)
    (btw bw : UInt32) (hfuel : btw.toNat ≤ fuel) (hwrap : fp.fptr.toNat + btw.toNat < 2 ^ 32)
    (hbw : bw.toNat + btw.toNat < 2 ^ 32) :
    Ends ok (writeLoop fuel fs fp wbuff btw bw) (fun r d' =>
      (∃ (n : Nat) (cs' : List Nat), r.1 = .ok ∧ r.2.1.toNat = bw.toNat + n ∧
        n = min btw.toNat (room fs d cs - fp.fptr.toNat) ∧ r.2.2.1.faModified = true ∧
        WritesOn t fs d fp cs (Blocks.slice wbuff bw.toNat n) r.2.2.2 d' r.2.2.1 cs') ∨
      r.1 = .diskErr ∧ MayFail ok ∧ ∃ cs', Frame cs cs' fs d r.2.2.2 d') d := by
  have hnone : Blocks.slice wbuff bw.toNat 0 = [] := rfl
  induction fuel generalizing fs d fp cs btw bw with
  | zero =>
    refine .inl ⟨0, cs, rfl, rfl, by omega, rfl, ?_⟩
    rw [hnone]
    exact (WritesOn.refl hs ho).modified
  | succ fuel ih =>
    rw [writeLoop]
    by_cases hend : btw = 0
    · subst hend
      rw [if_pos rfl]
      refine .inl ⟨0, cs, rfl, rfl, (Nat.zero_min _).symm, rfl, ?_⟩
      rw [hnone]
      exact (WritesOn.refl hs ho).modified
    · have hpos : 0 < btw.toNat := by
        have hne : btw.toNat ≠ 0 := fun h => hend (UInt32.toNat_inj.1 h)
        omega
      rw [if_neg hend]
      refine always_seq (keeps_writeRound hs ho wbuff bw hpos hwrap) ?_
      rintro ⟨r, fp', fs'⟩ d' (⟨cnt, cs', rfl, hcpos, hle, hon⟩ |
        ⟨rfl, rfl, hlooked, hcount, hfull⟩ | ⟨rfl, hfail, hframe⟩)
      · dsimp only at hon ⊢
        have hsub : (btw - cnt).toNat = btw.toNat - cnt.toNat :=
          UInt32.toNat_sub_of_le _ _ (UInt32.le_iff_toNat_le.2 hle)
        have hadd : (bw + cnt).toNat = bw.toNat + cnt.toNat := by
          rw [UInt32.toNat_add]
          omega
        have hptr := hon.fptr
        have hroom := hon.room_eq
        have hcap := hon.opened.le_room
        have hin := hon.opened.ptr
        rw [Blocks.length_slice] at hptr
        have hfuel' : (btw - cnt).toNat ≤ fuel := by omega
        have hwrap' : (fp'.grow cnt).fptr.toNat + (btw - cnt).toNat < 2 ^ 32 := by omega
        have hbw' : (bw + cnt).toNat + (btw - cnt).toNat < 2 ^ 32 := by omega
        -- the rest of the data
        refine always_mono ?_
          (ih hon.sound hon.opened (btw - cnt) (bw + cnt) hfuel' hwrap' hbw' rfl)
        rintro ⟨res, bw', fp'', fs''⟩ d'' (⟨n, cs'', rfl, hbw', hn, hmod, hrest⟩ |
          ⟨rfl, hfail, cs'', hframe⟩)
        · dsimp only at hbw' hrest ⊢
          refine .inl ⟨cnt.toNat + n, cs'', rfl, by omega, by omega, hmod, ?_⟩
          rw [Blocks.slice_add, ← hadd]
          exact hon.trans hrest
        · exact .inr ⟨rfl, hfail, cs'', hon.frame.trans hframe⟩
      · dsimp only at hlooked hfull ⊢
        have hroom : room fs d cs = fp'.fptr.toNat := by
          unfold room
          rw [hcount, Nat.zero_add, hfull]
        refine .inl ⟨0, cs, rfl, rfl, by omega, rfl, ?_⟩
        rw [hnone]
        have hg := hlooked.grown hs ho
        exact (hg.writesOn ho (WritesOn.refl hg.sound hg.opened)).modified
      · exact .inr ⟨rfl, hfail, hframe⟩

/-- The data is in the content of the file, over what was there. -/
theorem WritesOn.content (ho : Opened fs d fp cs) {fp' : Fil} {cs' : List Nat} {data : List UInt8}
    (h : WritesOn t fs d fp cs data fs' d' fp' cs') :
    fp'.content fs' d' cs' = (fp.content fs d cs).take fp.fptr.toNat ++ data ++
      (fp.content fs d cs).drop (fp.fptr.toNat + data.length) := by
  have hsplice := Blocks.slice_store_splice (fp.mem fs d cs) 0 ho.ptr data
  rw [Nat.zero_add] at hsplice
  unfold Fil.content
  rw [← hsplice, ← h.objsize]
  refine Blocks.slice_congr _ _ fun i hi => ?_
  rw [Nat.zero_add]
  exact h.mem i hi

/-- A file that is not open for writing. -/
theorem denied_fWrite (hw : fs.WellFormed t) (hu : Usable fs fp) (hwrite : ¬ fp.faWrite = true)
    (wbuff : Buf) (btw : UInt32) :
    Ends ok (fWrite fs fp wbuff btw) (fun r d' => d' = d ∧
      (r = (.denied, 0, fp, fs) ∨ r = (.invalidObject, 0, fp, fs) ∧ MayFail ok)) d := by
  unfold fWrite
  refine always_seq (keeps_validate hw hu) ?_
  rintro res d' ⟨rfl, rfl | ⟨rfl, hfail⟩⟩
  · rw [if_neg (by decide), if_neg (by simp [hu.err]), if_pos hwrite]
    exact ⟨rfl, .inl rfl⟩
  · rw [if_pos (by decide)]
    exact ⟨rfl, .inr ⟨rfl, hfail⟩⟩

/-- `f_write` writes `btw` bytes at the file pointer, less only where the file would reach 4 GiB
or the volume is full, unless the drive fails. -/
theorem keeps_fWrite (hs : Sound t fs d) (ho : Opened fs d fp cs) (hu : Usable fs fp)
    (hwrite : fp.faWrite = true) (wbuff : Buf) (btw : UInt32) :
    Ends ok (fWrite fs fp wbuff btw) (fun r d' =>
      (∃ cs', r.1 = .ok ∧
        r.2.1.toNat = min (min btw.toNat (2 ^ 32 - 1 - fp.fptr.toNat))
          (room fs d cs - fp.fptr.toNat) ∧
        r.2.2.1.faModified = true ∧
        WritesOn t fs d fp cs (Blocks.slice wbuff 0 r.2.1.toNat) r.2.2.2 d' r.2.2.1 cs') ∨
      (r.1 = .diskErr ∨ r.1 = .invalidObject) ∧ MayFail ok ∧
        ∃ cs', Frame cs cs' fs d r.2.2.2 d') d := by
  unfold fWrite
  refine always_seq (keeps_validate hs.wellFormed hu) ?_
  rintro res d' ⟨rfl, rfl | ⟨rfl, hfail⟩⟩
  · rw [if_neg (by decide), if_neg (by simp [hu.err]), if_neg (by simp [hwrite])]
    dsimp only
    -- `btw` is clipped where the file pointer would wrap
    have hptr := fp.fptr.toNat_lt
    have hbtw := btw.toNat_lt
    have hadd : (fp.fptr + btw).toNat = (fp.fptr.toNat + btw.toNat) % 2 ^ 32 :=
      UInt32.toNat_add _ _
    have htop : (0xFFFFFFFF - fp.fptr).toNat = 2 ^ 32 - 1 - fp.fptr.toNat :=
      UInt32.toNat_sub_of_le _ _ (UInt32.le_iff_toNat_le.2 (by
        show fp.fptr.toNat ≤ 2 ^ 32 - 1
        omega))
    have hmin : (if fp.fptr + btw < fp.fptr then 0xFFFFFFFF - fp.fptr else btw).toNat =
        min btw.toNat (2 ^ 32 - 1 - fp.fptr.toNat) := by
      by_cases hlt : fp.fptr + btw < fp.fptr
      · have hnat := UInt32.lt_iff_toNat_lt.1 hlt
        rw [if_pos hlt]
        omega
      · have hnat := mt UInt32.lt_iff_toNat_lt.2 hlt
        rw [if_neg hlt]
        omega
    generalize (if fp.fptr + btw < fp.fptr then 0xFFFFFFFF - fp.fptr else btw) = n at hmin ⊢
    have hzero : (0 : UInt32).toNat = 0 := rfl
    refine always_mono ?_ (keeps_writeLoop hs ho wbuff n 0 (Nat.le_refl _) (by omega) (by omega))
    rintro ⟨res, bw, fp', fs'⟩ d' (⟨m, cs', rfl, hbw, hm, hmod, hon⟩ | ⟨rfl, hfail, hframe⟩)
    · dsimp only at hbw hmod hon ⊢
      rw [hzero, Nat.zero_add] at hbw
      rw [hzero, ← hbw] at hon
      exact .inl ⟨cs', rfl, by rw [hbw, hm, hmin], hmod, hon⟩
    · exact .inr ⟨.inl rfl, hfail, hframe⟩
  · rw [if_pos (by decide)]
    exact .inr ⟨.inr rfl, hfail, cs, Frame.refl hs.coherent ho.chain.clst⟩

/-- `f_write` puts the data over the bytes at the file pointer and behind them, and stretches the
file over free clusters where it ends before. It writes less than it is asked for only at 4 GiB or
when the volume is full. The other files stay, even when the drive fails. -/
theorem fWrite_writes (hs : Sound t fs d) (ho : Opened fs d fp cs) (hu : Usable fs fp)
    (hwrite : fp.faWrite = true) (wbuff : Buf) (btw : UInt32) :
    Ends ok (fWrite fs fp wbuff btw) (fun r d' => OthersKept cs fs d r.2.2.2 d' ∧
      ((r.1 = .ok ∧
          r.2.1.toNat = min (min btw.toNat (2 ^ 32 - 1 - fp.fptr.toNat))
            (room fs d cs - fp.fptr.toNat) ∧
          ∃ cs', Sound t r.2.2.2 d' ∧ Opened r.2.2.2 d' r.2.2.1 cs' ∧
            r.2.2.1.content r.2.2.2 d' cs' =
              (fp.content fs d cs).take fp.fptr.toNat ++ Blocks.slice wbuff 0 r.2.1.toNat ++
                (fp.content fs d cs).drop (fp.fptr.toNat + r.2.1.toNat) ∧
            r.2.2.1.fptr.toNat = fp.fptr.toNat + r.2.1.toNat ∧ r.2.2.1.faModified = true ∧
            room r.2.2.2 d' cs' = room fs d cs) ∨
        (r.1 = .diskErr ∨ r.1 = .invalidObject) ∧ MayFail ok)) d := by
  refine always_mono ?_ (keeps_fWrite hs ho hu hwrite wbuff btw)
  rintro ⟨res, bw, fp', fs'⟩ d' (⟨cs', hok, hbw, hmod, hon⟩ | ⟨herr, hfail, cs', hframe⟩)
  · have hlen : (Blocks.slice wbuff 0 bw.toNat).length = bw.toNat := Blocks.length_slice _ _ _
    have hcontent := hon.content ho
    have hfptr := hon.fptr
    dsimp only at hcontent hfptr ⊢
    rw [hlen] at hcontent hfptr
    exact ⟨hon.frame.othersKept hs.wellFormed, .inl ⟨hok, hbw, cs', hon.sound, hon.opened,
      hcontent, hfptr, hmod, hon.room_eq⟩⟩
  · exact ⟨hframe.othersKept hs.wellFormed, .inr ⟨herr, hfail⟩⟩

/-- A write of 5000 bytes over the sample file. -/
theorem fWrite_small :
    Ends AnyAnswer (fWrite smallFs smallFil (fun _ => 7) 5000) (fun r d' =>
      OthersKept [2] smallFs smallDisk r.2.2.2 d' ∧
      ((r.1 = .ok ∧
          r.2.1.toNat = min (min 5000 (2 ^ 32 - 1 - 0)) (room smallFs smallDisk [2] - 0) ∧
          ∃ cs', Sound .fat12 r.2.2.2 d' ∧ Opened r.2.2.2 d' r.2.2.1 cs' ∧
            r.2.2.1.content r.2.2.2 d' cs' =
              (smallFil.content smallFs smallDisk [2]).take 0 ++
                Blocks.slice (fun _ => 7) 0 r.2.1.toNat ++
                (smallFil.content smallFs smallDisk [2]).drop (0 + r.2.1.toNat) ∧
            r.2.2.1.fptr.toNat = 0 + r.2.1.toNat ∧ r.2.2.1.faModified = true ∧
            room r.2.2.2 d' cs' = room smallFs smallDisk [2]) ∨
        (r.1 = .diskErr ∨ r.1 = .invalidObject) ∧ MayFail AnyAnswer)) smallDisk :=
  fWrite_writes small_sound small_opened small_usable rfl (fun _ => 7) 5000

end NucleoH743.Ff
