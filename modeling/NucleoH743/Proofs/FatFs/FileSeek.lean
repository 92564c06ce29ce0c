import NucleoH743.Proofs.FatFs.FileWrite

/-!
# `Proofs.FatFs.FileSeek`: `f_lseek` moves the file pointer

The seek follows the chain from the current cluster or from the first one. A file that is open for
writing grows on the way, as far as there are free clusters.

The loop of `f_lseek` counts the offset down by a cluster and goes on along the chain, by a look at
the FAT or, in a file that is open for writing, by `create_chain`. `Seeking` is its invariant: the
object is open on a chain that begins with the chain it had. `Arrives` says where it has to go from
there.

The seek starts at the current cluster where the offset is not in front of it, and at the first
cluster else. It ends in three ways: at the cluster of the offset, at a volume that is full, or with
an error of the drive.

- `keeps_seekStart`: where the seek starts.
- `keeps_seekLoop`: it arrives at the cluster of the offset.
- `keeps_fLseek`: the file pointer is at the offset, and what the file held is in front of it.
-/

set_option autoImplicit false

namespace NucleoH743.Ff

open Diskio Mkfs Chains
open Prog (always_seq always_mono)

variable {ok : Answer → Prop} {t : FatType} {fs fs' : Fatfs} {d d' : Image} {fp : Fil}
  {cs : List Nat}

/-- The file object without a position. -/
def Fil.rewound (fp : Fil) : Fil := { fp with fptr := 0, clust := 0 }

/-- A file object that is wound back to its first byte is open on the same chain. -/
theorem Opened.rewound (ho : Opened fs d fp cs) : Opened fs d fp.rewound cs where
  chain := ho.chain
  head := ho.head
  size := ho.size
  ptr := Nat.zero_le _
  clust := fun h => absurd h (Nat.lt_irrefl 0)
  sect := fun h => absurd rfl h
  shown := ho.shown
  dirty := ho.dirty
  holds := ho.holds
  away := ho.away

/-- A chain that grows gets no shorter. -/
theorem Grown.length_le (ho : Opened fs d fp cs) {sclust : UInt32} {cs' : List Nat}
    (h : Grown t fs d fp cs sclust fs' d' cs') : cs.length ≤ cs'.length :=
  (List.subperm_of_subset ho.chain.nodup h.frame.grows).length_le

/-- The chain has grown twice. -/
theorem Grown.trans (ho : Opened fs d fp cs) {sclust sclust' : UInt32} {cs' cs'' : List Nat}
    {fs'' : Fatfs} {d'' : Image} (h : Grown t fs d fp cs sclust fs' d' cs')
    (h' : Grown t fs' d' { fp with sclust := sclust } cs' sclust' fs'' d'' cs'') :
    Grown t fs d fp cs sclust' fs'' d'' cs'' where
  frame := h.frame.trans h'.frame
  sound := h'.sound
  opened := h'.opened
  mem := by
    intro i hi
    have hle : cs.length * fs.bcs ≤ cs'.length * fs.bcs :=
      Nat.mul_le_mul_right _ (h.length_le ho)
    have hbcs : fs'.bcs = fs.bcs := congrArg Geometry.bcs h.frame.geometry
    exact (h'.mem i (by rw [hbcs]; omega)).trans (h.mem i hi)
  count := h'.count.trans h.count

/-- The room for the file is the same before and after: a cluster that the chain has taken was
free. -/
theorem Grown.room_eq {sclust : UInt32} {cs' : List Nat}
    (h : Grown t fs d fp cs sclust fs' d' cs') : room fs' d' cs' = room fs d cs := by
  unfold room
  rw [h.count, h.frame.geometry]

/-- The cluster size as the code computes it. -/
theorem toNat_bcs (g : Geometry) : (g.csize.toUInt32 * ss).toNat = g.bcs := by
  have hlt := g.csize.toNat_lt
  have hss : ss.toNat = 4096 := rfl
  unfold Geometry.bcs
  rw [UInt32.toNat_mul, UInt16.toNat_toUInt32, hss]
  exact Nat.mod_eq_of_lt (by omega)

/-- The begin of the cluster. The mask clears the low bits of the offset. The size of a cluster is a
power of two, so this is the largest multiple of it that is not above the offset. -/
theorem toNat_clusterStart {g : Geometry} (hw : g.WellFormed t) {bcs : UInt32}
    (hbcs : bcs.toNat = g.bcs) (x : UInt32) :
    (x &&& ~~~(bcs - 1)).toNat = x.toNat / g.bcs * g.bcs := by
  obtain ⟨k, hk⟩ := hw.csize
  have hsize := g.csize.toNat_lt
  have hpow : g.bcs = 2 ^ (k + 12) := by
    unfold Geometry.bcs
    rw [hk, Nat.pow_add]
  have hlt : k + 12 < 32 := by
    have hk16 : k < 16 := (Nat.pow_lt_pow_iff_right (by decide : 1 < 2)).1 (by omega)
    omega
  have hone : (1 : UInt32) ≤ bcs := by
    rw [UInt32.le_iff_toNat_le, hbcs]
    exact hw.bcs_pos
  have hsub : (bcs - 1).toNat = 2 ^ (k + 12) - 1 := by
    rw [UInt32.toNat_sub_of_le _ _ hone, hbcs, hpow]
    rfl
  have hmask : (~~~(bcs - 1)).toNat = (2 ^ (32 - (k + 12)) - 1) <<< (k + 12) := by
    have hsum : 2 ^ (32 - (k + 12)) * 2 ^ (k + 12) = 2 ^ 32 := by
      rw [← Nat.pow_add]
      congr 1
      omega
    have hpos : 0 < 2 ^ (k + 12) := Nat.two_pow_pos _
    rw [UInt32.toNat_not, hsub, Nat.shiftLeft_eq, Nat.sub_mul, hsum]
    show 2 ^ 32 - 1 - (2 ^ (k + 12) - 1) = _
    omega
  have hx : x.toNat < 2 ^ (k + 12 + (32 - (k + 12))) := by
    have htop := x.toNat_lt
    have hsum : k + 12 + (32 - (k + 12)) = 32 := by omega
    rwa [hsum]
  rw [UInt32.toNat_and, hmask, Bits.and_high hx, hpow]

/-! ### Along the chain -/

/-- The seek has come to `fp'`, on the chain `cs'`. -/
structure Seeking (t : FatType) (fs : Fatfs) (d : Image) (fp : Fil) (cs : List Nat) (fs' : Fatfs)
    (d' : Image) (fp' : Fil) (cs' : List Nat) : Prop where
  grown : Grown t fs d fp.rewound cs fp'.sclust fs' d' cs'
  same : fp'.rewound = { fp.rewound with sclust := fp'.sclust }
  kept : fp.faWrite = false → cs' = cs

/-- A seek that has not begun has come to where the file is. -/
theorem Seeking.refl (hs : Sound t fs d) (ho : Opened fs d fp.rewound cs) :
    Seeking t fs d fp cs fs d fp cs :=
  ⟨(Looked.refl hs.coherent).grown hs ho, rfl, fun _ => rfl⟩

/-- A seek leaves the directory entry of the file object alone. -/
theorem Seeking.toOpen {fp' : Fil} {cs' : List Nat} (h : Seeking t fs d fp cs fs' d' fp' cs') :
    fp'.toFilOpen = fp.toFilOpen := by
  show fp'.rewound.toFilOpen = _
  rw [h.same]
  rfl

/-- It leaves the size alone until it is over. -/
theorem Seeking.objsize {fp' : Fil} {cs' : List Nat} (h : Seeking t fs d fp cs fs' d' fp' cs') :
    fp'.objsize = fp.objsize := by
  show fp'.rewound.objsize = _
  rw [h.same]
  rfl

/-- It does not mark the file as changed. -/
theorem Seeking.faModified {fp' : Fil} {cs' : List Nat}
    (h : Seeking t fs d fp cs fs' d' fp' cs') : fp'.faModified = fp.faModified := by
  show fp'.rewound.faModified = _
  rw [h.same]
  rfl

/-- It keeps the error that was met before. -/
theorem Seeking.err {fp' : Fil} {cs' : List Nat} (h : Seeking t fs d fp cs fs' d' fp' cs') :
    fp'.err = fp.err := by
  show fp'.rewound.err = _
  rw [h.same]
  rfl

/-- Along a seek the file object is open on its chain, wherever it points to. -/
theorem Seeking.opened {fp' : Fil} {cs' : List Nat} (h : Seeking t fs d fp cs fs' d' fp' cs') :
    Opened fs' d' fp'.rewound cs' := by
  rw [h.same]
  exact h.grown.opened

/-- A seek in two parts: the second begins on the chain that the first has come to. -/
theorem Seeking.trans (ho : Opened fs d fp.rewound cs) {fs'' : Fatfs} {d'' : Image}
    {fp' fp'' : Fil} {cs' cs'' : List Nat} (h : Seeking t fs d fp cs fs' d' fp' cs')
    (h' : Seeking t fs' d' fp' cs' fs'' d'' fp'' cs'') :
    Seeking t fs d fp cs fs'' d'' fp'' cs'' where
  grown := by
    have hg := h'.grown
    rw [h.same] at hg
    exact h.grown.trans ho hg
  same := by
    rw [h'.same, h.same]
  kept := by
    intro hread
    have hread' : fp'.faWrite = false := (congrArg FilOpen.faWrite h.toOpen).trans hread
    rw [h'.kept hread', h.kept hread]

/-- The next cluster. A file that is open for writing may get a new cluster here, or none if the
volume is full. One that is open for reading only follows its chain. -/
theorem keeps_seekNext (hs : Sound t fs d) (ho : Opened fs d fp.rewound cs) {clst : UInt32}
    {i : Nat} (hget : cs[i]? = some clst.toNat)
    (hread : fp.faWrite = false → i + 1 < cs.length) :
    Ends ok (if fp.faWrite then createChain fs clst else getFat fs clst) (fun r d' =>
      (∃ cs', Seeking t fs d fp cs r.2 d' fp cs' ∧ fs.Clst r.1.toNat ∧
        cs'[i + 1]? = some r.1.toNat) ∨
      (r.1 = 0 ∧ fp.faWrite = true ∧ Looked fs d r.2 d' ∧ fs.freeClusters d = 0 ∧
        i + 1 = cs.length) ∨
      r.1 = 0xFFFFFFFF ∧ MayFail ok ∧ Frame cs cs fs d r.2 d') d := by
  by_cases hwrite : fp.faWrite = true
  · rw [if_pos hwrite]
    refine always_mono ?_ (keeps_nextClust hs ho hget)
    rintro ⟨ncl, fs1⟩ d1 (⟨cs', hg, hc, hnext⟩ | ⟨hzero, hlooked, hcount, hlen⟩ | hfailed)
    · refine .inl ⟨cs', ⟨hg, rfl, fun hf => ?_⟩, hc, hnext⟩
      rw [hwrite] at hf
      exact absurd hf (by decide)
    · exact .inr (.inl ⟨hzero, hwrite, hlooked, hcount, hlen⟩)
    · exact .inr (.inr hfailed)
  · rw [if_neg hwrite]
    have hlt := hread (by simpa using hwrite)
    obtain ⟨hi, hclst⟩ := List.getElem?_eq_some_iff.1 hget
    have hc := ho.chain.clst _ (List.getElem_mem hi)
    rw [hclst] at hc
    refine always_mono ?_ (keeps_getFat hs.wellFormed hs.coherent hc.1 hc.2)
    rintro ⟨ncl, fs1⟩ d1 ⟨hlooked, hncl⟩
    have hg := hlooked.grown hs ho
    rcases hncl with hncl | ⟨rfl, hfail⟩
    · have hlink := ho.chain.linked.next_getElem (Nat.lt_of_succ_lt hlt) hlt
      rw [hclst, ← hncl] at hlink
      have hcn := ho.chain.clst _ (List.getElem_mem hlt)
      rw [← hlink] at hcn
      refine .inl ⟨cs, ⟨hg, rfl, fun _ => rfl⟩, hcn, ?_⟩
      rw [List.getElem?_eq_getElem hlt, hlink]
    · exact .inr (.inr ⟨rfl, hfail, hg.frame⟩)

/-- The file pointer has to go `ofs` bytes further, to `pos`. -/
structure Arrives (g : Geometry) (cs : List Nat) (fp : Fil) (clst ofs : UInt32) (pos : Nat) :
    Prop where
  fptr : fp.fptr.toNat + ofs.toNat = pos
  start : fp.fptr.toNat % g.bcs = 0
  clust : 0 < pos → cs[(pos - 1) / g.bcs]? = some fp.clust.toNat
  sect : ofs.toNat % 4096 ≠ 0 → clst = fp.clust ∧ ofs.toNat < g.bcs

/-- What a seek comes to that has to go to `pos`. -/
def Seeks (ok : Answer → Prop) (t : FatType) (fs : Fatfs) (d : Image) (fp : Fil) (cs : List Nat)
    (pos : Nat) (r : Except FResult (UInt32 × UInt32) × Fil × Fatfs) (d' : Image) : Prop :=
  (∃ (clst ofs : UInt32) (cs' : List Nat), r.1 = .ok (clst, ofs) ∧
    Seeking t fs d fp cs r.2.2 d' r.2.1 cs' ∧ Arrives fs.toGeometry cs' r.2.1 clst ofs pos) ∨
  r.1 = .error .diskErr ∧ MayFail ok ∧ ∃ cs', Frame cs cs' fs d r.2.2 d'

/-- The cluster following loop. By induction on the rounds, from a file pointer at the begin of
cluster `i` of the chain. Each round takes one cluster off the rest of the offset, until this lies
in the current cluster or the volume is full. -/
theorem keeps_seekLoop {bcs : UInt32} {fuel : Nat} (hs : Sound t fs d)
    (ho : Opened fs d fp.rewound cs) (hbcs : bcs.toNat = fs.bcs) {ofs : UInt32} {i : Nat}
    (hfuel : ofs.toNat ≤ fuel) (hget : cs[i]? = some fp.clust.toNat)
    (hptr : fp.fptr.toNat = i * fs.bcs) (hpos : 0 < ofs.toNat)
    (hwrap : fp.fptr.toNat + ofs.toNat < 2 ^ 32)
    (hread : fp.faWrite = false → fp.fptr.toNat + ofs.toNat ≤ cs.length * fs.bcs) :
    Ends ok (seekLoop bcs fuel fs fp fp.clust ofs)
      (Seeks ok t fs d fp cs (min (fp.fptr.toNat + ofs.toNat) (room fs d cs))) d := by
  induction fuel generalizing fs d fp cs ofs i with
  | zero => omega
  | succ fuel ih =>
    have hw := hs.wellFormed
    have hbpos := hw.bcs_pos
    obtain ⟨hi, -⟩ := List.getElem?_eq_some_iff.1 hget
    have hroom : cs.length * fs.bcs ≤ room fs d cs :=
      Nat.mul_le_mul_right _ (Nat.le_add_left _ _)
    have hnextle : (i + 1) * fs.bcs ≤ cs.length * fs.bcs := Nat.mul_le_mul_right _ hi
    rw [Nat.succ_mul] at hnextle
    rw [seekLoop]
    -- more than a cluster to go: the loop takes the next cluster of the chain
    by_cases hfar : bcs < ofs
    · rw [if_pos hfar]
      have hlt := UInt32.lt_iff_toNat_lt.1 hfar
      dsimp only
      have hsub : (ofs - bcs).toNat = ofs.toNat - fs.bcs := by
        rw [UInt32.toNat_sub_of_le _ _ (UInt32.le_iff_toNat_le.2 (Nat.le_of_lt hlt)), hbcs]
      have hadd : (fp.fptr + bcs).toNat = fp.fptr.toNat + fs.bcs := by
        rw [UInt32.toNat_add, hbcs]
        omega
      -- read access stays within the file, whose chain has that cluster
      have hmore : fp.faWrite = false → i + 1 < cs.length := by
        intro hf
        have hle := hread hf
        by_contra hge
        have hlen : cs.length = i + 1 := by omega
        rw [hlen, Nat.succ_mul] at hle
        omega
      refine always_seq (keeps_seekNext hs ho hget hmore) ?_
      rintro ⟨ncl, fs1⟩ d1 (⟨cs', hseek, hc, hnext⟩ | ⟨rfl, hwrite, hlooked, hcount, hlen⟩ |
        ⟨rfl, hfail, hframe⟩)
      · -- the next cluster is there, or was linked: the induction goes on from it
        dsimp only at hc hnext hseek ⊢
        obtain ⟨hzero, hone, hmax⟩ := clst_ne_code hw hc
        have hgeo := hseek.grown.frame.geometry
        have hvalid : ¬ (ncl ≤ 1 ∨ fs1.nFatent ≤ ncl) := by
          rw [congrArg Geometry.nFatent hgeo, UInt32.le_iff_toNat_le, UInt32.le_iff_toNat_le]
          have htwo := hc.1
          have hlt := hc.2
          have hone : (1 : UInt32).toNat = 1 := rfl
          omega
        rw [if_neg (fun h => hzero h.2), if_neg hmax, if_neg hvalid]
        have hgb : fs1.bcs = fs.bcs := congrArg Geometry.bcs hgeo
        have hseek' : Seeking t fs d fp cs fs1 d1
            { fp with fptr := fp.fptr + bcs, clust := ncl } cs' :=
          ⟨hseek.grown, rfl, hseek.kept⟩
        have hptr' : (fp.fptr + bcs).toNat = (i + 1) * fs1.bcs := by
          rw [hgb, hadd, hptr, Nat.succ_mul]
        have hread' : fp.faWrite = false →
            (fp.fptr + bcs).toNat + (ofs - bcs).toNat ≤ cs'.length * fs1.bcs := by
          intro hf
          have hle := hread hf
          rw [hgb, hseek.kept hf]
          omega
        have hrest := ih hseek.grown.sound hseek'.opened (by rw [hbcs, hgb])
          (by omega : (ofs - bcs).toNat ≤ fuel) hnext hptr' (by omega)
          (by omega : (fp.fptr + bcs).toNat + (ofs - bcs).toNat < 2 ^ 32) hread'
        refine always_mono ?_ hrest
        have htotal : (fp.fptr + bcs).toNat + (ofs - bcs).toNat = fp.fptr.toNat + ofs.toNat := by
          omega
        dsimp only
        rw [htotal, hseek.grown.room_eq]
        rintro r d2 (⟨clst', ofs', cs'', hr, hseek2, harr⟩ | ⟨hr, hfail, cs'', hframe⟩)
        · rw [hgeo] at harr
          exact .inl ⟨clst', ofs', cs'', hr, hseek'.trans ho hseek2, harr⟩
        · exact .inr ⟨hr, hfail, cs'', hseek'.grown.frame.trans hframe⟩
      · -- the volume is full
        dsimp only
        rw [if_pos ⟨hwrite, rfl⟩]
        have hfull : room fs d cs = i * fs.bcs + fs.bcs := by
          unfold room
          rw [hcount, Nat.zero_add, ← hlen, Nat.succ_mul]
        refine .inl ⟨0, 0, cs, rfl, ⟨hlooked.grown hs ho, rfl, fun _ => rfl⟩, ?_, ?_, ?_, ?_⟩
        · dsimp only
          show (fp.fptr + bcs).toNat + 0 = _
          omega
        · dsimp only
          rw [hadd, hptr, ← Nat.succ_mul, Nat.mul_mod_left]
        · intro _
          have hmin : min (fp.fptr.toNat + ofs.toNat) (room fs d cs) = i * fs.bcs + fs.bcs := by
            omega
          have hdiv : (i * fs.bcs + fs.bcs - 1) / fs.bcs = i := by
            have hinside := div_add_pred (f := i * fs.bcs) (b := fs.bcs) (n := fs.bcs) hbpos
              (by rw [Nat.mul_mod_left]; omega)
            rw [hinside, Nat.mul_div_cancel _ hbpos]
          dsimp only
          rw [hmin, hdiv]
          exact hget
        · exact fun hne => absurd rfl hne
      · -- the drive failed
        dsimp only
        rw [if_neg (fun h => absurd h.2 (by decide)), if_pos rfl]
        exact .inr ⟨rfl, hfail, cs, hframe⟩
    · -- the target lies in the current cluster: the loop ends where it stands
      rw [if_neg hfar]
      have hle : ofs.toNat ≤ fs.bcs := by
        have hnot := mt UInt32.lt_iff_toNat_lt.2 hfar
        omega
      have hmin : min (fp.fptr.toNat + ofs.toNat) (room fs d cs) = i * fs.bcs + ofs.toNat := by
        omega
      rw [hmin]
      refine .inl ⟨fp.clust, ofs, cs, rfl, Seeking.refl hs ho, ?_, ?_, ?_, ?_⟩
      · dsimp only
        omega
      · dsimp only
        rw [hptr, Nat.mul_mod_left]
      · intro _
        have hinside := div_add_pred (f := i * fs.bcs) (b := fs.bcs) (n := ofs.toNat) hpos
          (by rw [Nat.mul_mod_left]; omega)
        dsimp only
        rw [hinside, Nat.mul_div_cancel _ hbpos]
        exact hget
      · intro hne
        have hne' : ofs.toNat ≠ fs.bcs := by
          intro heq
          rw [heq] at hne
          exact hne (Nat.mul_mod_left _ _)
        exact ⟨rfl, by omega⟩

/-! ### The seek -/

/-- The begin of the seek. Without a free cluster an empty file has none. The seek starts in the
current cluster if the target does not lie in front of it, and at the first cluster of the file
otherwise. An empty file that is open for writing gets its first cluster here. -/
theorem keeps_seekStart (hs : Sound t fs d) (ho : Opened fs d fp cs) {bcs : UInt32}
    (hbcs : bcs.toNat = fs.bcs) {ofs : UInt32} (hpos : 0 < ofs.toNat)
    (hread : fp.faWrite = false → ofs.toNat ≤ cs.length * fs.bcs) :
    Ends ok (seekStart fs { fp with fptr := 0 } fp.fptr ofs bcs) (fun r d' =>
      (∃ (ofs' : UInt32) (cs' : List Nat) (i : Nat), r.1 = .ok (r.2.1.clust, ofs') ∧
        Seeking t fs d fp cs r.2.2 d' r.2.1 cs' ∧ cs'[i]? = some r.2.1.clust.toNat ∧
        r.2.1.fptr.toNat = i * fs.bcs ∧ 0 < ofs'.toNat ∧
        r.2.1.fptr.toNat + ofs'.toNat = ofs.toNat) ∨
      (∃ ofs' : UInt32, r.1 = .ok (0, ofs') ∧ Seeking t fs d fp cs r.2.2 d' r.2.1 cs ∧
        r.2.1.fptr = 0 ∧ room fs d cs = 0) ∨
      r.1 = .error .diskErr ∧ MayFail ok ∧ Frame cs cs fs d r.2.2 d') d := by
  have hw := hs.wellFormed
  have hrefl := Seeking.refl hs ho.rewound
  unfold seekStart
  by_cases hback : 0 < fp.fptr ∧ (fp.fptr - 1) / bcs ≤ (ofs - 1) / bcs
  · -- the current cluster
    rw [if_pos hback]
    have hptr : 0 < fp.fptr.toNat := UInt32.lt_iff_toNat_lt.1 hback.1
    have hone : (1 : UInt32).toNat = 1 := rfl
    have hsub : (fp.fptr - 1).toNat = fp.fptr.toNat - 1 :=
      UInt32.toNat_sub_of_le _ _ (UInt32.le_iff_toNat_le.2 hptr)
    have hsub' : (ofs - 1).toNat = ofs.toNat - 1 :=
      UInt32.toNat_sub_of_le _ _ (UInt32.le_iff_toNat_le.2 hpos)
    have hle := UInt32.le_iff_toNat_le.1 hback.2
    rw [UInt32.toNat_div, UInt32.toNat_div, hsub, hsub', hbcs] at hle
    have hstart := toNat_clusterStart hw hbcs (fp.fptr - 1)
    rw [hsub] at hstart
    have hfront : (fp.fptr.toNat - 1) / fs.bcs * fs.bcs ≤ ofs.toNat - 1 :=
      (Nat.mul_le_mul_right _ hle).trans (Nat.div_mul_le_self _ _)
    have hofs : (ofs - ((fp.fptr - 1) &&& ~~~(bcs - 1))).toNat =
        ofs.toNat - (fp.fptr.toNat - 1) / fs.bcs * fs.bcs := by
      rw [UInt32.toNat_sub_of_le _ _ (by rw [UInt32.le_iff_toNat_le, hstart]; omega), hstart]
    refine .inl ⟨_, cs, (fp.fptr.toNat - 1) / fs.bcs, rfl, ⟨hrefl.grown, rfl, fun _ => rfl⟩,
      ho.clust hptr, hstart, ?_, ?_⟩
    · rw [hofs]
      omega
    · dsimp only
      rw [hofs, hstart]
      omega
  · rw [if_neg hback]
    -- from the top of the file: its first cluster, which an empty file has not got yet
    by_cases hfirst : fp.sclust = 0
    · rw [if_pos hfirst]
      have hnil := nil_of_head ho hfirst
      subst hnil
      refine always_seq (keeps_firstClust hs ho.rewound hfirst) ?_
      rintro ⟨clst, fs1⟩ d1 (⟨hg, hc⟩ | ⟨rfl, hlooked, hcount⟩ | ⟨rfl, hfail, hframe⟩)
      · -- the new cluster
        dsimp only at hg hc ⊢
        obtain ⟨-, hone, hmax⟩ := clst_ne_code hw hc
        rw [if_neg hone, if_neg hmax]
        refine .inl ⟨ofs, [clst.toNat], 0, rfl, ⟨hg, rfl, ?_⟩, rfl, ?_, hpos, ?_⟩
        · intro hf
          have hle := hread hf
          rw [List.length_nil, Nat.zero_mul] at hle
          omega
        · rw [Nat.zero_mul]
          rfl
        · exact Nat.zero_add _
      · -- none is free
        dsimp only
        rw [if_neg (by decide), if_neg (by decide)]
        have hg := hlooked.grown hs ho.rewound
        have hzero : fp.rewound.sclust = 0 := hfirst
        rw [hzero] at hg
        refine .inr (.inl ⟨ofs, rfl, ⟨hg, rfl, fun _ => rfl⟩, rfl, ?_⟩)
        unfold room
        rw [hcount]
        exact Nat.zero_mul _
      · -- the drive failed
        dsimp only
        rw [if_neg (by decide), if_pos rfl]
        exact .inr (.inr ⟨rfl, hfail, hframe⟩)
    · rw [if_neg hfirst]
      obtain ⟨hget, -⟩ := first_clst ho hfirst
      refine .inl ⟨ofs, cs, 0, rfl, ⟨hrefl.grown, rfl, fun _ => rfl⟩, hget, ?_, hpos, ?_⟩
      · rw [Nat.zero_mul]
        rfl
      · exact Nat.zero_add _

/-- The file object is at its file pointer, up to the sector buffer. -/
structure Positioned (g : Geometry) (cs : List Nat) (fp : Fil) (nsect : UInt32) : Prop where
  clust : 0 < fp.fptr.toNat → cs[(fp.fptr.toNat - 1) / g.bcs]? = some fp.clust.toNat
  sect : fp.fptr.toNat % 4096 ≠ 0 →
    sectAddr nsect = g.fileAddr cs (fp.fptr.toNat / 4096 * 4096)

/-- The sector of the offset. The offset is in the current cluster, and inside of a sector; a sector
is a part of one cluster. -/
theorem sectAddr_arrived (hw : fs.WellFormed t) (ho : Opened fs d fp.rewound cs)
    {clst ofs : UInt32} {pos : Nat} (h : Arrives fs.toGeometry cs fp clst ofs pos)
    (hne : ofs.toNat % 4096 ≠ 0) :
    clst2sect fs.toGeometry clst ≠ 0 ∧
      sectAddr (clst2sect fs.toGeometry clst + ofs / ss) = fs.fileAddr cs (pos / 4096 * 4096) := by
  obtain ⟨rfl, hlt⟩ := h.sect hne
  have hfptr := h.fptr
  have hget := h.clust (by omega)
  have hbpos := hw.bcs_pos
  obtain ⟨k, hk⟩ : ∃ k, fp.fptr.toNat = k * fs.bcs :=
    ⟨_, (Nat.div_mul_cancel (Nat.dvd_of_mod_eq_zero h.start)).symm⟩
  have hidx : (pos - 1) / fs.bcs = k := by
    have hinside := div_add_pred (f := k * fs.bcs) (b := fs.bcs) (n := ofs.toNat) (by omega)
      (by rw [Nat.mul_mod_left]; omega)
    rw [← hfptr, hk, hinside, Nat.mul_div_cancel _ hbpos]
  rw [hidx] at hget
  obtain ⟨hi, hclst⟩ := List.getElem?_eq_some_iff.1 hget
  have hc : fs.Clst fp.clust.toNat := by
    rw [← hclst]
    exact ho.chain.clst _ (List.getElem_mem hi)
  refine ⟨clst2sect_ne_zero hw hc, ?_⟩
  -- the sector begins in the same cluster
  have hbcs : k * fs.bcs = k * fs.csize.toNat * 4096 := by
    unfold Geometry.bcs
    rw [Nat.mul_assoc]
  have hsector : pos / 4096 * 4096 = k * fs.bcs + ofs.toNat / 4096 * 4096 := by omega
  have hinside : ofs.toNat / 4096 * 4096 < fs.bcs := by omega
  have hdiv : (k * fs.bcs + ofs.toNat / 4096 * 4096) / fs.bcs = k := by
    rw [Nat.mul_comm k, Nat.mul_add_div hbpos, Nat.div_eq_of_lt hinside, Nat.add_zero]
  have hmod : (k * fs.bcs + ofs.toNat / 4096 * 4096) % fs.bcs = ofs.toNat / 4096 * 4096 := by
    rw [Nat.mul_comm k, Nat.mul_add_mod, Nat.mod_eq_of_lt hinside]
  have hi' : (k * fs.bcs + ofs.toNat / 4096 * 4096) / fs.bcs < (cs.map fs.clstAddr).length := by
    rwa [hdiv, List.length_map]
  rw [hsector, Geometry.fileAddr, Scatter.addr_eq hi', List.getElem_map, hmod]
  simp only [hdiv, hclst]
  have hbase := toNat_clst2sect hw hc
  have hend := Geometry.clstAddr_end hw hc
  have hss : (ofs / ss).toNat = ofs.toNat / 4096 := UInt32.toNat_div ofs ss
  have hadd : (clst2sect fs.toGeometry fp.clust + ofs / ss).toNat =
      (clst2sect fs.toGeometry fp.clust).toNat + ofs.toNat / 4096 := by
    rw [UInt32.toNat_add, hss]
    unfold Geometry.clstAddr at hend
    omega
  show (clst2sect fs.toGeometry fp.clust + ofs / ss).toNat * 4096 = _
  rw [hadd, hbase, Nat.add_mul]
  rfl

/-- The seek along the chain. From the start the loop follows the chain. The file pointer ends at
the offset, or where the room of a full volume ends. -/
theorem keeps_seekChain (hs : Sound t fs d) (ho : Opened fs d fp cs) {ofs : UInt32}
    (hpos : 0 < ofs.toNat) (hread : fp.faWrite = false → ofs.toNat ≤ cs.length * fs.bcs) :
    Ends ok (seekChain fs { fp with fptr := 0 } fp.fptr ofs) (fun r d' =>
      (∃ (nsect : UInt32) (cs' : List Nat), r.1 = .ok nsect ∧
        Seeking t fs d fp cs r.2.2 d' r.2.1 cs' ∧
        r.2.1.fptr.toNat = min ofs.toNat (room fs d cs) ∧
        Positioned fs.toGeometry cs' r.2.1 nsect) ∨
      r.1 = .error .diskErr ∧ MayFail ok ∧ ∃ cs', Frame cs cs' fs d r.2.2 d') d := by
  have hofs := ofs.toNat_lt
  unfold seekChain
  refine always_seq (keeps_seekStart hs ho (toNat_bcs fs.toGeometry) hpos hread) ?_
  rintro ⟨r, fp1, fs1⟩ d1 (⟨ofs1, cs1, i, hr, hseek, hget, hptr, hpos1, htotal⟩ |
    ⟨ofs1, rfl, hseek, hzero, hroom⟩ | ⟨rfl, hfail, hframe⟩)
  · -- a cluster to start from: the loop follows the chain
    obtain rfl : r = .ok (fp1.clust, ofs1) := hr
    dsimp only at hseek hget hptr htotal ⊢
    have hgeo := hseek.grown.frame.geometry
    have hw1 := hseek.grown.sound.wellFormed
    have hgb : fs1.bcs = fs.bcs := congrArg Geometry.bcs hgeo
    have hne : fp1.clust ≠ 0 :=
      (clst_ne_code hw1 (hseek.opened.chain.clst _ (List.mem_of_getElem? hget))).1
    rw [if_pos hne]
    have hread1 : fp1.faWrite = false →
        fp1.fptr.toNat + ofs1.toNat ≤ cs1.length * fs1.bcs := by
      intro hf
      have hf' : fp.faWrite = false := (congrArg FilOpen.faWrite hseek.toOpen).symm.trans hf
      rw [htotal, hgb, hseek.kept hf']
      exact hread hf'
    have hloop : Ends ok _ _ d1 := keeps_seekLoop hseek.grown.sound hseek.opened
      (by rw [hgb]; exact toNat_bcs fs.toGeometry) (Nat.le_refl _) hget (by rw [hgb, hptr]) hpos1
      (by omega) hread1
    rw [htotal, hseek.grown.room_eq] at hloop
    refine always_seq hloop ?_
    rintro ⟨r, fp2, fs2⟩ d2 (⟨clst, ofs2, cs2, rfl, hseek2, harr⟩ | ⟨rfl, hfail, cs2, hframe⟩)
    · dsimp only at hseek2 harr ⊢
      have hall := hseek.trans ho.rewound hseek2
      have hw2 := hseek2.grown.sound.wellFormed
      have hgeo2 : fs2.toGeometry = fs1.toGeometry := hseek2.grown.frame.geometry
      have hfptr := harr.fptr
      have hadd : (fp2.fptr + ofs2).toNat = min ofs.toNat (room fs d cs) := by
        rw [UInt32.toNat_add, hfptr]
        omega
      have hclust : 0 < (fp2.fptr + ofs2).toNat →
          cs2[((fp2.fptr + ofs2).toNat - 1) / fs.bcs]? = some fp2.clust.toNat := by
        rw [hadd, ← hgb]
        exact harr.clust
      have hall' : Seeking t fs d fp cs fs2 d2 { fp2 with fptr := fp2.fptr + ofs2 } cs2 :=
        ⟨hall.grown, hall.same, hall.kept⟩
      -- only a target inside a sector names a sector for the buffer
      by_cases hpart : ofs2 % ss ≠ 0
      · rw [if_pos hpart]
        have hnat : ofs2.toNat % 4096 ≠ 0 := fun h => hpart ((mod_ss_eq_zero _).2 h)
        rw [← hgeo2] at harr
        obtain ⟨hsect, haddr⟩ := sectAddr_arrived hw2 hall.opened harr hnat
        rw [if_neg hsect]
        refine .inl ⟨_, cs2, rfl, hall', hadd, hclust, fun _ => ?_⟩
        dsimp only
        rw [haddr, hadd, hgeo2, hgeo]
      · rw [if_neg hpart]
        refine .inl ⟨0, cs2, rfl, hall', hadd, hclust, fun hne => ?_⟩
        have hnat := (mod_ss_eq_zero _).1 (not_not.1 hpart)
        have hdvd : 4096 ∣ fp2.fptr.toNat :=
          (Nat.dvd_mul_left 4096 _).trans (Nat.dvd_of_mod_eq_zero harr.start)
        dsimp only at hne
        rw [hadd] at hne
        omega
    · exact .inr ⟨rfl, hfail, cs2, hseek.grown.frame.trans hframe⟩
  · -- an empty file on a full volume: the pointer stays at its top
    dsimp only at hseek hzero ⊢
    rw [if_neg (by decide)]
    have hnat : fp1.fptr.toNat = 0 := by
      rw [hzero]
      rfl
    refine .inl ⟨0, cs, rfl, hseek, ?_, ?_, ?_⟩
    · rw [hroom, Nat.min_zero]
      exact hnat
    · dsimp only
      omega
    · dsimp only
      omega
  · exact .inr ⟨rfl, hfail, cs, hframe⟩

/-- What `f_lseek` leaves. -/
structure Sought (t : FatType) (fs : Fatfs) (d : Image) (fp : Fil) (cs : List Nat) (fs' : Fatfs)
    (d' : Image) (fp' : Fil) (cs' : List Nat) : Prop where
  frame : Frame cs cs' fs d fs' d'
  sound : Sound t fs' d'
  opened : Opened fs' d' fp' cs'
  mem : ∀ i < cs.length * fs.bcs, fp'.mem fs' d' cs' i = fp.mem fs d cs i
  toOpen : fp'.toFilOpen = fp.toFilOpen
  err : fp'.err = fp.err
  objsize : fp'.objsize.toNat = max fp.objsize.toNat fp'.fptr.toNat
  modified : fp'.faModified = (fp.faModified || decide (fp.objsize < fp'.fptr))
  kept : fp.faWrite = false → cs' = cs
  count : fs'.freeClusters d' + cs'.length = fs.freeClusters d + cs.length

/-- What the file held is still at its begin. -/
theorem Sought.content (ho : Opened fs d fp cs) {fp' : Fil} {cs' : List Nat}
    (h : Sought t fs d fp cs fs' d' fp' cs') :
    (fp'.content fs' d' cs').take fp.objsize.toNat = fp.content fs d cs := by
  have hsize := h.objsize
  have hold := ho.size
  unfold Fil.content
  rw [Blocks.take_slice, Nat.min_eq_left (by omega)]
  refine Blocks.slice_congr _ _ fun i hi => ?_
  rw [Nat.zero_add]
  exact h.mem i (by omega)

/-- The size after a seek behind the end of the file is its position. -/
theorem toNat_extend (fp : Fil) :
    fp.extend.objsize.toNat = max fp.objsize.toNat fp.fptr.toNat := by
  unfold Fil.extend
  dsimp only
  by_cases hlt : fp.objsize < fp.fptr
  · have hnat := UInt32.lt_iff_toNat_lt.1 hlt
    rw [if_pos hlt]
    omega
  · have hnat := mt UInt32.lt_iff_toNat_lt.2 hlt
    rw [if_neg hlt]
    omega

/-- The file object at the end of a seek, with the buffer in order. The chain may have grown, the
size of the file with the pointer, and the buffer may have been exchanged. What the file held is
still there, and the rest of the object is in order. -/
theorem Seeking.sought {fs1 : Fatfs} {d1 d2 : Image} {fp1 fp2 : Fil}
    {cs1 : List Nat} {nsect : UInt32} (hseek : Seeking t fs d fp cs fs1 d1 fp1 cs1)
    (hpos : Positioned fs.toGeometry cs1 fp1 nsect) (hown : OwnOnly cs1 fs1 d1 d2)
    (hfp2 : fp2 = { fp1.extend with sect := fp2.sect, buf := fp2.buf, faDirty := fp2.faDirty })
    (hview : fp2.view (fs1.view d2) = fp1.view (fs1.view d1))
    (hsect : fp2.fptr.toNat % 4096 ≠ 0 →
      sectAddr fp2.sect = fs1.fileAddr cs1 (fp2.fptr.toNat / 4096 * 4096))
    (hshown : fp2.sect.toNat < fs1.database.toNat ∨ fp2.Shows fs1.toGeometry cs1)
    (hdirty : fp2.faDirty = true → fp2.Shows fs1.toGeometry cs1)
    (hholds : fp2.Shows fs1.toGeometry cs1 → WriteBack.Holds 4096 fp2.buffer (fs1.view d2)) :
    Sought t fs d fp cs fs1 d2 fp2 cs1 := by
  have hw1 := hseek.grown.sound.wellFormed
  have hgeo := hseek.grown.frame.geometry
  have hgb : fs1.bcs = fs.bcs := congrArg Geometry.bcs hgeo
  have hfptr : fp2.fptr = fp1.fptr := by
    rw [hfp2]
    rfl
  have hclust : fp2.clust = fp1.clust := by
    rw [hfp2]
    rfl
  have hsclust : fp2.sclust = fp1.sclust := by
    rw [hfp2]
    rfl
  have hobj := hseek.objsize
  have hsize : fp2.objsize.toNat = max fp.objsize.toNat fp1.fptr.toNat := by
    rw [hfp2, ← hobj]
    exact toNat_extend fp1
  have hold := hseek.opened.size
  have hobj' : fp1.rewound.objsize = fp1.objsize := rfl
  rw [hobj', hobj] at hold
  -- the file pointer is in the chain
  have hin : fp1.fptr.toNat ≤ cs1.length * fs1.bcs := by
    rcases Nat.eq_zero_or_pos fp1.fptr.toNat with hzero | hgt
    · omega
    · obtain ⟨hi, -⟩ := List.getElem?_eq_some_iff.1 (hpos.clust hgt)
      have hlt := (Nat.div_lt_iff_lt_mul (hgb ▸ hw1.bcs_pos)).1 hi
      rw [hgb]
      omega
  constructor
  case frame => exact hseek.grown.frame.trans (hown.frame hw1 hseek.opened.chain.clst)
  case sound => exact hown.sound hseek.grown.sound
  case opened =>
    refine hseek.opened.moved hw1 hown hsclust (by omega) (by rw [hfptr]; omega) ?_ hsect hshown
      hdirty hholds
    rw [hfptr, hclust, hgb]
    exact hpos.clust
  case mem =>
    intro i hi
    have hgrown := hseek.grown.mem i hi
    unfold Fil.mem at hgrown ⊢
    rw [hview]
    have hbuf : fp1.view = fp.view := by
      have hrew : fp1.rewound.view = fp.view := by
        rw [hseek.same]
        rfl
      exact hrew
    rw [hbuf]
    exact hgrown
  case toOpen =>
    rw [hfp2]
    exact hseek.toOpen
  case err =>
    rw [hfp2]
    exact hseek.err
  case objsize => rw [hsize, hfptr]
  case modified =>
    rw [hfptr, ← hobj, ← hseek.faModified, hfp2]
    rfl
  case kept => exact hseek.kept
  case count =>
    rw [hown.freeClusters hw1]
    exact hseek.grown.count

/-- The end of the seek. Inside of a sector the buffer must hold it, so a dirty one is written back
and the sector is read. At a border of sectors nothing is read. -/
theorem keeps_seekEnd {fs1 : Fatfs} {d1 : Image} {fp1 : Fil}
    {cs1 : List Nat} {nsect : UInt32} (hseek : Seeking t fs d fp cs fs1 d1 fp1 cs1)
    (hpos : Positioned fs.toGeometry cs1 fp1 nsect) :
    Ends ok (seekEnd fs1 fp1 nsect) (fun r d' =>
      (r.1 = .ok ∧ r.2.1.fptr = fp1.fptr ∧ Sought t fs d fp cs r.2.2 d' r.2.1 cs1) ∨
      r.1 = .diskErr ∧ MayFail ok ∧ ∃ cs', Frame cs cs' fs d r.2.2 d') d1 := by
  have hs1 := hseek.grown.sound
  have hw1 := hs1.wellFormed
  have ho1 := hseek.opened
  have hgeo := hseek.grown.frame.geometry
  have hgb : fs1.bcs = fs.bcs := congrArg Geometry.bcs hgeo
  unfold seekEnd
  dsimp only
  -- inside a sector, the buffer has to show that sector
  by_cases hpart : fp1.extend.fptr % ss ≠ 0
  · rw [if_pos hpart]
    have hnat : fp1.fptr.toNat % 4096 ≠ 0 := fun h => hpart ((mod_ss_eq_zero _).2 h)
    have haddr := hpos.sect hnat
    rw [← hgeo] at haddr
    obtain ⟨hi, -⟩ := List.getElem?_eq_some_iff.1 (hpos.clust (by omega))
    have hlt := (Nat.div_lt_iff_lt_mul (hgb ▸ hw1.bcs_pos)).1 hi
    have hin : fs1.InClsts cs1 (sectAddr nsect) := by
      rw [haddr]
      exact fileAddr_mem hw1 (by rw [hgb]; omega)
    refine always_seq (keeps_loadSector fp1.extend hs1.coherent ho1.away ho1.dirty
      ho1.holds hin) ?_
    rintro ⟨res, fp2⟩ d2 ⟨hown, ⟨rfl, hview, hholds, hfp2⟩ | ⟨rfl, hfail⟩⟩
    · dsimp only at hview hholds hfp2 ⊢
      rw [if_neg (by decide)]
      have hsect2 : fp2.sect = nsect := by rw [hfp2]
      have hfptr2 : fp2.fptr = fp1.fptr := by
        rw [hfp2]
        rfl
      have hshows : fp2.Shows fs1.toGeometry cs1 := by
        unfold Fil.Shows
        rwa [hsect2]
      refine .inl ⟨rfl, hfptr2, hseek.sought hpos hown ?_ hview ?_ (.inr hshows)
        (fun _ => hshows) (fun _ => hholds)⟩
      · rw [hfp2]
      · intro _
        rw [hsect2, hfptr2]
        exact haddr
    · dsimp only
      rw [if_pos (by decide)]
      refine .inr ⟨rfl, hfail, cs1, hseek.grown.frame.trans (hown.frame hw1 ho1.chain.clst)⟩
  · -- at a sector's border the buffer is left alone
    rw [if_neg hpart]
    refine .inl ⟨rfl, rfl, hseek.sought hpos (OwnOnly.refl hs1.coherent) rfl rfl ?_ ho1.shown
      ho1.dirty ho1.holds⟩
    intro hne
    exact absurd ((mod_ss_eq_zero _).1 (not_not.1 hpart)) hne

/-- `f_lseek` moves the file pointer to `ofs`, or to the end of a file that is open for reading,
or to the end of the volume. What the file held stays. -/
theorem keeps_fLseek (hs : Sound t fs d) (ho : Opened fs d fp cs) (hu : Usable fs fp)
    (ofs : UInt32) :
    Ends ok (fLseek fs fp ofs) (fun r d' =>
      (∃ cs', r.1 = .ok ∧
        r.2.1.fptr.toNat =
          min ofs.toNat (if fp.faWrite then room fs d cs else fp.objsize.toNat) ∧
        Sought t fs d fp cs r.2.2 d' r.2.1 cs') ∨
      (r.1 = .diskErr ∨ r.1 = .invalidObject) ∧ MayFail ok ∧
        ∃ cs', Frame cs cs' fs d r.2.2 d') d := by
  have hsize := ho.size
  generalize htop : (if fp.faWrite then room fs d cs else fp.objsize.toNat) = top
  unfold fLseek
  refine always_seq (keeps_validate hs.wellFormed hu) ?_
  rintro res d' ⟨rfl, rfl | ⟨rfl, hfail⟩⟩
  · rw [if_neg (by decide), if_neg (by simp [hu.err])]
    dsimp only
    -- the offset of a file that is open for reading is clipped at its end
    have hclip : min (if fp.objsize < ofs ∧ ¬ fp.faWrite then fp.objsize else ofs).toNat
        (room fs d' cs) = min ofs.toNat top ∧
        (fp.faWrite = false →
          (if fp.objsize < ofs ∧ ¬ fp.faWrite then fp.objsize else ofs).toNat ≤
            fp.objsize.toNat) := by
      have hroom := ho.le_room
      by_cases hwrite : fp.faWrite = true
      · rw [if_pos hwrite] at htop
        rw [if_neg (fun h => h.2 hwrite), htop]
        refine ⟨rfl, fun hf => ?_⟩
        rw [hwrite] at hf
        exact absurd hf (by decide)
      · rw [if_neg hwrite] at htop
        by_cases hlt : fp.objsize < ofs
        · have hnat := UInt32.lt_iff_toNat_lt.1 hlt
          rw [if_pos ⟨hlt, hwrite⟩]
          omega
        · have hnat := mt UInt32.lt_iff_toNat_lt.2 hlt
          rw [if_neg fun h => hlt h.1]
          omega
    generalize (if fp.objsize < ofs ∧ ¬ fp.faWrite then fp.objsize else ofs) = n at hclip ⊢
    rw [← hclip.1]
    by_cases hpos : 0 < n
    · rw [if_pos hpos]
      have hread : fp.faWrite = false → n.toNat ≤ cs.length * fs.bcs := fun hf =>
        (hclip.2 hf).trans hsize
      refine always_seq (keeps_seekChain hs ho (UInt32.lt_iff_toNat_lt.1 hpos) hread) ?_
      rintro ⟨r, fp1, fs1⟩ d1 (⟨nsect, cs1, rfl, hseek, hptr, hat⟩ | ⟨rfl, hfail, cs1, hframe⟩)
      · dsimp only at hseek hptr hat ⊢
        refine always_mono ?_ (keeps_seekEnd hseek hat)
        rintro ⟨res, fp2, fs2⟩ d2 (⟨rfl, hptr2, hsought⟩ | ⟨rfl, hfail, cs2, hframe⟩)
        · refine .inl ⟨cs1, rfl, ?_, hsought⟩
          dsimp only at hptr2 ⊢
          rw [hptr2, hptr]
        · exact .inr ⟨.inl rfl, hfail, cs2, hframe⟩
      · exact .inr ⟨.inl rfl, hfail, cs1, hframe⟩
    · rw [if_neg hpos, Prog.pure_eq, Prog.ret_bind]
      dsimp only
      have hzero : n.toNat = 0 := by
        have hnot := mt UInt32.lt_iff_toNat_lt.2 hpos
        have hz : (0 : UInt32).toNat = 0 := rfl
        omega
      have hseek : Seeking t fs d' fp cs fs d' { fp with fptr := 0 } cs :=
        ⟨(Seeking.refl hs ho.rewound).grown, rfl, fun _ => rfl⟩
      refine always_mono ?_ (keeps_seekEnd hseek
        ⟨fun h => absurd h (Nat.lt_irrefl 0), fun h => absurd rfl h⟩)
      rintro ⟨res, fp2, fs2⟩ d2 (⟨rfl, hptr2, hsought⟩ | ⟨rfl, hfail, cs2, hframe⟩)
      · refine .inl ⟨cs, rfl, ?_, hsought⟩
        dsimp only at hptr2 ⊢
        rw [hptr2, hzero, Nat.zero_min]
        rfl
      · exact .inr ⟨.inl rfl, hfail, cs2, hframe⟩
  · rw [if_pos (by decide)]
    exact .inr ⟨.inr rfl, hfail, cs, Frame.refl hs.coherent ho.chain.clst⟩

/-- `f_lseek` moves the file pointer to `ofs`. A file that is open for reading ends the way there,
one that is open for writing grows, as far as there are free clusters. What it held is still at its
begin, and the object is in order for the next transfer. The other files stay, even when the drive
fails. -/
theorem fLseek_seeks (hs : Sound t fs d) (ho : Opened fs d fp cs) (hu : Usable fs fp)
    (ofs : UInt32) :
    Ends ok (fLseek fs fp ofs) (fun r d' => OthersKept cs fs d r.2.2 d' ∧
      ((r.1 = .ok ∧
          r.2.1.fptr.toNat =
            min ofs.toNat (if fp.faWrite then room fs d cs else fp.objsize.toNat) ∧
          ∃ cs', Sound t r.2.2 d' ∧ Opened r.2.2 d' r.2.1 cs' ∧
            (r.2.1.content r.2.2 d' cs').take fp.objsize.toNat = fp.content fs d cs ∧
            r.2.1.objsize.toNat = max fp.objsize.toNat r.2.1.fptr.toNat ∧
            (fp.faWrite = false → cs' = cs)) ∨
        (r.1 = .diskErr ∨ r.1 = .invalidObject) ∧ MayFail ok)) d := by
  refine always_mono ?_ (keeps_fLseek hs ho hu ofs)
  rintro ⟨res, fp', fs'⟩ d' (⟨cs', hok, hptr, hon⟩ | ⟨herr, hfail, cs', hframe⟩)
  · exact ⟨hon.frame.othersKept hs.wellFormed, .inl ⟨hok, hptr, cs', hon.sound, hon.opened,
      hon.content ho, hon.objsize, hon.kept⟩⟩
  · exact ⟨hframe.othersKept hs.wellFormed, .inr ⟨herr, hfail⟩⟩

/-- A seek on the small volume to a byte that it has no room for. -/
theorem fLseek_small :
    Ends AnyAnswer (fLseek smallFs smallFil 9000) (fun r d' =>
      OthersKept [2] smallFs smallDisk r.2.2 d' ∧
      ((r.1 = .ok ∧
          r.2.1.fptr.toNat = min 9000 (if true then room smallFs smallDisk [2] else 5) ∧
          ∃ cs', Sound .fat12 r.2.2 d' ∧ Opened r.2.2 d' r.2.1 cs' ∧
            (r.2.1.content r.2.2 d' cs').take 5 = smallFil.content smallFs smallDisk [2] ∧
            r.2.1.objsize.toNat = max 5 r.2.1.fptr.toNat ∧
            (smallFil.faWrite = false → cs' = [2])) ∨
        (r.1 = .diskErr ∨ r.1 = .invalidObject) ∧ MayFail AnyAnswer)) smallDisk :=
  fLseek_seeks small_sound small_opened small_usable 9000

end NucleoH743.Ff
