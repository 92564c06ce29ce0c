import NucleoH743.Lib.Chains
import NucleoH743.Proofs.FatFs.FatEntries

/-!
# `Proofs.FatFs.Chains`: `create_chain` and `remove_chain`

A chain of a volume is a chain in the table of its FAT that ends with an entry behind the
clusters. `Sound` is what a volume has besides its areas: no entry is 1, and the number of free
clusters is right where it is known.

`create_chain` is a search and a change. The search goes once around the clusters, and visits each
of them before it gives up, so a cluster that it does not find does not exist; that is what
`Sound.count` needs to be an equation. The change writes two entries, and by `FatFrame` no entry of
another chain, even when the drive fails between the two.

`remove_chain` follows a chain and frees each of its clusters behind itself. It reads the next
cluster before it frees the one it is at, so the induction is on the rest of the chain, and a
cluster occurs only once in it.

The last section puts these together for a volume with several chains: what happens to one of them
leaves the others.

- `keeps_createChain`: `create_chain` follows the chain, or puts a free cluster at its end. It
  finds one whenever there is one.
- `keeps_removeChain`: `remove_chain` frees the clusters of the chain, and no others.
-/

set_option autoImplicit false

namespace NucleoH743.Ff

open Diskio Mkfs Chains
open Prog (always_seq always_mono)

/-- The end mark of a chain. -/
def Geometry.Last (g : Geometry) (x : Nat) : Prop := g.nFatent.toNat ≤ x

/-- A cluster of the volume. -/
def Geometry.Clst (g : Geometry) (c : Nat) : Prop := 2 ≤ c ∧ c < g.nFatent.toNat

/-- The number of free clusters. -/
def Fatfs.freeClusters (fs : Fatfs) (d : Image) : Nat := freeCount (fs.fat d) fs.nFatent.toNat

/-- A volume in order. -/
structure Sound (t : FatType) (fs : Fatfs) (d : Image) : Prop where
  wellFormed : fs.WellFormed t
  coherent : fs.Coherent d
  sane : ∀ c, fs.Clst c → fs.fat d c ≠ 1
  count : fs.freeClst.toNat = fs.freeClusters d ∨ fs.nFatent.toNat - 2 < fs.freeClst.toNat

/-- The clusters `cs` are a chain of the volume. -/
structure Chain (fs : Fatfs) (d : Image) (cs : List Nat) : Prop where
  linked : Linked (fs.fat d) fs.Last cs
  clst : ∀ c ∈ cs, fs.Clst c

variable {ok : Answer → Prop} {t : FatType} {fs fs' : Fatfs} {d d' : Image}

/-! ### Entries of a sound volume -/

/-- The numbers of the clusters and the marks behind them fit an entry. -/
theorem two_pow_entryBits (t : FatType) : maxClst t + 2 < 2 ^ entryBits t := by
  cases t <;> decide

/-- An entry has at most 28 bits: FAT32 keeps the upper four for something else. -/
theorem entryBits_le (t : FatType) : 2 ^ entryBits t ≤ 2 ^ 28 := by
  cases t <;> decide

/-- So an entry is below 2^28, also on FAT32. -/
theorem fat_lt (hw : fs.WellFormed t) (c : Nat) : fs.fat d c < 2 ^ 28 := by
  have hbits := entryBits_le t
  have hlt : entryAt t (fs.fatMem d) c < 2 ^ entryBits t := Nat.mod_lt _ (Nat.two_pow_pos _)
  rw [fat_eq hw]
  omega

/-- The number that ends the clusters fits an entry, so it is a mark for the end of a chain. -/
theorem nFatent_lt (hw : fs.WellFormed t) : fs.nFatent.toNat < 2 ^ entryBits t := by
  have hlimit := hw.limit
  have hbits := two_pow_entryBits t
  omega

/-- The end mark that is stored. -/
theorem last_mark (hw : fs.WellFormed t) :
    fs.nFatent.toNat ≤ (0xFFFFFFFF : UInt32).toNat % 2 ^ entryBits t := by
  have hlimit := hw.limit
  cases t with
  | fat12 => exact hlimit.trans (by decide)
  | fat16 => exact hlimit.trans (by decide)
  | fat32 => exact hlimit.trans (by decide)

/-- A value that is read is no failure. -/
theorem ne_of_fat (hw : fs.WellFormed t) {v : UInt32} {c : Nat} (hv : v.toNat = fs.fat d c) :
    v ≠ 0xFFFFFFFF := by
  rintro rfl
  have hlt := fat_lt (d := d) hw c
  rw [← hv] at hlt
  exact absurd hlt (by decide)

/-- A cluster of a chain is not free, and its entry is not 1: it holds the next cluster or an end
mark. -/
theorem Chain.ne_zero (hw : fs.WellFormed t) {cs : List Nat} (h : Chain fs d cs) {c : Nat}
    (hc : c ∈ cs) : 2 ≤ fs.fat d c := by
  obtain ⟨i, hi, rfl⟩ := List.getElem_of_mem hc
  by_cases hlast : i + 1 = cs.length
  · have hmark := h.linked.last_getElem hi hlast
    exact (Nat.le_of_lt hw.entries).trans hmark
  · have hlt : i + 1 < cs.length := by omega
    rw [h.linked.next_getElem hi hlt]
    exact (h.clst _ (List.getElem_mem hlt)).1

/-- No cluster is twice in a chain, since the chain comes to an end. -/
theorem Chain.nodup {cs : List Nat} (h : Chain fs d cs) : cs.Nodup :=
  h.linked.nodup fun c hc => Nat.not_le.2 (h.clst c hc).2

/-- A chain stays when its entries do. -/
theorem Chain.congr {cs : List Nat} (h : Chain fs d cs) (hg : fs'.toGeometry = fs.toGeometry)
    (heq : ∀ c ∈ cs, fs'.fat d' c = fs.fat d c) : Chain fs' d' cs := by
  constructor
  · rw [hg]
    exact h.linked.congr heq
  · rw [hg]
    exact h.clst

/-- A look at the FAT leaves the volume in order. It may have moved the window, and neither the FAT
nor the record of the free clusters has changed. -/
theorem Sound.looked (hs : Sound t fs d) (h : Looked fs d fs' d') : Sound t fs' d' := by
  have hn : fs'.nFatent = fs.nFatent := congrArg Geometry.nFatent h.geometry
  have hclst : fs'.Clst = fs.Clst := congrArg Geometry.Clst h.geometry
  have hfree : fs'.freeClst = fs.freeClst := congrArg AllocInfo.freeClst h.alloc
  have hfat : ∀ c, fs.Clst c → fs'.fat d' c = fs.fat d c := fun c hc =>
    looked_fat hs.wellFormed h hc.2
  refine ⟨h.wellFormed hs.wellFormed, h.coherent, ?_, ?_⟩
  · intro c hc
    rw [hclst] at hc
    rw [hfat c hc]
    exact hs.sane c hc
  · have hcount : fs'.freeClusters d' = fs.freeClusters d := by
      unfold Fatfs.freeClusters
      rw [hn]
      exact freeCount_congr fun c htwo hlt => by rw [hfat c ⟨htwo, hlt⟩]
    rw [hcount, hn, hfree]
    exact hs.count

/-! ### The search for a free cluster -/

/-- What the search comes to. -/
def Found (ok : Answer → Prop) (fs : Fatfs) (d : Image) (r : Except UInt32 UInt32 × Fatfs)
    (d' : Image) : Prop :=
  Looked fs d r.2 d' ∧
    ((∃ ncl : UInt32, r.1 = .ok ncl ∧ fs.Clst ncl.toNat ∧ fs.fat d ncl.toNat = 0) ∨
      r.1 = .error 0 ∧ fs.freeClusters d = 0 ∨
      r.1 = .error 0xFFFFFFFF ∧ MayFail ok)

/-- What a look at the FAT has left is searched. The search speaks of the entries, which the look
has left as they were. -/
theorem Found.of_looked (hs : Sound t fs d) (h : Looked fs d fs' d')
    {r : Except UInt32 UInt32 × Fatfs} {d'' : Image} (hf : Found ok fs' d' r d'') :
    Found ok fs d r d'' := by
  have hn : fs'.nFatent = fs.nFatent := congrArg Geometry.nFatent h.geometry
  have hclst : fs'.Clst = fs.Clst := congrArg Geometry.Clst h.geometry
  obtain ⟨hlooked, hres⟩ := hf
  refine ⟨h.trans hlooked, ?_⟩
  rcases hres with ⟨ncl, hok, hc, hzero⟩ | ⟨herr, hcount⟩ | hfail
  · rw [hclst] at hc
    rw [looked_fat hs.wellFormed h hc.2] at hzero
    exact .inl ⟨ncl, hok, hc, hzero⟩
  · refine .inr (.inl ⟨herr, ?_⟩)
    unfold Fatfs.freeClusters at hcount ⊢
    rw [hn] at hcount
    rw [← hcount]
    exact freeCount_congr fun c _ hlt => by rw [looked_fat hs.wellFormed h hlt]
  · exact .inr (.inr hfail)

/-- One round of the search, at cluster `ncl`. `rest` is what follows when it is taken. The entry of
the cluster decides: it is free and taken, or in use, and then the round was the last one where the
cluster is `scl` again. An error of the drive ends the search. -/
theorem found_round (hs : Sound t fs d) {ncl : UInt32} (hc : fs.Clst ncl.toNat) (scl : UInt32)
    (rest : Fatfs → DiskProg (Except UInt32 UInt32 × Fatfs))
    (hlast : ncl = scl → fs.fat d ncl.toNat ≠ 0 → fs.freeClusters d = 0)
    (hrest : ncl ≠ scl → fs.fat d ncl.toNat ≠ 0 → ∀ fs' d', Looked fs d fs' d' →
      Ends ok (rest fs') (Found ok fs d) d') :
    Ends ok (do
      let (cs, fs) ← getFat fs ncl
      if cs = 0 then return (.ok ncl, fs)
      else if cs = 1 ∨ cs = 0xFFFFFFFF then return (.error cs, fs)
      else if ncl = scl then return (.error 0, fs)
      else rest fs) (Found ok fs d) d := by
  refine always_seq (keeps_getFat hs.wellFormed hs.coherent hc.1 hc.2) ?_
  rintro ⟨cs, fs'⟩ d' ⟨hlooked, hcs⟩
  dsimp only at hlooked hcs ⊢
  rcases hcs with hcs | ⟨rfl, hfail⟩
  · by_cases hzero : cs = 0
    · subst hzero
      rw [if_pos rfl]
      exact ⟨hlooked, .inl ⟨ncl, rfl, hc, hcs.symm⟩⟩
    · have hne : fs.fat d ncl.toNat ≠ 0 := by
        rw [← hcs]
        intro h
        exact hzero (UInt32.toNat_inj.1 h)
      have hone : cs ≠ 1 := by
        rintro rfl
        exact hs.sane _ hc hcs.symm
      rw [if_neg hzero, if_neg (by simp [hone, ne_of_fat hs.wellFormed hcs])]
      by_cases heq : ncl = scl
      · rw [if_pos heq]
        exact ⟨hlooked, .inr (.inl ⟨rfl, hlast heq hne⟩)⟩
      · rw [if_neg heq]
        exact hrest heq hne fs' d' hlooked
  · rw [if_neg (by decide), if_pos (by decide)]
    exact ⟨hlooked, .inr (.inr ⟨rfl, hfail⟩)⟩

/-- The cluster behind one of the volume has a number that does not wrap. -/
theorem toNat_succ (hw : fs.WellFormed t) {c : UInt32} (hc : c.toNat < fs.nFatent.toNat) :
    (c + 1).toNat = c.toNat + 1 := by
  have hlt := clst_lt hw hc
  rw [UInt32.toNat_add]
  show (c.toNat + 1) % 2 ^ 32 = _
  omega

/-- The search below `scl`, after it has been around the end. By induction on the rounds that are
left. All clusters up to `ncl`, and those behind `scl`, have been seen and are in use; when the
search is back at `scl`, no cluster is free. -/
theorem found_below (hs : Sound t fs d) {scl : UInt32} (hscl : scl.toNat < fs.nFatent.toNat)
    {fuel : Nat} {ncl : UInt32} (hbelow : ncl.toNat < scl.toNat) (hone : 1 ≤ ncl.toNat)
    (hfuel : scl.toNat - ncl.toNat ≤ fuel)
    (hseen : ∀ c, fs.Clst c → c ≤ ncl.toNat ∨ scl.toNat < c → fs.fat d c ≠ 0) :
    Ends ok (searchLoop scl fuel fs ncl) (Found ok fs d) d := by
  induction fuel generalizing fs d ncl with
  | zero => omega
  | succ fuel ih =>
    have hsucc := toNat_succ hs.wellFormed (hbelow.trans hscl)
    have hin : ¬ fs.nFatent ≤ ncl + 1 := by
      rw [UInt32.le_iff_toNat_le, hsucc]
      omega
    rw [searchLoop, if_neg (fun h => hin h.1)]
    dsimp only
    rw [if_neg hin]
    have hc : fs.Clst (ncl + 1).toNat := by
      rw [hsucc]
      exact ⟨by omega, by omega⟩
    refine found_round hs hc scl (fun fs => searchLoop scl fuel fs (ncl + 1)) ?_ ?_
    · -- the last cluster of the round
      intro heq hne
      refine freeCount_eq_zero.2 fun c htwo hlt => ?_
      by_cases hcs : c = (ncl + 1).toNat
      · rw [hcs]
        exact hne
      · refine hseen c ⟨htwo, hlt⟩ ?_
        rw [← heq]
        omega
    · -- one cluster more has been seen; the rest is the induction's
      intro hneq hne fs' d' hlooked
      have hs' := hs.looked hlooked
      have hn : fs'.nFatent = fs.nFatent := congrArg Geometry.nFatent hlooked.geometry
      have hclst : fs'.Clst = fs.Clst := congrArg Geometry.Clst hlooked.geometry
      have hlt : (ncl + 1).toNat < scl.toNat := by
        have hne' : (ncl + 1).toNat ≠ scl.toNat := fun h => hneq (UInt32.toNat_inj.1 h)
        omega
      refine always_mono (fun _ _ => Found.of_looked hs hlooked)
        (ih hs' (by rwa [hn]) hlt (by omega) (by omega) ?_)
      intro c hcl hside
      rw [hclst] at hcl
      rw [looked_fat hs.wellFormed hlooked hcl.2]
      by_cases hcs : c = (ncl + 1).toNat
      · rw [hcs]
        exact hne
      · exact hseen c hcl (by omega)

/-- The search from `scl` on. By induction on the rounds that are left. The clusters between `scl`
and `ncl` have been seen and are in use. Around the end the search goes on at cluster 2, unless
`scl` is the first cluster. -/
theorem found_above (hs : Sound t fs d) {scl : UInt32} (hscl : scl.toNat < fs.nFatent.toNat)
    (hpos : 1 ≤ scl.toNat) {fuel : Nat} {ncl : UInt32} (habove : scl.toNat ≤ ncl.toNat)
    (hlt : ncl.toNat < fs.nFatent.toNat)
    (hfuel : fs.nFatent.toNat - ncl.toNat + scl.toNat ≤ fuel)
    (hseen : ∀ c, fs.Clst c → scl.toNat < c → c ≤ ncl.toNat → fs.fat d c ≠ 0) :
    Ends ok (searchLoop scl fuel fs ncl) (Found ok fs d) d := by
  induction fuel generalizing fs d ncl with
  | zero => omega
  | succ fuel ih =>
    have hsucc := toNat_succ hs.wellFormed hlt
    rw [searchLoop]
    by_cases hend : fs.nFatent ≤ ncl + 1
    · -- around the end
      have hlast : ncl.toNat + 1 = fs.nFatent.toNat := by
        have hle := UInt32.le_iff_toNat_le.1 hend
        rw [hsucc] at hle
        omega
      by_cases hfirst : scl < 2
      · -- a round that began at the first cluster is over
        rw [if_pos ⟨hend, hfirst⟩]
        refine ⟨Looked.refl hs.coherent, .inr (.inl ⟨rfl, ?_⟩)⟩
        have hone : scl.toNat < 2 := UInt32.lt_iff_toNat_lt.1 hfirst
        exact freeCount_eq_zero.2 fun c htwo hc => hseen c ⟨htwo, hc⟩ (by omega) (by omega)
      · -- otherwise the search goes on at cluster 2, below `scl`
        have htwo : 2 ≤ scl.toNat := by
          have hnot := mt UInt32.lt_iff_toNat_lt.2 hfirst
          exact Nat.le_of_not_lt hnot
        rw [if_neg (fun h => hfirst h.2)]
        dsimp only
        rw [if_pos hend]
        have hc : fs.Clst (2 : UInt32).toNat := ⟨Nat.le_refl 2, hs.wellFormed.entries⟩
        refine found_round hs hc scl (fun fs => searchLoop scl fuel fs 2) ?_ ?_
        · intro heq hne
          have htwo' : scl.toNat = 2 := by rw [← heq]; rfl
          refine freeCount_eq_zero.2 fun c hc2 hcn => ?_
          by_cases hcs : c = 2
          · rw [hcs]
            exact hne
          · exact hseen c ⟨hc2, hcn⟩ (by omega) (by omega)
        · intro hneq hne fs' d' hlooked
          have hn : fs'.nFatent = fs.nFatent := congrArg Geometry.nFatent hlooked.geometry
          have hclst : fs'.Clst = fs.Clst := congrArg Geometry.Clst hlooked.geometry
          have hlt2 : (2 : UInt32).toNat < scl.toNat := by
            have hne' : (2 : UInt32).toNat ≠ scl.toNat := fun h => hneq (UInt32.toNat_inj.1 h)
            have htwo' : (2 : UInt32).toNat = 2 := rfl
            omega
          have hfuel' : scl.toNat - (2 : UInt32).toNat ≤ fuel := by
            have htwo' : (2 : UInt32).toNat = 2 := rfl
            omega
          refine always_mono (fun _ _ => Found.of_looked hs hlooked)
            (found_below (hs.looked hlooked) (by rwa [hn]) hlt2 (by decide) hfuel' ?_)
          intro c hcl hside
          rw [hclst] at hcl
          rw [looked_fat hs.wellFormed hlooked hcl.2]
          rcases hside with hle | hgt
          · have hcs : c = 2 := Nat.le_antisymm hle hcl.1
            rw [hcs]
            exact hne
          · have hcn := hcl.2
            exact hseen c hcl hgt (by omega)
    · -- not yet at the end of the FAT
      have hin : ncl.toNat + 1 < fs.nFatent.toNat := by
        have hnot := mt UInt32.le_iff_toNat_le.2 hend
        rw [hsucc] at hnot
        omega
      rw [if_neg (fun h => hend h.1)]
      dsimp only
      rw [if_neg hend]
      have hc : fs.Clst (ncl + 1).toNat := by
        rw [hsucc]
        exact ⟨by omega, hin⟩
      refine found_round hs hc scl (fun fs => searchLoop scl fuel fs (ncl + 1)) ?_ ?_
      · -- `scl` lies behind
        intro heq _
        rw [← heq] at habove
        omega
      · intro _ hne fs' d' hlooked
        have hn : fs'.nFatent = fs.nFatent := congrArg Geometry.nFatent hlooked.geometry
        have hclst : fs'.Clst = fs.Clst := congrArg Geometry.Clst hlooked.geometry
        refine always_mono (fun _ _ => Found.of_looked hs hlooked)
          (ih (hs.looked hlooked) (by rwa [hn]) (by omega) (by rw [hn, hsucc]; exact hin)
            (by rw [hn, hsucc]; omega) ?_)
        intro c hcl hgt hle
        rw [hclst] at hcl
        rw [looked_fat hs.wellFormed hlooked hcl.2]
        by_cases hcs : c = (ncl + 1).toNat
        · rw [hcs]
          exact hne
        · exact hseen c hcl hgt (by omega)

/-- A free cluster is found whenever there is one. For a chain that is stretched at its end the
cluster behind the end is looked at first. If that is not free, and for a new chain, the search goes
over all clusters. -/
theorem keeps_findFree (hs : Sound t fs d) {clst scl : UInt32} (hpos : 1 ≤ scl.toNat)
    (hscl : scl.toNat < fs.nFatent.toNat) :
    Ends ok (findFree fs clst scl) (Found ok fs d) d := by
  have hsearch : ∀ {scl : UInt32} {fs' : Fatfs} {d' : Image}, Looked fs d fs' d' →
      1 ≤ scl.toNat → scl.toNat < fs.nFatent.toNat →
      Ends ok (searchLoop scl fs'.nFatent.toNat fs' scl) (Found ok fs d) d' := by
    intro scl fs' d' hlooked hpos hscl
    have hn : fs'.nFatent = fs.nFatent := congrArg Geometry.nFatent hlooked.geometry
    have hscl' : scl.toNat < fs'.nFatent.toNat := by rwa [hn]
    refine always_mono (fun _ _ => Found.of_looked hs hlooked)
      (found_above (hs.looked hlooked) hscl' hpos (Nat.le_refl _) hscl' (by omega) ?_)
    intro c _ hgt hle
    omega
  unfold findFree
  by_cases heq : scl = clst
  · rw [if_pos heq]
    -- the cluster behind the end of the chain
    have hnext : fs.Clst (if fs.nFatent ≤ scl + 1 then 2 else scl + 1).toNat := by
      by_cases hend : fs.nFatent ≤ scl + 1
      · rw [if_pos hend]
        exact ⟨Nat.le_refl 2, hs.wellFormed.entries⟩
      · have hnot := mt UInt32.le_iff_toNat_le.2 hend
        rw [if_neg hend, toNat_succ hs.wellFormed hscl]
        rw [toNat_succ hs.wellFormed hscl] at hnot
        exact ⟨by omega, by omega⟩
    generalize (if fs.nFatent ≤ scl + 1 then (2 : UInt32) else scl + 1) = ncl at hnext ⊢
    refine always_seq (keeps_getFat hs.wellFormed hs.coherent hnext.1 hnext.2) ?_
    rintro ⟨cs, fs'⟩ d' ⟨hlooked, hcs⟩
    dsimp only at hlooked hcs ⊢
    rcases hcs with hcs | ⟨rfl, hfail⟩
    · have hone : cs ≠ 1 := by
        rintro rfl
        exact hs.sane _ hnext hcs.symm
      rw [if_neg (by simp [hone, ne_of_fat hs.wellFormed hcs])]
      by_cases hzero : cs = 0
      · subst hzero
        exact ⟨hlooked, .inl ⟨ncl, rfl, hnext, hcs.symm⟩⟩
      · rw [if_pos hzero]
        have hn : fs'.nFatent = fs.nFatent := congrArg Geometry.nFatent hlooked.geometry
        by_cases hsuggest : 2 ≤ fs'.lastClst ∧ fs'.lastClst < fs'.nFatent
        · rw [if_pos hsuggest]
          have htwo : 2 ≤ fs'.lastClst.toNat := UInt32.le_iff_toNat_le.1 hsuggest.1
          have hlt := UInt32.lt_iff_toNat_lt.1 hsuggest.2
          rw [hn] at hlt
          exact hsearch hlooked (by omega) hlt
        · rw [if_neg hsuggest]
          exact hsearch hlooked hpos hscl
    · rw [if_pos (by decide)]
      exact ⟨hlooked, .inr (.inr ⟨rfl, hfail⟩)⟩
  · rw [if_neg heq]
    exact hsearch (Looked.refl hs.coherent) hpos hscl

/-! ### `create_chain` -/

/-- What is left of the FAT by changes to the entries of `cs` and of free clusters. -/
structure FatFrame (cs : List Nat) (fs : Fatfs) (d : Image) (fs' : Fatfs) (d' : Image) : Prop
    extends FatOnly fs d fs' d' where
  entries : ∀ c, fs.Clst c → c ∉ cs → fs.fat d c ≠ 0 → fs'.fat d' c = fs.fat d c

/-- A look at the FAT keeps the chains of all others. -/
theorem Looked.frame (hw : fs.WellFormed t) (h : Looked fs d fs' d') (cs : List Nat) :
    FatFrame cs fs d fs' d' where
  toFatOnly := h.toFatOnly
  entries := fun _ hc _ _ => looked_fat hw h hc.2

/-- So does a store to an entry of the clusters `cs` or to a free one, whether it succeeds or fails
half-way. -/
theorem PutsFat.frame {clst val : UInt32} {r : FResult × Fatfs}
    (h : PutsFat ok fs d t clst val r d') (cs : List Nat)
    (hcs : clst.toNat ∈ cs ∨ fs.fat d clst.toNat = 0) :
    FatFrame cs fs d r.2 d' where
  toFatOnly := h.1
  entries := by
    intro c hc hout hne
    refine h.2.2.1 c hc.2 ?_
    rintro rfl
    rcases hcs with hmem | hzero
    · exact hout hmem
    · exact hne hzero

/-- Two such changes, one after the other, are one: what the second takes for free is free after the
first. -/
theorem FatFrame.trans {cs : List Nat} {fs'' : Fatfs} {d'' : Image}
    (h : FatFrame cs fs d fs' d') (h' : FatFrame cs fs' d' fs'' d'') :
    FatFrame cs fs d fs'' d'' where
  toFatOnly := h.toFatOnly.trans h'.toFatOnly
  entries := by
    intro c hc hout hne
    have hclst : fs'.Clst = fs.Clst := congrArg Geometry.Clst h.geometry
    have heq := h.entries c hc hout hne
    have hc' : fs'.Clst c := by rwa [hclst]
    rw [h'.entries c hc' hout (by rwa [heq]), heq]

/-- The cluster `ncl` has been put behind `clst`, or begins a new chain where `clst` is 0. -/
structure Stretched (t : FatType) (fs : Fatfs) (d : Image) (clst ncl : UInt32) (fs' : Fatfs)
    (d' : Image) : Prop extends FatOnly fs d fs' d' where
  sound : Sound t fs' d'
  valid : fs.Clst ncl.toNat
  free : fs.fat d ncl.toNat = 0
  mark : fs.Last (fs'.fat d' ncl.toNat)
  link : clst ≠ 0 → fs'.fat d' clst.toNat = ncl.toNat
  others : ∀ c, fs.Clst c → c ≠ ncl.toNat → c ≠ clst.toNat → fs'.fat d' c = fs.fat d c
  count : fs'.freeClusters d' + 1 = fs.freeClusters d
  window : fs'.winsect.toNat < fs.database.toNat

/-- What `create_chain` comes to. -/
inductive Created (ok : Answer → Prop) (t : FatType) (fs : Fatfs) (d : Image) (clst : UInt32) :
    UInt32 × Fatfs → Image → Prop
  | followed {ncl : UInt32} {fs' : Fatfs} {d' : Image} (hlooked : Looked fs d fs' d')
      (hclst : clst ≠ 0) (hncl : ncl.toNat = fs.fat d clst.toNat)
      (hlt : ncl.toNat < fs.nFatent.toNat) : Created ok t fs d clst (ncl, fs') d'
  | stretched {ncl : UInt32} {fs' : Fatfs} {d' : Image}
      (hend : clst ≠ 0 → fs.Last (fs.fat d clst.toNat))
      (h : Stretched t fs d clst ncl fs' d') : Created ok t fs d clst (ncl, fs') d'
  | full {fs' : Fatfs} {d' : Image} (hlooked : Looked fs d fs' d')
      (hend : clst ≠ 0 → fs.Last (fs.fat d clst.toNat))
      (hcount : fs.freeClusters d = 0) : Created ok t fs d clst (0, fs') d'
  | failed {fs' : Fatfs} {d' : Image} (hframe : FatFrame [clst.toNat] fs d fs' d')
      (hfail : MayFail ok) : Created ok t fs d clst (0xFFFFFFFF, fs') d'

/-- What a look at the FAT has left is stretched. By the outcome of `create_chain`. A look may move
the window, but it changes no entry, so the number of the free clusters is as before. -/
theorem Created.of_looked (hs : Sound t fs d) {fs1 : Fatfs} {d1 : Image}
    (h : Looked fs d fs1 d1) {clst : UInt32}
    (hclst : clst ≠ 0 → fs.Clst clst.toNat ∧ fs.Last (fs.fat d clst.toNat))
    {r : UInt32 × Fatfs} {d' : Image} (hr : Created ok t fs1 d1 clst r d') :
    Created ok t fs d clst r d' := by
  have hw := hs.wellFormed
  have hclst1 : fs1.Clst = fs.Clst := congrArg Geometry.Clst h.geometry
  have hlast1 : fs1.Last = fs.Last := congrArg Geometry.Last h.geometry
  have hfat : ∀ c, fs.Clst c → fs1.fat d1 c = fs.fat d c := fun c hc => looked_fat hw h hc.2
  have hfree : fs1.freeClusters d1 = fs.freeClusters d := by
    unfold Fatfs.freeClusters
    rw [congrArg Geometry.nFatent h.geometry]
    exact freeCount_congr fun c htwo hlt => by rw [hfat c ⟨htwo, hlt⟩]
  have hend := fun hne => (hclst hne).2
  cases hr with
  | followed hlooked hne hncl hlt =>
    rw [hfat _ (hclst hne).1] at hncl
    rw [congrArg Geometry.nFatent h.geometry] at hlt
    exact .followed (h.trans hlooked) hne hncl hlt
  | stretched _ hst =>
    have hc := hst.valid
    rw [hclst1] at hc
    refine .stretched hend ⟨h.toFatOnly.trans hst.toFatOnly, hst.sound, hc, ?_, ?_, hst.link,
      ?_, ?_, ?_⟩
    · rw [← hfat _ hc]
      exact hst.free
    · rw [← hlast1]
      exact hst.mark
    · intro c hcc hcn hcl
      rw [hst.others c (by rwa [hclst1]) hcn hcl, hfat c hcc]
    · rw [hst.count, hfree]
    · have hwin := hst.window
      rwa [congrArg Geometry.database h.geometry] at hwin
  | full hlooked _ hcount =>
    rw [hfree] at hcount
    exact .full (h.trans hlooked) hend hcount
  | failed hframe hfail => exact .failed ((h.frame hw _).trans hframe) hfail

/-- The volume has two entries more than clusters. -/
theorem toNat_nFatent_sub (hw : fs.WellFormed t) :
    (fs.nFatent - 2).toNat = fs.nFatent.toNat - 2 := by
  have hle : (2 : UInt32) ≤ fs.nFatent := by
    rw [UInt32.le_iff_toNat_le]
    exact (by decide : (2 : UInt32).toNat ≤ 3).trans hw.entries
  exact UInt32.toNat_sub_of_le _ _ hle

/-- The record of the free clusters when one is taken. An unknown record stays unknown, and a record
that is right counts one less. -/
theorem count_taken (hs : Sound t fs d) {n : Nat} (hcount : n + 1 = fs.freeClusters d) :
    (if fs.freeClst ≤ fs.nFatent - 2 then fs.freeClst - 1 else fs.freeClst).toNat = n ∨
      fs.nFatent.toNat - 2 <
        (if fs.freeClst ≤ fs.nFatent - 2 then fs.freeClst - 1 else fs.freeClst).toNat := by
  have hsub := toNat_nFatent_sub hs.wellFormed
  by_cases hknown : fs.freeClst ≤ fs.nFatent - 2
  · have hle := UInt32.le_iff_toNat_le.1 hknown
    rw [if_pos hknown]
    left
    have heq : fs.freeClst.toNat = fs.freeClusters d := by
      rcases hs.count with heq | hgt
      · exact heq
      · omega
    have hpos : (1 : UInt32) ≤ fs.freeClst := by
      rw [UInt32.le_iff_toNat_le]
      show 1 ≤ _
      omega
    rw [UInt32.toNat_sub_of_le _ _ hpos]
    show fs.freeClst.toNat - 1 = _
    omega
  · have hnot := mt UInt32.le_iff_toNat_le.2 hknown
    rw [if_neg hknown]
    omega

/-- The cluster has been marked and linked. The new cluster is the last of its chain, and the old
end leads to it where there was one. The other entries are as they were, and the number of the free
clusters and its record have both gone down by one. -/
theorem stretched_of (hs : Sound t fs d) {clst ncl : UInt32} (hc : fs.Clst ncl.toNat)
    (hfree : fs.fat d ncl.toNat = 0) (hend : clst ≠ 0 → fs.Last (fs.fat d clst.toNat))
    (h : FatOnly fs d fs' d') (halloc : fs'.freeClst = fs.freeClst)
    (hmark : fs.Last (fs'.fat d' ncl.toNat))
    (hlink : clst ≠ 0 → fs'.fat d' clst.toNat = ncl.toNat)
    (hothers : ∀ c, fs.Clst c → c ≠ ncl.toNat → c ≠ clst.toNat → fs'.fat d' c = fs.fat d c)
    (hwin : fs'.winsect.toNat < fs.database.toNat)
    {fs'' : Fatfs} (hfs : fs'' = { fs' with
      lastClst := ncl
      freeClst := if fs'.freeClst ≤ fs'.nFatent - 2 then fs'.freeClst - 1 else fs'.freeClst
      fsiFlag := fs'.fsiFlag ||| 1 }) : Stretched t fs d clst ncl fs'' d' := by
  have hw := hs.wellFormed
  have hentries := hw.entries
  have hn : fs'.nFatent = fs.nFatent := congrArg Geometry.nFatent h.geometry
  have hgeo : fs''.toGeometry = fs.toGeometry := by
    rw [hfs]
    exact h.geometry
  have hn'' : fs''.nFatent = fs.nFatent := congrArg Geometry.nFatent hgeo
  have hfat : ∀ c, fs''.fat d' c = fs'.fat d' c := by
    intro c
    rw [hfs]
    rfl
  have honly : FatOnly fs d fs'' d' := by
    rw [hfs]
    exact ⟨h.geometry, h.id, h.coherent, h.outside, h.placed⟩
  -- the entry of the old end
  have hclst : ∀ c, fs.Clst c → c ≠ ncl.toNat → c = clst.toNat →
      fs.Last (fs.fat d c) ∧ fs''.fat d' c = ncl.toNat := by
    rintro c hcc _ rfl
    have hne : clst ≠ 0 := by
      rintro rfl
      exact absurd hcc.1 (by decide)
    exact ⟨hend hne, (hfat _).trans (hlink hne)⟩
  have hcount : fs''.freeClusters d' + 1 = fs.freeClusters d := by
    unfold Fatfs.freeClusters
    rw [hn'']
    refine freeCount_take hc.1 hc.2 hfree ?_ ?_
    · rw [hfat]
      intro hzero
      rw [hzero] at hmark
      exact absurd (hmark.trans' hentries) (by decide)
    · intro x htwo hlt hne
      by_cases hx : x = clst.toNat
      · obtain ⟨hlast, heq⟩ := hclst x ⟨htwo, hlt⟩ hne hx
        have hge : fs.nFatent.toNat ≤ fs.fat d x := hlast
        have hncl := hc.1
        omega
      · rw [hfat, hothers x ⟨htwo, hlt⟩ hne hx]
  refine ⟨honly, ⟨honly.wellFormed hw, honly.coherent, ?_, ?_⟩, hc, hfree, ?_, ?_, ?_, hcount, ?_⟩
  · intro c hcc
    have hcc' : fs.Clst c := by rwa [← hgeo]
    by_cases hcn : c = ncl.toNat
    · rw [hfat, hcn]
      have hge : fs.nFatent.toNat ≤ fs'.fat d' ncl.toNat := hmark
      omega
    · by_cases hcl : c = clst.toNat
      · rw [(hclst c hcc' hcn hcl).2]
        have hncl := hc.1
        omega
      · rw [hfat, hothers c hcc' hcn hcl]
        exact hs.sane c hcc'
  · have hfreeClst : fs''.freeClst =
        if fs.freeClst ≤ fs.nFatent - 2 then fs.freeClst - 1 else fs.freeClst := by
      rw [hfs]
      dsimp only
      rw [halloc, hn]
    rw [hn'', hfreeClst]
    exact count_taken hs hcount
  · rw [hfat]
    exact hmark
  · intro hne
    rw [hfat]
    exact hlink hne
  · intro c hcc hcn hcl
    rw [hfat]
    exact hothers c hcc hcn hcl
  · rw [hfs]
    exact hwin

/-- `linkCluster` with a free cluster. Two entries are put, the mark of the new end first. If the
drive fails in between, the new cluster is marked and nothing leads to it. -/
theorem keeps_linkCluster (hs : Sound t fs d) {clst ncl : UInt32} (hc : fs.Clst ncl.toNat)
    (hfree : fs.fat d ncl.toNat = 0)
    (hclst : clst ≠ 0 → fs.Clst clst.toNat ∧ fs.Last (fs.fat d clst.toNat)) :
    Ends ok (linkCluster fs clst ncl) (Created ok t fs d clst) d := by
  have hw := hs.wellFormed
  have hend := fun hne => (hclst hne).2
  unfold linkCluster
  refine always_seq (keeps_putFat hw hs.coherent hc.1 hc.2) ?_
  rintro ⟨res, fs1⟩ d1 hput
  have hframe := hput.frame [clst.toNat] (.inr hfree)
  obtain ⟨h1, halloc1, hother1, hres1⟩ := hput
  dsimp only at h1 halloc1 hother1 hres1 hframe ⊢
  have hn1 : fs1.nFatent = fs.nFatent := congrArg Geometry.nFatent h1.geometry
  have hfree1 : fs1.freeClst = fs.freeClst := congrArg AllocInfo.freeClst halloc1
  rcases hres1 with ⟨rfl, hmark1, hwin1⟩ | ⟨rfl, hfail⟩
  · have hlast1 : fs.Last (fs1.fat d1 ncl.toNat) := by
      rw [hmark1]
      exact last_mark hw
    -- the new cluster is marked as the last one; a chain in front is linked to it
    by_cases hnew : clst ≠ 0
    · rw [if_pos ⟨rfl, hnew⟩]
      obtain ⟨hcl, hlast⟩ := hclst hnew
      have hne : clst.toNat ≠ ncl.toNat := by
        intro heq
        rw [heq, hfree] at hlast
        exact absurd (hlast.trans' hw.entries) (by decide)
      have hlt1 : clst.toNat < fs1.nFatent.toNat := by
        rw [hn1]
        exact hcl.2
      refine always_seq (keeps_putFat (h1.wellFormed hw) h1.coherent hcl.1 hlt1) ?_
      rintro ⟨res, fs2⟩ d2 hput2
      have hframe2 := hput2.frame [clst.toNat] (.inl (by simp))
      obtain ⟨h2, halloc2, hother2, hres2⟩ := hput2
      dsimp only at h2 halloc2 hother2 hres2 hframe2 ⊢
      rw [hn1] at hother2
      rcases hres2 with ⟨rfl, hlink, hwin2⟩ | ⟨rfl, hfail⟩
      · rw [if_pos rfl]
        rw [Nat.mod_eq_of_lt (hc.2.trans (nFatent_lt hw))] at hlink
        rw [congrArg Geometry.database h1.geometry] at hwin2
        refine .stretched hend (stretched_of hs hc hfree hend (h1.trans h2) ?_ ?_ (fun _ => hlink)
          ?_ hwin2 rfl)
        · exact (congrArg AllocInfo.freeClst halloc2).trans hfree1
        · rw [hother2 _ hc.2 hne.symm]
          exact hlast1
        · intro c hcc hcn hcl'
          rw [hother2 c hcc.2 hcl', hother1 c hcc.2 hcn]
      · rw [if_neg (by decide)]
        exact .failed (hframe.trans hframe2) hfail
    · -- the first cluster of a chain
      rw [if_neg (fun h => hnew h.2)]
      rw [Prog.pure_eq, Prog.ret_bind]
      dsimp only
      rw [if_pos rfl]
      exact .stretched hend (stretched_of hs hc hfree hend h1 hfree1 hlast1
        (fun hne => absurd hne hnew) (fun c hcc hcn _ => hother1 c hcc.2 hcn) hwin1 rfl)
  · -- the mark has failed: nothing is linked
    rw [if_neg (by simp)]
    rw [Prog.pure_eq, Prog.ret_bind]
    dsimp only
    rw [if_neg (by decide)]
    exact .failed hframe hfail

/-- `create_chain` from the test of `free_clst` on. Where the record says that no cluster is free,
there is no search. The record is right or unknown (`Sound`), so in this case there is none. -/
theorem keeps_stretchChain (hs : Sound t fs d) {clst scl : UInt32} (hpos : 1 ≤ scl.toNat)
    (hscl : scl.toNat < fs.nFatent.toNat)
    (hclst : clst ≠ 0 → fs.Clst clst.toNat ∧ fs.Last (fs.fat d clst.toNat)) :
    Ends ok (stretchChain fs clst scl) (Created ok t fs d clst) d := by
  have hend := fun hne => (hclst hne).2
  unfold stretchChain
  by_cases hzero : fs.freeClst = 0
  · rw [if_pos hzero]
    refine .full (Looked.refl hs.coherent) hend ?_
    have hcount := hs.count
    rw [hzero] at hcount
    rcases hcount with heq | hgt
    · exact heq.symm
    · exact absurd hgt (Nat.not_lt_zero _)
  · rw [if_neg hzero]
    refine always_seq (keeps_findFree hs hpos hscl) ?_
    rintro ⟨r, fs'⟩ d' ⟨hlooked, hfound⟩
    dsimp only at hlooked hfound ⊢
    have hs' := hs.looked hlooked
    have hclst' : fs'.Clst = fs.Clst := congrArg Geometry.Clst hlooked.geometry
    have hlast' : fs'.Last = fs.Last := congrArg Geometry.Last hlooked.geometry
    rcases hfound with ⟨ncl, rfl, hc, hfree⟩ | ⟨rfl, hcount⟩ | ⟨rfl, hfail⟩
    · have hfat := looked_fat hs.wellFormed hlooked hc.2
      refine always_mono ?_ (keeps_linkCluster hs'
        (by rwa [hclst']) (by rw [hfat, hfree]) ?_)
      · intro r d'' hr
        exact hr.of_looked hs hlooked hclst
      · intro hne
        obtain ⟨hcl, hlast⟩ := hclst hne
        rw [hclst', hlast', looked_fat hs.wellFormed hlooked hcl.2]
        exact ⟨hcl, hlast⟩
    · exact .full hlooked hend hcount
    · exact .failed (hlooked.frame hs.wellFormed _) hfail

/-- `create_chain` for a new chain, and at a cluster of a chain. For a new chain the search begins
behind the last cluster given out; at a cluster of a chain its entry decides whether the chain is
followed or stretched. -/
theorem keeps_createChain (hs : Sound t fs d) {clst : UInt32}
    (hclst : clst ≠ 0 → fs.Clst clst.toNat ∧ 2 ≤ fs.fat d clst.toNat) :
    Ends ok (createChain fs clst) (Created ok t fs d clst) d := by
  unfold createChain
  -- a new chain is searched for from the last cluster allocated
  by_cases hnew : clst = 0
  · rw [if_pos hnew]
    dsimp only
    have hentries := hs.wellFormed.entries
    have hstart : 1 ≤ (if fs.lastClst = 0 ∨ fs.nFatent ≤ fs.lastClst then 1
        else fs.lastClst).toNat ∧
        (if fs.lastClst = 0 ∨ fs.nFatent ≤ fs.lastClst then 1 else fs.lastClst).toNat <
          fs.nFatent.toNat := by
      -- which is not a cluster number right after the mount
      by_cases hlast : fs.lastClst = 0 ∨ fs.nFatent ≤ fs.lastClst
      · rw [if_pos hlast]
        exact ⟨Nat.le_refl 1, Nat.lt_of_lt_of_le (by decide) hentries⟩
      · rw [if_neg hlast]
        have hne : fs.lastClst.toNat ≠ 0 := fun h => hlast (.inl (UInt32.toNat_inj.1 h))
        have hnot : ¬ fs.nFatent.toNat ≤ fs.lastClst.toNat := fun h =>
          hlast (.inr (UInt32.le_iff_toNat_le.2 h))
        omega
    exact keeps_stretchChain hs hstart.1 hstart.2 fun hne => absurd hnew hne
  · -- an old chain: a cluster that has a next one is only followed
    rw [if_neg hnew]
    obtain ⟨hc, htwo⟩ := hclst hnew
    refine always_seq (keeps_getFat hs.wellFormed hs.coherent hc.1 hc.2) ?_
    rintro ⟨cs, fs'⟩ d' ⟨hlooked, hcs⟩
    dsimp only at hlooked hcs ⊢
    rcases hcs with hcs | ⟨rfl, hfail⟩
    · have hge : ¬ cs < 2 := by
        rw [UInt32.lt_iff_toNat_lt, hcs]
        exact Nat.not_lt.2 htwo
      rw [if_neg hge, if_neg (ne_of_fat hs.wellFormed hcs)]
      have hn : fs'.nFatent = fs.nFatent := congrArg Geometry.nFatent hlooked.geometry
      have hclst' : fs'.Clst = fs.Clst := congrArg Geometry.Clst hlooked.geometry
      have hlast' : fs'.Last = fs.Last := congrArg Geometry.Last hlooked.geometry
      by_cases hlt : cs < fs'.nFatent
      · rw [if_pos hlt]
        have hlt' := UInt32.lt_iff_toNat_lt.1 hlt
        rw [hn] at hlt'
        exact .followed hlooked hnew hcs hlt'
      · -- the last of its chain is stretched
        rw [if_neg hlt]
        have hlast : fs.Last (fs.fat d clst.toNat) := by
          have hnot := mt UInt32.lt_iff_toNat_lt.2 hlt
          rw [hn, hcs] at hnot
          exact Nat.le_of_not_lt hnot
        refine always_mono ?_ (keeps_stretchChain
          (hs.looked hlooked) (by have := hc.1; omega) (by rw [hn]; exact hc.2) ?_)
        · intro r d'' hr
          exact hr.of_looked hs hlooked fun _ => ⟨hc, hlast⟩
        · intro _
          rw [hclst', hlast', looked_fat hs.wellFormed hlooked hc.2]
          exact ⟨hc, hlast⟩
    · rw [if_neg (by decide), if_pos rfl]
      exact .failed (hlooked.frame hs.wellFormed _) hfail

/-! ### `remove_chain` -/

/-- The clusters `cs` have been freed. -/
structure Freed (t : FatType) (fs : Fatfs) (d : Image) (cs : List Nat) (fs' : Fatfs) (d' : Image) :
    Prop extends FatOnly fs d fs' d' where
  sound : Sound t fs' d'
  free : ∀ c ∈ cs, fs'.fat d' c = 0
  others : ∀ c, fs.Clst c → c ∉ cs → fs'.fat d' c = fs.fat d c
  count : fs'.freeClusters d' = fs.freeClusters d + cs.length

/-- A cluster in front of those that are freed afterwards. The first step has changed its own entry
only, so what the second one says of the entries it starts from holds of the volume before both. -/
theorem Freed.cons {c : Nat} {cs : List Nat} {fs1 : Fatfs} {d1 : Image}
    (h : Freed t fs d [c] fs1 d1) (h' : Freed t fs1 d1 cs fs' d') (hc : fs.Clst c)
    (hnot : c ∉ cs) : Freed t fs d (c :: cs) fs' d' where
  toFatOnly := h.toFatOnly.trans h'.toFatOnly
  sound := h'.sound
  free := by
    intro x hx
    have hclst : fs1.Clst = fs.Clst := congrArg Geometry.Clst h.geometry
    rcases List.mem_cons.1 hx with rfl | hmem
    · rw [h'.others x (by rwa [hclst]) hnot]
      exact h.free x (List.mem_singleton.2 rfl)
    · exact h'.free x hmem
  others := by
    intro x hx hout
    have hclst : fs1.Clst = fs.Clst := congrArg Geometry.Clst h.geometry
    rw [List.mem_cons, not_or] at hout
    rw [h'.others x (by rwa [hclst]) hout.2, h.others x hx (by simpa using hout.1)]
  count := by
    rw [h'.count, h.count]
    simp only [List.length_cons, List.length_nil]
    omega

/-- The record of the free clusters when one is given back. By whether the record is known, and
whether it is full. -/
theorem count_given (hs : Sound t fs d) {n : Nat} (hcount : n = fs.freeClusters d + 1)
    (hle : n ≤ fs.nFatent.toNat - 2) :
    (if fs.freeClst < fs.nFatent - 2 then fs.freeClst + 1 else fs.freeClst).toNat = n ∨
      fs.nFatent.toNat - 2 <
        (if fs.freeClst < fs.nFatent - 2 then fs.freeClst + 1 else fs.freeClst).toNat := by
  have hsub := toNat_nFatent_sub hs.wellFormed
  have hlimit := nFatent_lt hs.wellFormed
  have hbits := entryBits_le t
  -- a record that is known counts up, an unknown one stays so
  by_cases hknown : fs.freeClst < fs.nFatent - 2
  · have hlt := UInt32.lt_iff_toNat_lt.1 hknown
    rw [hsub] at hlt
    rw [if_pos hknown]
    left
    have hadd : (fs.freeClst + 1).toNat = fs.freeClst.toNat + 1 := by
      rw [UInt32.toNat_add]
      show (fs.freeClst.toNat + 1) % 2 ^ 32 = _
      omega
    rw [hadd, hcount]
    rcases hs.count with heq | hgt
    · omega
    · omega
  · have hnot := mt UInt32.lt_iff_toNat_lt.2 hknown
    rw [hsub] at hnot
    rw [if_neg hknown]
    right
    rcases hs.count with heq | hgt
    · omega
    · exact hgt

/-- One cluster has been freed. The record of the free clusters is corrected by one, as their number
is. -/
theorem freed_one (hs : Sound t fs d) {clst : UInt32} (hc : fs.Clst clst.toNat)
    (hused : fs.fat d clst.toNat ≠ 0) (h : FatOnly fs d fs' d')
    (halloc : fs'.freeClst = fs.freeClst) (hzero : fs'.fat d' clst.toNat = 0)
    (hothers : ∀ c < fs.nFatent.toNat, c ≠ clst.toNat → fs'.fat d' c = fs.fat d c)
    {fs'' : Fatfs} (hfs : fs'' =
      if fs'.freeClst < fs'.nFatent - 2 then
        { fs' with freeClst := fs'.freeClst + 1, fsiFlag := fs'.fsiFlag ||| 1 }
      else fs') : Freed t fs d [clst.toNat] fs'' d' := by
  have hn : fs'.nFatent = fs.nFatent := congrArg Geometry.nFatent h.geometry
  -- the update of the count changes nothing the FAT shows
  have hgeo : fs''.toGeometry = fs.toGeometry := by
    rw [hfs, ← h.geometry]
    split <;> rfl
  have hn'' : fs''.nFatent = fs.nFatent := congrArg Geometry.nFatent hgeo
  have hfat : ∀ c, fs''.fat d' c = fs'.fat d' c := by
    intro c
    rw [hfs]
    split <;> rfl
  have honly : FatOnly fs d fs'' d' := by
    rw [hfs]
    split
    · exact ⟨h.geometry, h.id, h.coherent, h.outside, h.placed⟩
    · exact h
  have hcount : fs''.freeClusters d' = fs.freeClusters d + 1 := by
    unfold Fatfs.freeClusters
    rw [hn'']
    refine freeCount_give hc.1 hc.2 hused (by rw [hfat, hzero]) ?_
    intro x _ hlt hne
    rw [hfat, hothers x hlt hne]
  refine ⟨honly, ⟨honly.wellFormed hs.wellFormed, honly.coherent, ?_, ?_⟩, ?_, ?_, hcount⟩
  · intro c hcc
    have hcc' : fs.Clst c := by rwa [← hgeo]
    rw [hfat]
    -- the freed entry is zero, the others are as sane as before
    by_cases hcl : c = clst.toNat
    · rw [hcl, hzero]
      decide
    · rw [hothers c hcc'.2 hcl]
      exact hs.sane c hcc'
  · have hfreeClst : fs''.freeClst =
        if fs.freeClst < fs.nFatent - 2 then fs.freeClst + 1 else fs.freeClst := by
      rw [hfs, halloc, hn]
      split
      · rfl
      · exact halloc
    have hle : fs''.freeClusters d' ≤ fs.nFatent.toNat - 2 := by
      unfold Fatfs.freeClusters
      rw [hn'']
      exact freeCount_le
    rw [hn'', hfreeClst]
    exact count_given hs hcount hle
  · intro c hmem
    rw [List.mem_singleton.1 hmem, hfat]
    exact hzero
  · intro c hcc hout
    rw [hfat]
    exact hothers c hcc.2 (by simpa using hout)

/-- The loop of `remove_chain`. By induction on the chain: the first cluster is freed after its
entry was read, and what is left is a chain behind it. -/
theorem keeps_removeLoop (hs : Sound t fs d) {clst : UInt32} {cs : List Nat}
    (hchain : Chain fs d (clst.toNat :: cs)) {fuel : Nat} (hfuel : cs.length < fuel) :
    Ends ok (removeLoop fuel fs clst) (fun r d' =>
      r.1 = .ok ∧ Freed t fs d (clst.toNat :: cs) r.2 d' ∨
      r.1 = .diskErr ∧ MayFail ok ∧ FatFrame (clst.toNat :: cs) fs d r.2 d') d := by
  induction fuel generalizing fs d clst cs with
  | zero => omega
  | succ fuel ih =>
    have hw := hs.wellFormed
    have hc := hchain.clst _ List.mem_cons_self
    have hused := hchain.ne_zero hw List.mem_cons_self
    rw [removeLoop]
    refine always_seq (keeps_getFat hw hs.coherent hc.1 hc.2) ?_
    rintro ⟨nxt, fs1⟩ d1 ⟨hlooked, hnxt⟩
    dsimp only at hlooked hnxt ⊢
    rcases hnxt with hnxt | ⟨rfl, hfail⟩
    · have hone : nxt ≠ 1 := by
        rintro rfl
        exact hs.sane _ hc hnxt.symm
      have hzero : nxt ≠ 0 := by
        rintro rfl
        have hz : (0 : UInt32).toNat = 0 := rfl
        omega
      rw [if_neg hzero, if_neg hone, if_neg (ne_of_fat hw hnxt)]
      have hs1 := hs.looked hlooked
      have hn1 : fs1.nFatent = fs.nFatent := congrArg Geometry.nFatent hlooked.geometry
      have hfree1 : fs1.freeClst = fs.freeClst := congrArg AllocInfo.freeClst hlooked.alloc
      have hlt1 : clst.toNat < fs1.nFatent.toNat := by
        rw [hn1]
        exact hc.2
      refine always_seq (keeps_putFat hs1.wellFormed hs1.coherent hc.1 hlt1) ?_
      rintro ⟨res, fs2⟩ d2 hput
      have hframe2 := hput.frame (clst.toNat :: cs) (.inl List.mem_cons_self)
      obtain ⟨h2, halloc2, hother2, hres2⟩ := hput
      dsimp only at h2 halloc2 hother2 hres2 hframe2 ⊢
      have hframe := (hlooked.frame hw (clst.toNat :: cs)).trans hframe2
      rcases hres2 with ⟨rfl, hput2, -⟩ | ⟨rfl, hfail⟩
      · rw [if_neg (by decide)]
        have hother : ∀ c < fs.nFatent.toNat, c ≠ clst.toNat → fs2.fat d2 c = fs.fat d c := by
          intro c hlt hne
          rw [hother2 c (by rwa [hn1]) hne, looked_fat hw hlooked hlt]
        generalize hfs3 : (if fs2.freeClst < fs2.nFatent - 2 then
          { fs2 with freeClst := fs2.freeClst + 1, fsiFlag := fs2.fsiFlag ||| 1 } else fs2) = fs3
        have hone := freed_one hs hc (by omega) (hlooked.toFatOnly.trans h2)
          ((congrArg AllocInfo.freeClst halloc2).trans hfree1) (by rw [hput2]; rfl) hother hfs3.symm
        have hn3 : fs3.nFatent = fs.nFatent := congrArg Geometry.nFatent hone.geometry
        have hnodup := hchain.nodup
        have hnot : clst.toNat ∉ cs := (List.nodup_cons.1 hnodup).1
        cases cs with
        | nil =>
          -- the end of the chain
          have hlast : ¬ nxt < fs3.nFatent := by
            have hmark : fs.nFatent.toNat ≤ fs.fat d clst.toNat := hchain.linked
            rw [UInt32.lt_iff_toNat_lt, hn3, hnxt]
            exact Nat.not_lt.2 hmark
          rw [if_neg hlast]
          exact .inl ⟨rfl, hone⟩
        | cons c cs =>
          have hnext : nxt.toNat = c := hnxt.trans hchain.linked.1
          have hcc := hchain.clst c (by simp)
          have hlt : nxt < fs3.nFatent := by
            rw [UInt32.lt_iff_toNat_lt, hn3, hnext]
            exact hcc.2
          rw [if_pos hlt]
          have hrest : Chain fs d (c :: cs) :=
            ⟨hchain.linked.2, fun x hx => hchain.clst x (List.mem_cons_of_mem _ hx)⟩
          have hrest3 : Chain fs3 d2 (nxt.toNat :: cs) := by
            rw [hnext]
            refine hrest.congr hone.geometry fun x hx => ?_
            refine hone.others x (hrest.clst x hx) ?_
            rw [List.mem_singleton]
            rintro rfl
            exact hnot hx
          refine always_mono ?_ (ih hone.sound hrest3 (by simpa using hfuel))
          rintro ⟨res, fs4⟩ d4 hres
          rw [hnext] at hres
          rcases hres with ⟨hok, hfreed⟩ | ⟨herr, hfail, hframe4⟩
          · exact .inl ⟨hok, hone.cons hfreed hc hnot⟩
          · refine .inr ⟨herr, hfail, hone.toFatOnly.trans hframe4.toFatOnly, ?_⟩
            intro x hx hout hne
            rw [List.mem_cons, not_or] at hout
            have hclst3 : fs3.Clst = fs.Clst := congrArg Geometry.Clst hone.geometry
            have heq := hone.others x hx (by simpa using hout.1)
            have hkept := hframe4.entries x (by rwa [hclst3]) hout.2 (by rwa [heq])
            exact hkept.trans heq
      · rw [if_pos (by decide)]
        exact .inr ⟨rfl, hfail, hframe⟩
    · rw [if_neg (by decide), if_neg (by decide), if_pos rfl]
      exact .inr ⟨rfl, hfail, hlooked.frame hw _⟩

/-- A chain has no more clusters than the volume. -/
theorem Chain.length_le {cs : List Nat} (h : Chain fs d cs) : cs.length ≤ fs.nFatent.toNat := by
  have hsub : cs ⊆ List.range fs.nFatent.toNat := fun c hc =>
    List.mem_range.2 (h.clst c hc).2
  have hle := (h.nodup.subperm hsub).length_le
  rwa [List.length_range] at hle

/-- What `remove_chain` leaves of the cluster in front of the chain. -/
structure Removed (t : FatType) (fs : Fatfs) (d : Image) (cs : List Nat) (pclst : UInt32)
    (fs' : Fatfs) (d' : Image) : Prop extends FatOnly fs d fs' d' where
  sound : Sound t fs' d'
  free : ∀ c ∈ cs, fs'.fat d' c = 0
  mark : pclst ≠ 0 → fs.Last (fs'.fat d' pclst.toNat)
  others : ∀ c, fs.Clst c → c ∉ cs → c ≠ pclst.toNat → fs'.fat d' c = fs.fat d c
  count : fs'.freeClusters d' = fs.freeClusters d + cs.length

/-- The end mark at a cluster that is in use. The mark makes no cluster free, so their number stays.
The entries of the other clusters are as they were. -/
theorem sound_marked (hs : Sound t fs d) {c : Nat} (hused : fs.fat d c ≠ 0)
    (h : FatOnly fs d fs' d') (halloc : fs'.toAllocInfo = fs.toAllocInfo)
    (hmark : fs.Last (fs'.fat d' c))
    (hothers : ∀ x < fs.nFatent.toNat, x ≠ c → fs'.fat d' x = fs.fat d x) :
    Sound t fs' d' ∧ fs'.freeClusters d' = fs.freeClusters d := by
  have hentries := hs.wellFormed.entries
  have hge : fs.nFatent.toNat ≤ fs'.fat d' c := hmark
  have hn : fs'.nFatent = fs.nFatent := congrArg Geometry.nFatent h.geometry
  have hclst : fs'.Clst = fs.Clst := congrArg Geometry.Clst h.geometry
  have hfree : fs'.freeClst = fs.freeClst := congrArg AllocInfo.freeClst halloc
  have hcount : fs'.freeClusters d' = fs.freeClusters d := by
    unfold Fatfs.freeClusters
    rw [hn]
    refine freeCount_congr fun x _ hlt => ?_
    -- an end mark is no free entry, and the old one was none either
    by_cases hx : x = c
    · rw [hx]
      omega
    · rw [hothers x hlt hx]
  refine ⟨⟨h.wellFormed hs.wellFormed, h.coherent, ?_, ?_⟩, hcount⟩
  · intro x hx
    rw [hclst] at hx
    by_cases hxc : x = c
    · rw [hxc]
      omega
    · rw [hothers x hx.2 hxc]
      exact hs.sane x hx
  · rw [hcount, hn, hfree]
    exact hs.count

/-- `remove_chain` on a chain. `pclst` is the cluster in front of it, 0 if there is none. The
cluster in front becomes the end of its chain first, and it is none of those that are freed. -/
theorem keeps_removeChain (hs : Sound t fs d) {clst pclst : UInt32} {cs : List Nat}
    (hchain : Chain fs d (clst.toNat :: cs))
    (hprev : pclst ≠ 0 → fs.Clst pclst.toNat ∧ fs.fat d pclst.toNat ≠ 0 ∧
      pclst.toNat ∉ clst.toNat :: cs) :
    Ends ok (removeChain fs clst pclst) (fun r d' =>
      r.1 = .ok ∧ Removed t fs d (clst.toNat :: cs) pclst r.2 d' ∨
      r.1 = .diskErr ∧ MayFail ok ∧
        FatFrame (pclst.toNat :: clst.toNat :: cs) fs d r.2 d') d := by
  have hw := hs.wellFormed
  have hc := hchain.clst _ List.mem_cons_self
  have hlen := hchain.length_le
  unfold removeChain
  rw [if_neg (clst_valid hc.1 hc.2)]
  -- with a cluster in front, that one is marked as the last before the rest is freed
  by_cases hnew : pclst ≠ 0
  · rw [if_pos hnew]
    obtain ⟨hp, hused, hnot⟩ := hprev hnew
    refine always_seq (keeps_putFat hw hs.coherent hp.1 hp.2) ?_
    rintro ⟨res, fs1⟩ d1 hput
    have hframe1 := hput.frame (pclst.toNat :: clst.toNat :: cs) (.inl List.mem_cons_self)
    obtain ⟨h1, halloc1, hother1, hres1⟩ := hput
    dsimp only at h1 halloc1 hother1 hres1 hframe1 ⊢
    -- the freed clusters do not contain the marked one, so the mark stays
    rcases hres1 with ⟨rfl, hmark, -⟩ | ⟨rfl, hfail⟩
    · rw [if_neg (by decide)]
      have hlast : fs.Last (fs1.fat d1 pclst.toNat) := by
        rw [hmark]
        exact last_mark hw
      have hn1 : fs1.nFatent = fs.nFatent := congrArg Geometry.nFatent h1.geometry
      have hclst1 : fs1.Clst = fs.Clst := congrArg Geometry.Clst h1.geometry
      have hlast1 : fs1.Last = fs.Last := congrArg Geometry.Last h1.geometry
      obtain ⟨hs1, hcount1⟩ := sound_marked hs hused h1 halloc1 hlast hother1
      have hne : ∀ x ∈ clst.toNat :: cs, x ≠ pclst.toNat := by
        rintro x hx rfl
        exact hnot hx
      have hchain1 : Chain fs1 d1 (clst.toNat :: cs) := hchain.congr h1.geometry fun x hx =>
        hother1 x (hchain.clst x hx).2 (hne x hx)
      have hfuel : cs.length < fs1.nFatent.toNat := by
        rw [hn1]
        exact hlen
      refine always_mono ?_ (keeps_removeLoop hs1 hchain1 hfuel)
      rintro ⟨res, fs2⟩ d2 (⟨hok, hfreed⟩ | ⟨herr, hfail, hframe⟩)
      · refine .inl ⟨hok, h1.trans hfreed.toFatOnly, hfreed.sound, hfreed.free, ?_, ?_, ?_⟩
        · intro _
          rw [hfreed.others _ (by rwa [hclst1]) hnot]
          exact hlast
        · intro x hx hout hxp
          rw [hfreed.others x (by rwa [hclst1]) hout, hother1 x hx.2 hxp]
        · rw [hfreed.count, hcount1]
      · refine .inr ⟨herr, hfail, hframe1.trans ⟨hframe.toFatOnly, ?_⟩⟩
        intro x hx hout
        exact hframe.entries x hx fun hmem => hout (List.mem_cons_of_mem _ hmem)
    · rw [if_pos (by decide)]
      exact .inr ⟨rfl, hfail, hframe1⟩
  · -- a whole chain: nothing to mark
    rw [if_neg hnew, Prog.pure_eq, Prog.ret_bind]
    dsimp only
    rw [if_neg (by decide)]
    refine always_mono ?_ (keeps_removeLoop hs hchain hlen)
    rintro ⟨res, fs2⟩ d2 (⟨hok, hfreed⟩ | ⟨herr, hfail, hframe⟩)
    · refine .inl ⟨hok, hfreed.toFatOnly, hfreed.sound, hfreed.free, fun h => absurd h hnew, ?_,
        hfreed.count⟩
      intro x hx hout _
      exact hfreed.others x hx hout
    · refine .inr ⟨herr, hfail, hframe.toFatOnly, ?_⟩
      intro x hx hout
      exact hframe.entries x hx fun hmem => hout (List.mem_cons_of_mem _ hmem)

/-! ### Chains side by side -/

/-- The end of the chain, 0 if it has no cluster. -/
def EndOf (cs : List Nat) (clst : UInt32) : Prop :=
  clst = 0 ∧ cs = [] ∨ clst ≠ 0 ∧ ∃ init, cs = init ++ [clst.toNat]

/-- A chain with a cluster put behind its end is a chain. The entry of the old end leads to the new
one. -/
theorem Stretched.chain (hw : fs.WellFormed t) {cs : List Nat} {clst ncl : UInt32}
    (h : Stretched t fs d clst ncl fs' d')
    (hc : Chain fs d cs) (hend : EndOf cs clst) : Chain fs' d' (cs ++ [ncl.toNat]) := by
  have hlast : fs'.Last = fs.Last := congrArg Geometry.Last h.geometry
  have hclst : fs'.Clst = fs.Clst := congrArg Geometry.Clst h.geometry
  constructor
  · rw [hlast]
    rcases hend with ⟨-, rfl⟩ | ⟨hne, init, rfl⟩
    · exact h.mark
    · have hlink := hc.linked.append ?_ (h.link hne) h.mark
      · rwa [List.append_assoc]
      · intro x hx
        have hmem : x ∈ init ++ [clst.toNat] := List.mem_append_left _ hx
        refine h.others x (hc.clst x hmem) ?_ ?_
        · rintro rfl
          have hused := hc.ne_zero hw hmem
          rw [h.free] at hused
          omega
        · rintro rfl
          exact (List.nodup_append.1 hc.nodup).2.2 _ hx _ (List.mem_singleton.2 rfl) rfl
  · rw [hclst]
    intro x hx
    rcases List.mem_append.1 hx with hmem | hmem
    · exact hc.clst x hmem
    · rw [List.mem_singleton.1 hmem]
      exact h.valid

/-- A chain without a cluster of `cs` stays. -/
theorem FatFrame.chain {cs cs2 : List Nat} (hw : fs.WellFormed t) (h : FatFrame cs fs d fs' d')
    (hc : Chain fs d cs2) (hdisj : ∀ c ∈ cs2, c ∉ cs) : Chain fs' d' cs2 :=
  hc.congr h.geometry fun c hmem =>
    h.entries c (hc.clst c hmem) (hdisj c hmem) (by have := hc.ne_zero hw hmem; omega)

/-- At the end of a chain `create_chain` takes a free cluster, wherever there is one, and none that
is in use. It returns 0 exactly when there is none. The other chains of the volume stay, even when
the drive fails. By what the search finds, and by what it does to a chain on other clusters. -/
theorem createChain_takes_free (hs : Sound t fs d) {cs : List Nat} (hc : Chain fs d cs)
    {clst : UInt32} (hend : EndOf cs clst) :
    Ends ok (createChain fs clst) (fun r d' =>
      (∀ cs2, Chain fs d cs2 → (∀ c ∈ cs2, c ∉ cs) → Chain r.2 d' cs2) ∧
      ((r.1 ≠ 0 ∧ fs.fat d r.1.toNat = 0 ∧ Chain r.2 d' (cs ++ [r.1.toNat]) ∧ Sound t r.2 d' ∧
          r.2.freeClusters d' + 1 = fs.freeClusters d) ∨
        (r.1 = 0 ∧ fs.freeClusters d = 0 ∧ Chain r.2 d' cs ∧ Sound t r.2 d') ∨
        r.1 = 0xFFFFFFFF ∧ MayFail ok)) d := by
  have hw := hs.wellFormed
  have hin : clst ≠ 0 → clst.toNat ∈ cs := by
    intro hne
    rcases hend with ⟨rfl, -⟩ | ⟨-, init, rfl⟩
    · exact absurd rfl hne
    · exact List.mem_append_right _ (List.mem_singleton.2 rfl)
  have hlast : clst ≠ 0 → fs.Last (fs.fat d clst.toNat) := by
    intro hne
    rcases hend with ⟨rfl, -⟩ | ⟨-, init, rfl⟩
    · exact absurd rfl hne
    · have hmark := hc.linked.last_getElem (i := init.length) (by simp) (by simp)
      simpa using hmark
  -- the end of the chain is in no other one
  have hout : ∀ cs2, Chain fs d cs2 → (∀ c ∈ cs2, c ∉ cs) → ∀ c ∈ cs2, c ∉ [clst.toNat] := by
    intro cs2 hc2 hdisj c hmem heq
    rw [List.mem_singleton] at heq
    have htwo := (hc2.clst c hmem).1
    have hne : clst ≠ 0 := by
      rintro rfl
      rw [heq] at htwo
      exact absurd htwo (by decide)
    rw [heq] at hmem
    exact hdisj _ hmem (hin hne)
  refine always_mono ?_ (keeps_createChain hs fun hne =>
    ⟨hc.clst _ (hin hne), hc.ne_zero hw (hin hne)⟩)
  rintro ⟨ncl, fs1⟩ d1 hcreated
  cases hcreated with
  | followed hlooked hne hncl hlt =>
    have hmark : fs.nFatent.toNat ≤ fs.fat d clst.toNat := hlast hne
    omega
  | stretched _ hst =>
    have hne : ncl ≠ 0 := by
      rintro rfl
      exact absurd hst.valid.1 (by decide)
    refine ⟨fun cs2 hc2 hdisj => ?_, .inl ⟨hne, hst.free, hst.chain hw hc hend, hst.sound,
      hst.count⟩⟩
    refine hc2.congr hst.geometry fun c hmem => hst.others c (hc2.clst c hmem) ?_ ?_
    · rintro rfl
      have hused := hc2.ne_zero hw hmem
      rw [hst.free] at hused
      omega
    · rintro rfl
      exact hout cs2 hc2 hdisj _ hmem (List.mem_singleton.2 rfl)
  | full hlooked _ hcount =>
    have hkeep : ∀ cs2, Chain fs d cs2 → Chain fs1 d1 cs2 := fun cs2 hc2 =>
      hc2.congr hlooked.geometry fun c hmem => looked_fat hw hlooked (hc2.clst c hmem).2
    exact ⟨fun cs2 hc2 _ => hkeep cs2 hc2,
      .inr (.inl ⟨rfl, hcount, hkeep cs hc, hs.looked hlooked⟩)⟩
  | failed hframe hfail =>
    exact ⟨fun cs2 hc2 hdisj => hframe.chain hw hc2 (hout cs2 hc2 hdisj),
      .inr (.inr ⟨rfl, hfail⟩)⟩

/-- The small volume is in order. -/
theorem small_sound : Sound .fat12 smallFs smallDisk where
  wellFormed := small_wellFormed
  coherent := small_coherent
  sane := by
    have hall : ∀ c < 5, smallFs.fat smallDisk c ≠ 1 := by decide
    exact fun c hc => hall c hc.2
  count := .inl (by decide)

/-- It has a chain of one cluster. -/
theorem small_chain : Chain smallFs smallDisk [2] where
  linked := by
    show 5 ≤ smallFs.fat smallDisk 2
    decide
  clst := by
    intro c hc
    rw [List.mem_singleton.1 hc]
    exact ⟨by decide, by decide⟩

/-- That chain stretched by a cluster. Whatever the drive does, other chains stay. -/
theorem createChain_small :
    Ends AnyAnswer (createChain smallFs 2) (fun r d' =>
      (∀ cs2, Chain smallFs smallDisk cs2 → (∀ c ∈ cs2, c ∉ [2]) → Chain r.2 d' cs2) ∧
      ((r.1 ≠ 0 ∧ smallFs.fat smallDisk r.1.toNat = 0 ∧ Chain r.2 d' ([2] ++ [r.1.toNat]) ∧
          Sound .fat12 r.2 d' ∧ r.2.freeClusters d' + 1 = smallFs.freeClusters smallDisk) ∨
        (r.1 = 0 ∧ smallFs.freeClusters smallDisk = 0 ∧ Chain r.2 d' [2] ∧
          Sound .fat12 r.2 d') ∨
        r.1 = 0xFFFFFFFF ∧ MayFail AnyAnswer)) smallDisk :=
  createChain_takes_free small_sound small_chain (.inr ⟨by decide, [], rfl⟩)

/-- `remove_chain` frees the clusters from `clst` on, and no other. What is in front of them is a
chain of its own, and the other chains stay. Each of the chains is compared with the clusters that
have been freed, and shares none of them. -/
theorem removeChain_frees (hs : Sound t fs d) {front rest : List Nat} {clst pclst : UInt32}
    (hc : Chain fs d (front ++ clst.toNat :: rest)) (hfront : EndOf front pclst) :
    Ends ok (removeChain fs clst pclst) (fun r d' =>
      (∀ cs2, Chain fs d cs2 → (∀ c ∈ cs2, c ∉ front ++ clst.toNat :: rest) → Chain r.2 d' cs2) ∧
      ((r.1 = .ok ∧ Chain r.2 d' front ∧ (∀ c ∈ clst.toNat :: rest, r.2.fat d' c = 0) ∧
          Sound t r.2 d' ∧
          r.2.freeClusters d' = fs.freeClusters d + (rest.length + 1)) ∨
        r.1 = .diskErr ∧ MayFail ok)) d := by
  have hw := hs.wellFormed
  have hnodup := List.nodup_append.1 hc.nodup
  have hrest : Chain fs d (clst.toNat :: rest) :=
    ⟨hc.linked.of_append, fun c hmem => hc.clst c (List.mem_append_right _ hmem)⟩
  -- the marked cluster is one of the file, so a chain apart from it is kept
  have hin : pclst ≠ 0 → pclst.toNat ∈ front := by
    intro hne
    rcases hfront with ⟨rfl, -⟩ | ⟨-, init, rfl⟩
    · exact absurd rfl hne
    · exact List.mem_append_right _ (List.mem_singleton.2 rfl)
  refine always_mono ?_ (keeps_removeChain hs hrest fun hne => ?_)
  · rintro ⟨res, fs1⟩ d1 (⟨rfl, hrem⟩ | ⟨rfl, hfail, hframe⟩)
    · have hkeep : ∀ c, fs.Clst c → c ∉ front ++ clst.toNat :: rest →
          fs1.fat d1 c = fs.fat d c := by
        intro c hcc hout
        rw [List.mem_append, not_or] at hout
        refine hrem.others c hcc hout.2 ?_
        rintro rfl
        have hne : pclst ≠ 0 := by
          rintro rfl
          exact absurd hcc.1 (by decide)
        exact hout.1 (hin hne)
      refine ⟨fun cs2 hc2 hdisj => hc2.congr hrem.geometry fun c hmem =>
        hkeep c (hc2.clst c hmem) (hdisj c hmem), .inl ⟨rfl, ?_, hrem.free, hrem.sound, ?_⟩⟩
      · -- the front, if there is one, ends with the marked cluster
        rcases hfront with ⟨-, rfl⟩ | ⟨hne, init, rfl⟩
        · exact ⟨trivial, fun c hmem => absurd hmem List.not_mem_nil⟩
        · rw [List.append_assoc] at hc
          have hlast : fs1.Last = fs.Last := congrArg Geometry.Last hrem.geometry
          have hclst : fs1.Clst = fs.Clst := congrArg Geometry.Clst hrem.geometry
          refine ⟨?_, ?_⟩
          · rw [hlast]
            refine Linked.take hc.linked (fun c hmem => ?_)
              (hrem.mark hne)
            refine hrem.others c (hc.clst c (List.mem_append_left _ hmem)) (fun hbad => ?_) ?_
            · exact hnodup.2.2 c (List.mem_append_left _ hmem) c hbad rfl
            · rintro rfl
              exact (List.nodup_append.1 hnodup.1).2.2 _ hmem _ (List.mem_singleton.2 rfl) rfl
          · rw [hclst, ← List.append_assoc] at *
            exact fun c hmem => hc.clst c (List.mem_append_left _ hmem)
      · rw [hrem.count, List.length_cons]
    · -- on a failure only the clusters of the file may have changed
      refine ⟨fun cs2 hc2 hdisj => hframe.chain hw hc2 fun c hmem heq => ?_, .inr ⟨rfl, hfail⟩⟩
      rcases List.mem_cons.1 heq with rfl | hmem'
      · have htwo := (hc2.clst _ hmem).1
        have hne : pclst ≠ 0 := by
          rintro rfl
          exact absurd htwo (by decide)
        exact hdisj _ hmem (List.mem_append_left _ (hin hne))
      · exact hdisj c hmem (List.mem_append_right _ hmem')
  · have hmem := hin hne
    refine ⟨hc.clst _ (List.mem_append_left _ hmem), ?_, fun hbad => ?_⟩
    · have hused := hc.ne_zero hw (List.mem_append_left _ hmem)
      omega
    · exact hnodup.2.2 _ hmem _ hbad rfl

/-- That chain removed. -/
theorem removeChain_small :
    Ends AnyAnswer (removeChain smallFs 2 0) (fun r d' =>
      (∀ cs2, Chain smallFs smallDisk cs2 → (∀ c ∈ cs2, c ∉ [] ++ [(2 : UInt32).toNat]) →
        Chain r.2 d' cs2) ∧
      ((r.1 = .ok ∧ Chain r.2 d' [] ∧ (∀ c ∈ [(2 : UInt32).toNat], r.2.fat d' c = 0) ∧
          Sound .fat12 r.2 d' ∧
          r.2.freeClusters d' = smallFs.freeClusters smallDisk + (0 + 1)) ∨
        r.1 = .diskErr ∧ MayFail AnyAnswer)) smallDisk :=
  removeChain_frees small_sound small_chain (.inl ⟨rfl, rfl⟩)

end NucleoH743.Ff
