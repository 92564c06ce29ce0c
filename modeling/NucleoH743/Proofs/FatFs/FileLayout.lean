import NucleoH743.FatFs.File
import NucleoH743.Lib.Scatter
import NucleoH743.Proofs.FatFs.Chains

/-!
# `Proofs.FatFs.FileLayout`: the bytes of a file

The clusters of a chain are, one behind the other, the memory of a file. The sector buffer of a
file object lies over it. `Opened fs d fp cs` says that `fp` is a file object in order, on the
chain `cs`, and `Fil.content` is what the file holds.

Three layers lie between a byte of a file and the drive. The clusters of the chain are gathered into
one memory (`Geometry.fileAddr`, by `Lib.Scatter`). The sector buffer of the object, while it is
dirty, is newer than its sector (`Fil.view`, by `Lib.WriteBack`). And the window of the filesystem
object must not show a sector of the file, or there would be two copies of it (`Fatfs.Away`): it is
in the FAT or in a directory, and both lie beside the clusters of an open file.

`Frame` is what all calls on a file have in common. The chain may take clusters that were free, the
entries of other chains and the bytes of other clusters stay, and this is what another open file
needs. It also holds when the drive fails, where nothing is said of the file itself.

- `Frame`: what a call on one file leaves of the volume.
- `Opened.frame`: the other files stay as they are.
- `keeps_flushSector`, `keeps_readSector`, `keeps_loadSector`: the sector buffer.
-/

set_option autoImplicit false

namespace NucleoH743.Ff

open Diskio Mkfs Chains
open Prog (always_seq always_mono)

/-! ### Clusters as bytes -/

namespace Geometry

/-- The size of a cluster in bytes. -/
def bcs (g : Geometry) : Nat := g.csize.toNat * 4096

/-- Where a cluster begins. -/
def clstAddr (g : Geometry) (c : Nat) : Nat :=
  (g.database.toNat + g.csize.toNat * (c - 2)) * 4096

/-- A byte of the clusters `cs`. -/
def InClsts (g : Geometry) (cs : List Nat) (a : Nat) : Prop :=
  ∃ c ∈ cs, g.clstAddr c ≤ a ∧ a < g.clstAddr c + g.bcs

variable {g : Geometry} {t : FatType}

/-- A cluster has a sector. It is the divisor wherever a position is turned into a cluster. -/
theorem WellFormed.csize_pos (hw : g.WellFormed t) : 0 < g.csize.toNat := by
  obtain ⟨k, hk⟩ := hw.csize
  rw [hk]
  exact Nat.two_pow_pos k

/-- So it has a byte. -/
theorem WellFormed.bcs_pos (hw : g.WellFormed t) : 0 < g.bcs := by
  have hpos := hw.csize_pos
  unfold bcs
  omega

/-- A FAT has a sector: it has room for the entries, of which there are at least two. -/
theorem WellFormed.fsize_pos (hw : g.WellFormed t) : 0 < g.fsize.toNat := by
  have hroom := hw.room 0 (Nat.lt_of_lt_of_le (by decide) hw.entries)
  have hwidth : 0 < entryWidth t := by cases t <;> decide
  omega

/-- The data area does not begin at sector 0, where the FATs are in front of it. -/
theorem WellFormed.database_pos (hw : g.WellFormed t) : 0 < g.database.toNat := by
  have hfats := hw.fats
  have hpos : 0 < g.nFats.toNat * g.fsize.toNat := by
    refine Nat.mul_pos ?_ hw.fsize_pos
    rcases hw.copies with h | h <;> rw [h] <;> decide
  omega

/-- The clusters behind `c` begin behind its last byte. -/
theorem clstAddr_le {c c' : Nat} (htwo : 2 ≤ c) (hlt : c < c') :
    g.clstAddr c + g.bcs ≤ g.clstAddr c' := by
  have hle : g.csize.toNat * (c - 2 + 1) ≤ g.csize.toNat * (c' - 2) :=
    Nat.mul_le_mul_left _ (by omega)
  rw [Nat.mul_add, Nat.mul_one] at hle
  unfold clstAddr bcs
  omega

/-- Two clusters have no byte in common. -/
theorem clstAddr_apart {c c' : Nat} (hc : 2 ≤ c) (hc' : 2 ≤ c') (hne : c ≠ c') :
    g.clstAddr c + g.bcs ≤ g.clstAddr c' ∨ g.clstAddr c' + g.bcs ≤ g.clstAddr c := by
  rcases Nat.lt_or_gt_of_ne hne with hlt | hgt
  · exact .inl (clstAddr_le hc hlt)
  · exact .inr (clstAddr_le hc' hgt)

/-- The last byte of the clusters. -/
theorem clstAddr_end (hw : g.WellFormed t) {c : Nat} (hc : g.Clst c) :
    g.clstAddr c + g.bcs ≤ (2 ^ 32 - 1) * 4096 := by
  have hdata := hw.data
  have htwo := hc.1
  have hlt := hc.2
  have hle : g.csize.toNat * (c - 2 + 1) ≤ g.csize.toNat * (g.nFatent.toNat - 2) :=
    Nat.mul_le_mul_left _ (by omega)
  rw [Nat.mul_add, Nat.mul_one] at hle
  unfold clstAddr bcs
  omega

/-- The clusters lie behind the FATs. -/
theorem WellFormed.not_inFats (hw : g.WellFormed t) {cs : List Nat} {a : Nat}
    (h : g.InClsts cs a) : ¬ g.InFats a := by
  obtain ⟨c, -, hle, -⟩ := h
  have hfats := hw.fats
  rintro ⟨-, hlt⟩
  unfold clstAddr at hle
  omega

/-- The bytes of a sector are all in the clusters or none. -/
theorem inClsts_sector {cs : List Nat} {a a' : Nat} (heq : a / 4096 = a' / 4096)
    (h : g.InClsts cs a) : g.InClsts cs a' := by
  obtain ⟨c, hc, hle, hlt⟩ := h
  refine ⟨c, hc, ?_⟩
  unfold clstAddr bcs at *
  omega

/-- A byte of some clusters is a byte of more. -/
theorem InClsts.mono {cs cs' : List Nat} {a : Nat} (h : g.InClsts cs a) (hsub : cs ⊆ cs') :
    g.InClsts cs' a := by
  obtain ⟨c, hc, hin⟩ := h
  exact ⟨c, hsub hc, hin⟩

/-- A byte lies in one cluster only. -/
theorem InClsts.disjoint {cs cs' : List Nat} {a : Nat} (h : g.InClsts cs a)
    (h' : g.InClsts cs' a) (hcs : ∀ c ∈ cs, 2 ≤ c) (hcs' : ∀ c ∈ cs', 2 ≤ c) :
    ∃ c ∈ cs, c ∈ cs' := by
  obtain ⟨c, hc, hle, hlt⟩ := h
  obtain ⟨c', hc', hle', hlt'⟩ := h'
  refine ⟨c, hc, ?_⟩
  by_cases heq : c = c'
  · rwa [heq]
  · have hapart := clstAddr_apart (g := g) (hcs c hc) (hcs' c' hc') heq
    omega

end Geometry

variable {ok : Answer → Prop} {t : FatType} {fs fs' : Fatfs} {d d' : Image} {fp : Fil}
  {cs : List Nat}

/-- `clst2sect` on a cluster of the volume. Neither the product nor the sum wraps, because the
volume ends below 2^32 sectors. -/
theorem toNat_clst2sect (hw : fs.WellFormed t) {clst : UInt32} (hc : fs.Clst clst.toNat) :
    (clst2sect fs.toGeometry clst).toNat =
      fs.database.toNat + fs.csize.toNat * (clst.toNat - 2) := by
  have htwo : (2 : UInt32) ≤ clst := UInt32.le_iff_toNat_le.2 hc.1
  have hsub : (clst - 2).toNat = clst.toNat - 2 := UInt32.toNat_sub_of_le _ _ htwo
  have hn := toNat_nFatent_sub hw
  have hdata := hw.data
  have hlt := hc.2
  have hge := hc.1
  have hle : fs.csize.toNat * (clst.toNat - 2) ≤ fs.csize.toNat * (fs.nFatent.toNat - 2) :=
    Nat.mul_le_mul_left _ (by omega)
  unfold clst2sect
  rw [if_neg (by rw [UInt32.le_iff_toNat_le, hn, hsub]; omega), UInt32.toNat_add,
    UInt32.toNat_mul, UInt16.toNat_toUInt32, hsub]
  omega

/-- The sector of a cluster is not 0, which is what `clst2sect` returns for a number that is
none. -/
theorem clst2sect_ne_zero (hw : fs.WellFormed t) {clst : UInt32} (hc : fs.Clst clst.toNat) :
    clst2sect fs.toGeometry clst ≠ 0 := by
  intro hzero
  have hpos := hw.database_pos
  have hnat := toNat_clst2sect hw hc
  rw [hzero] at hnat
  have hz : (0 : UInt32).toNat = 0 := rfl
  omega

/-! ### The window beside a file -/

/-- The window does not show a sector of the clusters. -/
def Fatfs.Away (fs : Fatfs) (cs : List Nat) : Prop := ¬ fs.InClsts cs (sectAddr fs.winsect)

/-- A window that was beside the clusters, or is in front of them or invalid. In each of the three
cases it shows no sector of a cluster. -/
theorem away_of_placed (hw : fs.WellFormed t) (hg : fs'.toGeometry = fs.toGeometry)
    (hplaced : fs'.winsect = fs.winsect ∨ fs'.winsect.toNat < fs.database.toNat ∨
      fs'.winsect = 0 - 1) (hcs : ∀ c ∈ cs, fs.Clst c) (haway : fs.Away cs) : fs'.Away cs := by
  unfold Fatfs.Away
  rw [hg]
  rintro ⟨c, hc, hle, hlt⟩
  rcases hplaced with heq | hbelow | hinv
  · rw [heq] at hle hlt
    exact haway ⟨c, hc, hle, hlt⟩
  · unfold Geometry.clstAddr sectAddr at hle
    omega
  · have hend := Geometry.clstAddr_end hw (hcs c hc)
    have hlast : (0 - 1 : UInt32).toNat = 2 ^ 32 - 1 := rfl
    rw [hinv, sectAddr, hlast] at hlt
    omega

/-- A byte of the clusters is not in the window. -/
theorem away_byte (haway : fs.Away cs) {a : Nat} (ha : fs.InClsts cs a) :
    a < sectAddr fs.winsect ∨ sectAddr fs.winsect + 4096 ≤ a := by
  by_contra hin
  refine haway (Geometry.inClsts_sector ?_ ha)
  unfold sectAddr at hin ⊢
  omega

/-- What is read from the clusters is what is seen. -/
theorem slice_view (haway : fs.Away cs) {addr n : Nat}
    (hin : ∀ i < n, fs.InClsts cs (addr + i)) :
    Blocks.slice d addr n = Blocks.slice (fs.view d) addr n := by
  unfold Blocks.slice
  refine List.map_congr_left fun i hi => ?_
  exact (WriteBack.view_outside (away_byte haway (hin i (List.mem_range.1 hi)))).symm

/-- The disk has changed in the clusters `cs` only. -/
structure OwnOnly (cs : List Nat) (fs : Fatfs) (d d' : Image) : Prop where
  coherent : fs.Coherent d'
  bytes : ∀ a, ¬ fs.InClsts cs a → fs.view d' a = fs.view d a

/-- A call that writes nothing has changed no other cluster. -/
theorem OwnOnly.refl (h : fs.Coherent d) : OwnOnly cs fs d d := ⟨h, fun _ _ => rfl⟩

/-- Two changes inside the same clusters are one. -/
theorem OwnOnly.trans {d'' : Image} (h : OwnOnly cs fs d d') (h' : OwnOnly cs fs d' d'') :
    OwnOnly cs fs d d'' :=
  ⟨h'.coherent, fun a ha => (h'.bytes a ha).trans (h.bytes a ha)⟩

/-- A write to the clusters. What is seen of the disk has the data at the same place, and what is
outside of the clusters has not changed. The window shows none of the bytes, by `Away`. -/
theorem ownOnly_store (hcoh : fs.Coherent d) (haway : fs.Away cs) {addr : Nat} {data : List UInt8}
    (hin : ∀ i < data.length, fs.InClsts cs (addr + i)) :
    fs.view (Blocks.store d addr data) = Blocks.store (fs.view d) addr data ∧
      OwnOnly cs fs d (Blocks.store d addr data) := by
  have hview : fs.view (Blocks.store d addr data) = Blocks.store (fs.view d) addr data := by
    by_cases hnil : data = []
    · subst hnil
      simp
    · refine WriteBack.view_store_other ?_
      have hlen := List.length_pos_iff.2 hnil
      by_contra hcross
      have haddr : fs.window.addr = sectAddr fs.winsect := rfl
      rw [haddr] at hcross
      -- the two overlap at the begin of one of them
      have hmeet := away_byte haway (hin (max addr (sectAddr fs.winsect) - addr) (by omega))
      omega
  refine ⟨hview, ?_, ?_⟩
  · intro hne i hi
    show fs.view _ _ = _
    rw [hview]
    have hout : sectAddr fs.winsect + i < addr ∨ addr + data.length ≤ sectAddr fs.winsect + i := by
      by_contra hmem
      have hmeet := away_byte haway (hin (sectAddr fs.winsect + i - addr) (by omega))
      omega
    exact (Blocks.store_of_outside _ _ hout).trans (hcoh hne i hi)
  · intro a ha
    rw [hview]
    refine Blocks.store_of_outside _ _ ?_
    by_contra hmem
    refine ha ?_
    have hcell := hin (a - addr) (by omega)
    rwa [Nat.add_sub_cancel' (by omega)] at hcell

/-- The FAT is not in the clusters. -/
theorem OwnOnly.fat (hw : fs.WellFormed t) (h : OwnOnly cs fs d d') {c : Nat}
    (hc : c < fs.nFatent.toNat) : fs.fat d' c = fs.fat d c := by
  have hmem : ∀ i < fs.fsize.toNat * 4096, fs.fatMem d' i = fs.fatMem d i := fun i hi =>
    h.bytes _ fun hin => hw.not_inFats hin (hw.inFats hi)
  rw [fat_congr hw rfl hmem hc, fat_eq hw]

/-- A change inside the clusters leaves the number of the free ones alone: the FAT is elsewhere. -/
theorem OwnOnly.freeClusters (hw : fs.WellFormed t) (h : OwnOnly cs fs d d') :
    fs.freeClusters d' = fs.freeClusters d :=
  freeCount_congr fun c _ hlt => by rw [h.fat hw hlt]

/-- A look at the FAT leaves it alone too. -/
theorem Looked.freeClusters (hw : fs.WellFormed t) (h : Looked fs d fs' d') :
    fs'.freeClusters d' = fs.freeClusters d := by
  unfold Fatfs.freeClusters
  rw [congrArg Geometry.nFatent h.geometry]
  exact freeCount_congr fun c _ hlt => by rw [looked_fat hw h hlt]

/-- So the volume stays in order. -/
theorem OwnOnly.sound (hs : Sound t fs d) (h : OwnOnly cs fs d d') : Sound t fs d' := by
  refine ⟨hs.wellFormed, h.coherent, ?_, ?_⟩
  · intro c hc
    rw [h.fat hs.wellFormed hc.2]
    exact hs.sane c hc
  · rw [h.freeClusters hs.wellFormed]
    exact hs.count

/-! ### What a call on one file leaves -/

/-- A call on a file with the chain `old`, which becomes `new`, takes free clusters only, and
changes nothing in the clusters and entries of others. -/
structure Frame (old new : List Nat) (fs : Fatfs) (d : Image) (fs' : Fatfs) (d' : Image) : Prop
    where
  geometry : fs'.toGeometry = fs.toGeometry
  id : fs'.id = fs.id
  coherent : fs'.Coherent d'
  grows : old ⊆ new
  valid : ∀ c ∈ new, fs.Clst c
  fresh : ∀ c ∈ new, c ∈ old ∨ fs.fat d c = 0
  entries : ∀ c, fs.Clst c → c ∉ old → fs.fat d c ≠ 0 → fs'.fat d' c = fs.fat d c
  bytes : ∀ a, ¬ fs.InFats a → ¬ fs.InClsts new a → fs'.view d' a = fs.view d a
  placed : fs'.winsect = fs.winsect ∨ fs'.winsect.toNat < fs.database.toNat ∨
    fs'.winsect = 0 - 1

/-- A change inside the own clusters is one that the frame of a call allows, with the chain as it
was. -/
theorem OwnOnly.frame (hw : fs.WellFormed t) (h : OwnOnly cs fs d d')
    (hcs : ∀ c ∈ cs, fs.Clst c) : Frame cs cs fs d fs d' where
  geometry := rfl
  id := rfl
  coherent := h.coherent
  grows := fun _ hc => hc
  valid := hcs
  fresh := fun _ hc => .inl hc
  entries := fun _ hc _ _ => h.fat hw hc.2
  bytes := fun a _ ha => h.bytes a ha
  placed := .inl rfl

/-- A call that does nothing keeps the files of others. -/
theorem Frame.refl (hcoh : fs.Coherent d) (hcs : ∀ c ∈ cs, fs.Clst c) :
    Frame cs cs fs d fs d where
  geometry := rfl
  id := rfl
  coherent := hcoh
  grows := fun _ hc => hc
  valid := hcs
  fresh := fun _ hc => .inl hc
  entries := fun _ _ _ _ => rfl
  bytes := fun _ _ _ => rfl
  placed := .inl rfl

/-- Changes of the FAT alone. -/
theorem FatFrame.file {own : List Nat} (h : FatFrame own fs d fs' d')
    (hown : ∀ c ∈ own, fs.Clst c → c ∈ cs) (hcs : ∀ c ∈ cs, fs.Clst c) :
    Frame cs cs fs d fs' d' where
  geometry := h.geometry
  id := h.id
  coherent := h.coherent
  grows := fun _ hc => hc
  valid := hcs
  fresh := fun _ hc => .inl hc
  entries := fun c hc hout hne => h.entries c hc (fun hmem => hout (hown c hmem hc)) hne
  bytes := fun a ha _ => h.outside a ha
  placed := h.placed

/-- A look at the FAT. -/
theorem Looked.file (hw : fs.WellFormed t) (h : Looked fs d fs' d') (hcs : ∀ c ∈ cs, fs.Clst c) :
    Frame cs cs fs d fs' d' :=
  (h.frame hw []).file (fun _ hc => absurd hc List.not_mem_nil) hcs

/-- The frames of two calls make one. The clusters that the second call takes are free after the
first, so they were free before it or belonged to the file, and no other file has them. -/
theorem Frame.trans {old mid new : List Nat} {fs'' : Fatfs} {d'' : Image}
    (h : Frame old mid fs d fs' d') (h' : Frame mid new fs' d' fs'' d'') :
    Frame old new fs d fs'' d'' := by
  have hclst : fs'.Clst = fs.Clst := congrArg Geometry.Clst h.geometry
  have hvalid : ∀ c ∈ new, fs.Clst c := by
    rw [← hclst]
    exact h'.valid
  refine ⟨h'.geometry.trans h.geometry, h'.id.trans h.id, h'.coherent,
    fun _ hc => h'.grows (h.grows hc), hvalid, ?_, ?_, ?_, ?_⟩
  · intro c hc
    rcases h'.fresh c hc with hmid | hzero
    · exact h.fresh c hmid
    · by_contra hnot
      rw [not_or] at hnot
      rw [h.entries c (hvalid c hc) hnot.1 hnot.2] at hzero
      exact hnot.2 hzero
  · intro c hc hout hne
    have heq := h.entries c hc hout hne
    have hmid : c ∉ mid := by
      intro hmem
      rcases h.fresh c hmem with hold | hzero
      · exact hout hold
      · exact hne hzero
    rw [h'.entries c (by rwa [hclst]) hmid (by rwa [heq]), heq]
  · intro a hfats ha
    have hfats' : ¬ fs'.InFats a := by rwa [h.geometry]
    have ha' : ¬ fs'.InClsts new a := by rwa [h.geometry]
    rw [h'.bytes a hfats' ha', h.bytes a hfats fun hin => ha (hin.mono h'.grows)]
  · have hbase : fs'.database = fs.database := congrArg Geometry.database h.geometry
    rcases h'.placed with heq | hlt | hinv
    · rw [heq]
      exact h.placed
    · rw [hbase] at hlt
      exact .inr (.inl hlt)
    · exact .inr (.inr hinv)

/-! ### File objects -/

/-- The sector buffer. -/
def Fil.buffer (fp : Fil) : WriteBack.Buffer UInt8 := ⟨sectAddr fp.sect, fp.buf, fp.faDirty⟩

/-- The disk as the file object sees it. -/
def Fil.view (fp : Fil) (m : Image) : Image := WriteBack.view 4096 fp.buffer m

/-- The buffer shows a sector of the chain. -/
def Fil.Shows (fp : Fil) (g : Geometry) (cs : List Nat) : Prop := g.InClsts cs (sectAddr fp.sect)

/-- The address of byte `i` of the file. -/
def Geometry.fileAddr (g : Geometry) (cs : List Nat) (i : Nat) : Nat :=
  Scatter.addr g.bcs (cs.map g.clstAddr) i

/-- The memory of the file. -/
def Fil.mem (fp : Fil) (fs : Fatfs) (d : Image) (cs : List Nat) : Nat → UInt8 :=
  Scatter.gather fs.bcs (cs.map fs.clstAddr) (fp.view (fs.view d))

/-- What the file holds. -/
def Fil.content (fp : Fil) (fs : Fatfs) (d : Image) (cs : List Nat) : List UInt8 :=
  Blocks.slice (fp.mem fs d cs) 0 fp.objsize.toNat

/-- A file object on the chain `cs`. -/
structure Opened (fs : Fatfs) (d : Image) (fp : Fil) (cs : List Nat) : Prop where
  chain : Chain fs d cs
  head : fp.sclust.toNat = cs.headD 0
  size : fp.objsize.toNat ≤ cs.length * fs.bcs
  ptr : fp.fptr.toNat ≤ fp.objsize.toNat
  clust : 0 < fp.fptr.toNat → cs[(fp.fptr.toNat - 1) / fs.bcs]? = some fp.clust.toNat
  sect : fp.fptr.toNat % 4096 ≠ 0 →
    sectAddr fp.sect = fs.fileAddr cs (fp.fptr.toNat / 4096 * 4096)
  shown : fp.sect.toNat < fs.database.toNat ∨ fp.Shows fs.toGeometry cs
  dirty : fp.faDirty = true → fp.Shows fs.toGeometry cs
  holds : fp.Shows fs.toGeometry cs → WriteBack.Holds 4096 fp.buffer (fs.view d)
  away : fs.Away cs

/-- The memory of a file is in its clusters, which the calls on other files leave. -/
theorem frame_byte {old new : List Nat} (hw : fs.WellFormed t) (h : Frame old new fs d fs' d')
    (hcs : ∀ c ∈ cs, 2 ≤ c) (hdisj : ∀ c ∈ cs, c ∉ new) {a : Nat} (ha : fs.InClsts cs a) :
    fs'.view d' a = fs.view d a := by
  refine h.bytes a (hw.not_inFats ha) fun hnew => ?_
  obtain ⟨c, hc, hmem⟩ := ha.disjoint hnew hcs fun c hc => (h.valid c hc).1
  exact hdisj c hc hmem

/-- The buffer block of a file is in its clusters. -/
theorem Fil.Shows.byte (h : fp.Shows fs.toGeometry cs) {i : Nat} (hi : i < 4096) :
    fs.InClsts cs (sectAddr fp.sect + i) := by
  refine Geometry.inClsts_sector ?_ h
  unfold sectAddr
  omega

/-- What the file object sees depends on the bytes of its clusters. -/
theorem view_congr {m m' : Image} {a : Nat} (h : m' a = m a) : fp.view m' a = fp.view m a := by
  unfold Fil.view WriteBack.view
  split
  · exact Blocks.store_congr _ _ h
  · exact h

/-- A cell of the file lies in its clusters. -/
theorem fileAddr_mem (hw : fs.WellFormed t) {i : Nat} (hi : i < cs.length * fs.bcs) :
    fs.InClsts cs (fs.fileAddr cs i) := by
  have hdiv : i / fs.bcs < (cs.map fs.clstAddr).length := by
    rw [List.length_map]
    exact Scatter.div_lt hi
  have hmod := Nat.mod_lt i hw.bcs_pos
  rw [Geometry.fileAddr, Scatter.addr_eq hdiv, List.getElem_map]
  exact ⟨_, List.getElem_mem _, Nat.le_add_right _ _, by omega⟩

/-- A file whose entries and bytes are as they were. The FAT entries of its own chain and the bytes
of its own clusters are all that a file depends on, so other files may have changed. -/
theorem Opened.of_bytes (hw : fs.WellFormed t) (ho : Opened fs d fp cs)
    (hgeo : fs'.toGeometry = fs.toGeometry) (hfat : ∀ c ∈ cs, fs'.fat d' c = fs.fat d c)
    (hbytes : ∀ a, fs.InClsts cs a → fs'.view d' a = fs.view d a) (haway : fs'.Away cs) :
    Opened fs' d' fp cs ∧ ∀ i < cs.length * fs.bcs, fp.mem fs' d' cs i = fp.mem fs d cs i := by
  constructor
  · constructor
    case chain => exact ho.chain.congr hgeo hfat
    case head => exact ho.head
    case size =>
      rw [hgeo]
      exact ho.size
    case ptr => exact ho.ptr
    case clust =>
      rw [hgeo]
      exact ho.clust
    case sect =>
      rw [hgeo]
      exact ho.sect
    case shown =>
      rw [hgeo]
      exact ho.shown
    case dirty =>
      rw [hgeo]
      exact ho.dirty
    case holds =>
      rw [hgeo]
      intro hshows i hi
      exact (view_congr (hbytes _ (hshows.byte hi))).trans (ho.holds hshows i hi)
    case away => exact haway
  · intro i hi
    unfold Fil.mem
    rw [hgeo]
    exact view_congr (hbytes _ (fileAddr_mem hw hi))

/-- The content depends on the memory of the file. -/
theorem content_congr (ho : Opened fs d fp cs) {fp' : Fil} {cs' : List Nat}
    (hsize : fp'.objsize = fp.objsize)
    (h : ∀ i < cs.length * fs.bcs, fp'.mem fs' d' cs' i = fp.mem fs d cs i) :
    fp'.content fs' d' cs' = fp.content fs d cs := by
  unfold Fil.content
  rw [hsize]
  refine Blocks.slice_congr _ _ fun i hi => h _ ?_
  have hle := ho.size
  omega

/-- Another file is as it was. -/
theorem Opened.frame (hw : fs.WellFormed t) (ho : Opened fs d fp cs) {old new : List Nat}
    (h : Frame old new fs d fs' d') (hdisj : ∀ c ∈ cs, c ∉ new) :
    Opened fs' d' fp cs ∧ fp.content fs' d' cs = fp.content fs d cs := by
  have htwo : ∀ c ∈ cs, 2 ≤ c := fun c hc => (ho.chain.clst c hc).1
  have hfat : ∀ c ∈ cs, fs'.fat d' c = fs.fat d c := by
    intro c hc
    refine h.entries c (ho.chain.clst c hc) (fun hold => hdisj c hc (h.grows hold)) ?_
    have hused := ho.chain.ne_zero hw hc
    omega
  obtain ⟨ho', hmem⟩ := ho.of_bytes hw h.geometry hfat (fun _ => frame_byte hw h htwo hdisj)
    (away_of_placed hw h.geometry h.placed ho.chain.clst ho.away)
  exact ⟨ho', content_congr ho rfl hmem⟩

/-- The file after a change of the FAT that leaves its chain. -/
theorem Opened.fatOnly (hw : fs.WellFormed t) (ho : Opened fs d fp cs)
    (h : FatOnly fs d fs' d') (hfat : ∀ c ∈ cs, fs'.fat d' c = fs.fat d c) :
    Opened fs' d' fp cs ∧ ∀ i < cs.length * fs.bcs, fp.mem fs' d' cs i = fp.mem fs d cs i :=
  ho.of_bytes hw h.geometry hfat (fun _ ha => h.outside _ (hw.not_inFats ha))
    (away_of_placed hw h.geometry h.placed ho.chain.clst ho.away)

/-- A look at the FAT moves the window only, so the file is open as before and holds the same
bytes. -/
theorem Opened.looked (hw : fs.WellFormed t) (ho : Opened fs d fp cs) (h : Looked fs d fs' d') :
    Opened fs' d' fp cs ∧ ∀ i < cs.length * fs.bcs, fp.mem fs' d' cs i = fp.mem fs d cs i :=
  ho.fatOnly hw h.toFatOnly fun _ hc => looked_fat hw h (ho.chain.clst _ hc).2

/-- The file object after a change in its own clusters. What has to be said again are the fields
that the change may touch: the size, the pointer, the current cluster, the sector and the buffer. -/
theorem Opened.moved (hw : fs.WellFormed t) (ho : Opened fs d fp cs) (h : OwnOnly cs fs d d')
    {fp' : Fil} (hsclust : fp'.sclust = fp.sclust)
    (hsize : fp'.objsize.toNat ≤ cs.length * fs.bcs)
    (hptr : fp'.fptr.toNat ≤ fp'.objsize.toNat)
    (hclust : 0 < fp'.fptr.toNat →
      cs[(fp'.fptr.toNat - 1) / fs.bcs]? = some fp'.clust.toNat)
    (hsect : fp'.fptr.toNat % 4096 ≠ 0 →
      sectAddr fp'.sect = fs.fileAddr cs (fp'.fptr.toNat / 4096 * 4096))
    (hshown : fp'.sect.toNat < fs.database.toNat ∨ fp'.Shows fs.toGeometry cs)
    (hdirty : fp'.faDirty = true → fp'.Shows fs.toGeometry cs)
    (hholds : fp'.Shows fs.toGeometry cs → WriteBack.Holds 4096 fp'.buffer (fs.view d')) :
    Opened fs d' fp' cs where
  chain := ho.chain.congr rfl fun _ hc => h.fat hw (ho.chain.clst _ hc).2
  head := (congrArg UInt32.toNat hsclust).trans ho.head
  size := hsize
  ptr := hptr
  clust := hclust
  sect := hsect
  shown := hshown
  dirty := hdirty
  holds := hholds
  away := ho.away

/-! ### The sector buffer -/

/-- A clean buffer. -/
theorem Fil.eq_clean (h : fp.faDirty = false) : fp = { fp with faDirty := false } := by
  cases fp
  dsimp only at h
  rw [h]

/-- Writing the buffer back. A drive that fails leaves the content in the buffer. What is seen of
the file, through the buffer, is the same before and after. -/
theorem keeps_flushSector (hcoh : fs.Coherent d) (haway : fs.Away cs)
    (hdirty : fp.faDirty = true → fp.Shows fs.toGeometry cs)
    (hholds : fp.Shows fs.toGeometry cs → WriteBack.Holds 4096 fp.buffer (fs.view d)) :
    Ends ok (flushSector fp) (fun r d' => OwnOnly cs fs d d' ∧
      r.2.view (fs.view d') = fp.view (fs.view d) ∧
      (r.1 = .ok ∧ r.2 = { fp with faDirty := false } ∧
          (fp.Shows fs.toGeometry cs → WriteBack.Holds 4096 r.2.buffer (fs.view d')) ∨
        r.1 = .diskErr ∧ MayFail ok ∧ r.2 = fp)) d := by
  unfold flushSector
  by_cases hd : fp.faDirty = true
  · rw [if_pos hd]
    have hshows := hdirty hd
    have hstore : ∀ data : List UInt8, data.length = 4096 →
        fs.view (Blocks.store d (sectAddr fp.sect) data) =
          Blocks.store (fs.view d) (sectAddr fp.sect) data ∧
          OwnOnly cs fs d (Blocks.store d (sectAddr fp.sect) data) := fun data hdata =>
      ownOnly_store hcoh haway fun i hi => hshows.byte (by rwa [hdata] at hi)
    refine ends_diskWrite (n := 4096) rfl ?_ ?_
    · obtain ⟨hview, hown⟩ := hstore _ (length_sectors_one fp.buf)
      rw [if_neg (by decide)]
      refine ⟨hown, ?_, .inl ⟨rfl, rfl, fun _ => ?_⟩⟩
      · rw [hview]
        exact WriteBack.view_writeBack (b := fp.buffer) hd
      · rw [hview]
        exact WriteBack.holds_writeBack (b := fp.buffer)
    · intro data hdata hfail
      obtain ⟨hview, hown⟩ := hstore data hdata
      rw [if_pos (by decide)]
      refine ⟨hown, ?_, .inr ⟨rfl, hfail, rfl⟩⟩
      rw [hview]
      exact WriteBack.view_overwritten (b := fp.buffer) hd hdata.le
  · rw [if_neg hd]
    have hclean : fp.faDirty = false := by simpa using hd
    exact ⟨OwnOnly.refl hcoh, rfl, .inl ⟨rfl, Fil.eq_clean hclean, hholds⟩⟩

/-- Reading a sector of the chain. Without a failure the buffer holds what is seen of the disk at
this sector. A read that fails leaves anything in it. -/
theorem keeps_readSector (haway : fs.Away cs) {sect : UInt32}
    (hsect : fs.InClsts cs (sectAddr sect)) :
    Ends ok (readSector fp sect) (fun r d' => d' = d ∧ r.2 = { fp with buf := r.2.buf } ∧
      (r.1 = .ok ∧ (∀ i < 4096, r.2.buf i = fs.view d (sectAddr sect + i)) ∨
        r.1 = .diskErr ∧ MayFail ok)) d := by
  unfold readSector
  refine ends_diskRead (n := 4096) rfl ?_ ?_
  · have hbuf : ∀ i < 4096, memCpy 0 (Blocks.slice d (sectAddr sect) 4096) fp.buf i =
        fs.view d (sectAddr sect + i) := by
      intro i hi
      have hin : fs.InClsts cs (sectAddr sect + i) := by
        refine Geometry.inClsts_sector ?_ hsect
        unfold sectAddr
        omega
      rw [memCpy_sector hi]
      exact (WriteBack.view_outside (away_byte haway hin)).symm
    dsimp only
    rw [if_neg (by decide)]
    generalize memCpy 0 (Blocks.slice d (sectAddr sect) 4096) fp.buf = buf at hbuf ⊢
    exact ⟨rfl, rfl, .inl ⟨rfl, hbuf⟩⟩
  · intro data _ hfail
    dsimp only
    rw [if_pos (by decide)]
    exact ⟨rfl, rfl, .inr ⟨rfl, hfail⟩⟩

/-- Having a sector of the chain in the buffer. The old content goes to the disk first if it is
dirty, so what is seen of the file is the same. A drive that fails in between leaves the file object
without a promise. -/
theorem keeps_loadSector (fp : Fil) (hcoh : fs.Coherent d) (haway : fs.Away cs)
    (hdirty : fp.faDirty = true → fp.Shows fs.toGeometry cs)
    (hholds : fp.Shows fs.toGeometry cs → WriteBack.Holds 4096 fp.buffer (fs.view d))
    {sect : UInt32} (hsect : fs.InClsts cs (sectAddr sect)) :
    Ends ok (loadSector fp sect) (fun r d' => OwnOnly cs fs d d' ∧
      (r.1 = .ok ∧ r.2.view (fs.view d') = fp.view (fs.view d) ∧
          WriteBack.Holds 4096 r.2.buffer (fs.view d') ∧
          r.2 = { fp with sect := sect, buf := r.2.buf, faDirty := r.2.faDirty } ∨
        r.1 = .diskErr ∧ MayFail ok)) d := by
  unfold loadSector
  by_cases hother : fp.sect ≠ sect
  · rw [if_pos hother]
    refine always_seq (keeps_flushSector hcoh haway hdirty hholds) ?_
    rintro ⟨res, fp1⟩ d1 ⟨hown1, hview1, ⟨rfl, hfp1, -⟩ | ⟨rfl, hfail, -⟩⟩
    · dsimp only at hview1 hfp1 ⊢
      rw [if_neg (by decide)]
      refine always_seq (keeps_readSector (d := d1) haway hsect) ?_
      rintro ⟨res, fp2⟩ d2 ⟨rfl, hfp2, hres⟩
      dsimp only at hfp2 hres ⊢
      rcases hres with ⟨rfl, hbuf⟩ | ⟨rfl, hfail⟩
      · rw [if_neg (by decide)]
        have hclean : fp2.faDirty = false := by rw [hfp2, hfp1]
        refine ⟨hown1, .inl ⟨rfl, ?_, ?_, ?_⟩⟩
        · rw [← hview1]
          have hclean1 : fp1.faDirty = false := by rw [hfp1]
          unfold Fil.view
          rw [WriteBack.view_clean (b := fp1.buffer) hclean1]
          exact WriteBack.view_clean hclean
        · have hload := WriteBack.holds_load (n := 4096) hbuf
          rw [← hclean] at hload
          exact hload
        · rw [hfp2, hfp1]
      · rw [if_pos (by decide)]
        exact ⟨hown1, .inr ⟨rfl, hfail⟩⟩
    · dsimp only
      rw [if_pos (by decide)]
      exact ⟨hown1, .inr ⟨rfl, hfail⟩⟩
  · rw [if_neg hother]
    obtain rfl : fp.sect = sect := not_not.1 hother
    exact ⟨OwnOnly.refl hcoh, .inl ⟨rfl, rfl, hholds hsect, rfl⟩⟩

/-! ### Where the file pointer is -/

/-- The block of the byte in front. -/
theorem div_pred {f b : Nat} (h : f % b ≠ 0) : (f - 1) / b = f / b := by
  rcases Nat.eq_zero_or_pos b with rfl | hpos
  · simp
  have hsplit := Nat.mod_add_div f b
  have hlt := Nat.mod_lt f hpos
  refine Nat.div_eq_of_lt_le ?_ ?_
  · rw [Nat.mul_comm]
    omega
  · rw [Nat.succ_mul, Nat.mul_comm]
    omega

/-- At the begin of a block it is the block before. This is how the code finds the cluster of the
last byte at the border between two. -/
theorem div_pred_of_mod {f b : Nat} (hf : 0 < f) (hb : 0 < b) (h : f % b = 0) :
    (f - 1) / b + 1 = f / b := by
  have hsplit := Nat.mod_add_div f b
  have hne : f / b ≠ 0 := by
    intro hzero
    rw [hzero] at hsplit
    omega
  obtain ⟨q, hq⟩ := Nat.exists_eq_succ_of_ne_zero hne
  rw [hq, Nat.mul_succ] at hsplit
  have hdiv : (f - 1) / b = q := by
    refine Nat.div_eq_of_lt_le ?_ ?_
    · rw [Nat.mul_comm]
      omega
    · rw [Nat.succ_mul, Nat.mul_comm]
      omega
  rw [hdiv, hq]

/-- A piece inside a block. -/
theorem div_add_pred {f b n : Nat} (hn : 0 < n) (h : f % b + n ≤ b) :
    (f + n - 1) / b = f / b := by
  have hsplit := Nat.mod_add_div f b
  refine Nat.div_eq_of_lt_le ?_ ?_
  · rw [Nat.mul_comm]
    omega
  · rw [Nat.succ_mul, Nat.mul_comm]
    omega

section Pointer
variable {g : Geometry}

/-- A sector lies in one cluster. -/
theorem sector_room (hw : g.WellFormed t) (f : Nat) : f / 4096 * 4096 % g.bcs + 4096 ≤ g.bcs := by
  have hlt := Nat.mod_lt (f / 4096) hw.csize_pos
  unfold Geometry.bcs
  rw [Nat.mul_mod_mul_right]
  omega

/-- Where a byte lies in its cluster: the sectors in front of its own, and its place in that one. -/
theorem mod_bcs (hw : g.WellFormed t) (f : Nat) :
    f % g.bcs = f / 4096 * 4096 % g.bcs + f % 4096 := by
  have hroom := sector_room hw f
  have hsplit : f / 4096 * 4096 + f % 4096 = f := by omega
  calc f % g.bcs = (f / 4096 * 4096 + f % 4096) % g.bcs := by rw [hsplit]
    _ = (f / 4096 * 4096 % g.bcs + f % 4096) % g.bcs := by rw [Nat.mod_add_mod]
    _ = f / 4096 * 4096 % g.bcs + f % 4096 := Nat.mod_eq_of_lt (by omega)

/-- The rest of the sector is in the cluster. -/
theorem mod_bcs_add (hw : g.WellFormed t) {f n : Nat} (hn : f % 4096 + n ≤ 4096) :
    f % g.bcs + n ≤ g.bcs := by
  have hroom := sector_room hw f
  rw [mod_bcs hw f]
  omega

/-- The sector offset in the cluster. -/
theorem toNat_csectOf (hw : g.WellFormed t) (fp : Fil) :
    (csectOf g fp).toNat = fp.fptr.toNat / 4096 % g.csize.toNat := by
  obtain ⟨k, hk⟩ := hw.csize
  have hone : (1 : UInt32) ≤ g.csize.toUInt32 := by
    rw [UInt32.le_iff_toNat_le, UInt16.toNat_toUInt32]
    exact hw.csize_pos
  have hmask : (g.csize.toUInt32 - 1).toNat = 2 ^ k - 1 := by
    rw [UInt32.toNat_sub_of_le _ _ hone, UInt16.toNat_toUInt32, hk]
    rfl
  unfold csectOf
  rw [UInt32.toNat_and, hmask, Bits.and_low, ← hk, UInt32.toNat_div]
  rfl

/-- The offset in the cluster, at the begin of a sector. -/
theorem csectOf_mul (hw : g.WellFormed t) (fp : Fil) (h : fp.fptr.toNat % 4096 = 0) :
    (csectOf g fp).toNat * 4096 = fp.fptr.toNat % g.bcs := by
  rw [toNat_csectOf hw, ← Nat.mul_mod_mul_right]
  unfold Geometry.bcs
  have hsector : fp.fptr.toNat / 4096 * 4096 = fp.fptr.toNat := by omega
  rw [hsector]

/-- The place of a byte in its sector, as the code computes it. -/
theorem toNat_mod_ss (x : UInt32) : (x % ss).toNat = x.toNat % 4096 := UInt32.toNat_mod x ss

/-- It is 0 at the border of a sector, where the functions load the next one. -/
theorem mod_ss_eq_zero (x : UInt32) : x % ss = 0 ↔ x.toNat % 4096 = 0 := by
  rw [← UInt32.toNat_inj, toNat_mod_ss]
  rfl

/-- Bytes that do not cross the end of the sector. The clip compares with what is left of the sector
behind the file pointer. -/
theorem toNat_clipSector (fp : Fil) (n : UInt32) :
    (clipSector fp n).toNat = min n.toNat (4096 - fp.fptr.toNat % 4096) := by
  have hmod := Nat.mod_lt fp.fptr.toNat (by decide : 0 < 4096)
  have hle : fp.fptr % ss ≤ ss := by
    rw [UInt32.le_iff_toNat_le, toNat_mod_ss]
    exact Nat.le_of_lt hmod
  have hsub : (ss - fp.fptr % ss).toNat = 4096 - fp.fptr.toNat % 4096 := by
    rw [UInt32.toNat_sub_of_le _ _ hle, toNat_mod_ss]
    rfl
  unfold clipSector
  by_cases hlt : n < ss - fp.fptr % ss
  · have hnat := UInt32.lt_iff_toNat_lt.1 hlt
    rw [if_pos hlt]
    omega
  · have hnat := mt UInt32.lt_iff_toNat_lt.2 hlt
    rw [if_neg hlt]
    omega

/-- Sectors that do not cross the end of the cluster. The number of sectors is small enough that the
sum does not wrap. -/
theorem toNat_clip (g : Geometry) (csect cc : UInt32) (hcsect : csect.toNat < g.csize.toNat)
    (hcc : cc.toNat < 2 ^ 20) :
    (clip g csect cc).toNat = min cc.toNat (g.csize.toNat - csect.toNat) := by
  have hsize := g.csize.toNat_lt
  have hadd : (csect + cc).toNat = csect.toNat + cc.toNat := by
    rw [UInt32.toNat_add]
    omega
  have hle : csect ≤ g.csize.toUInt32 := by
    rw [UInt32.le_iff_toNat_le, UInt16.toNat_toUInt32]
    exact Nat.le_of_lt hcsect
  unfold clip
  by_cases hlt : g.csize.toUInt32 < csect + cc
  · have hnat := UInt32.lt_iff_toNat_lt.1 hlt
    rw [hadd, UInt16.toNat_toUInt32] at hnat
    rw [if_pos hlt, UInt32.toNat_sub_of_le _ _ hle, UInt16.toNat_toUInt32]
    omega
  · have hnat := mt UInt32.lt_iff_toNat_lt.2 hlt
    rw [hadd, UInt16.toNat_toUInt32] at hnat
    rw [if_neg hlt]
    omega

end Pointer

/-- The sector at the file pointer, as the transfers compute it. At the first byte of a cluster it
is the first sector of that cluster, as the number inside of the cluster is 0. -/
theorem sectAddr_current (ho : Opened fs d fp cs) (hw : fs.WellFormed t)
    (hsector : fp.fptr.toNat % 4096 = 0) {clst : UInt32}
    (hclst : cs[fp.fptr.toNat / fs.bcs]? = some clst.toNat) :
    sectAddr (clst2sect fs.toGeometry clst + csectOf fs.toGeometry fp) =
      fs.fileAddr cs fp.fptr.toNat := by
  obtain ⟨hi, hget⟩ := List.getElem?_eq_some_iff.1 hclst
  have hc : fs.Clst clst.toNat := by
    rw [← hget]
    exact ho.chain.clst _ (List.getElem_mem hi)
  have hbase := toNat_clst2sect hw hc
  have hofs := csectOf_mul hw fp hsector
  have hlt := Nat.mod_lt (fp.fptr.toNat / 4096) hw.csize_pos
  have hcsect := toNat_csectOf hw fp
  have hend := Geometry.clstAddr_end hw hc
  have hadd : (clst2sect fs.toGeometry clst + csectOf fs.toGeometry fp).toNat =
      (clst2sect fs.toGeometry clst).toNat + (csectOf fs.toGeometry fp).toNat := by
    rw [UInt32.toNat_add]
    unfold Geometry.clstAddr Geometry.bcs at hend
    omega
  have hi' : fp.fptr.toNat / fs.bcs < (cs.map fs.clstAddr).length := by rwa [List.length_map]
  rw [Geometry.fileAddr, Scatter.addr_eq hi', List.getElem_map, hget, ← hofs]
  show (clst2sect fs.toGeometry clst + csectOf fs.toGeometry fp).toNat * 4096 = _
  rw [hadd, hbase, Nat.add_mul]
  rfl

/-- The files on other clusters than `cs` are as they were. -/
def OthersKept (cs : List Nat) (fs : Fatfs) (d : Image) (fs' : Fatfs) (d' : Image) : Prop :=
  ∀ fp2 cs2, Opened fs d fp2 cs2 → (∀ c ∈ cs2, c ∉ cs) →
    Opened fs' d' fp2 cs2 ∧ fp2.content fs' d' cs2 = fp2.content fs d cs2

/-- A cluster that a file takes is in no other one, because it was free. -/
theorem Frame.othersKept (hw : fs.WellFormed t) {old new : List Nat}
    (h : Frame old new fs d fs' d') : OthersKept old fs d fs' d' := by
  intro fp2 cs2 ho2 hdisj
  refine ho2.frame hw h fun c hc hnew => ?_
  rcases h.fresh c hnew with hold | hzero
  · exact hdisj c hc hold
  · have hused := ho2.chain.ne_zero hw hc
    omega

/-- A file of five bytes on the sample volume. -/
def smallFil : Fil where
  hasFs := true
  id := 1
  faRead := true
  faWrite := true
  dirSect := 3
  dirPtr := 0
  sclust := 2
  objsize := 5
  faModified := true
  err := .ok
  fptr := 0
  clust := 0
  faDirty := false
  sect := 0
  buf := fun _ => 0

/-- The sample file is open on its one cluster. -/
theorem small_opened : Opened smallFs smallDisk smallFil [2] where
  chain := small_chain
  head := rfl
  size := by decide
  ptr := Nat.zero_le _
  clust := fun h => absurd h (Nat.lt_irrefl 0)
  sect := fun h => absurd rfl h
  shown := .inl (by decide)
  dirty := fun h => Bool.noConfusion h
  holds := by
    rintro ⟨c, -, hle, -⟩
    have hle' : (4 + 1 * (c - 2)) * 4096 ≤ 0 := hle
    omega
  away := by
    rintro ⟨c, -, hle, -⟩
    have hle' : (4 + 1 * (c - 2)) * 4096 ≤ 0 := hle
    omega

end NucleoH743.Ff
