import NucleoH743.FatFs.Clusters
import NucleoH743.Lib.Bits
import NucleoH743.Proofs.FatFs.Window

/-!
# `Proofs.FatFs.FatEntries`: `get_fat` and `put_fat` are a table

On a volume whose FAT has room for its entries the two functions read and write a table of
numbers, `Fatfs.fat`, in the FAT as the filesystem object sees it. The entries of FAT12 have 12
bits and share their bytes, and lie across two sectors at times.

An entry is a number in some bytes of the FAT, shifted and masked. For FAT16 and FAT32 the bytes of
two entries are apart. For FAT12 they overlap, and that a store keeps the neighbour is a fact about
the bits of one byte (`fat12First_mod`, `fat12Second_div`).

The functions reach the bytes through the window. `keeps_moveFat` brings the sector of a byte there,
`change_fat` says that a store in the window is one in the FAT that is seen, and both leave
everything outside of the FATs. On FAT12 the two bytes of an entry may be in two sectors, so between
the two stores an entry is half old and half new; should the drive fail there, no other entry is
touched.

- `entryAt_put`: the bytes that `put_fat` stores change one entry, to the bits that it has room
  for.
- `keeps_getFat`, `keeps_putFat`: the functions on the table, whatever the drive answers.
- `FatOnly`: what they leave of the volume.
-/

set_option autoImplicit false

namespace NucleoH743.Ff

open Diskio Mkfs
open Prog (always_seq always_mono)

/-! ### Entries -/

/-- The bits of an entry. -/
def entryBits : FatType → Nat
  | .fat12 => 12
  | .fat16 => 16
  | .fat32 => 28

/-- The bytes that an entry is read from. -/
def entryWidth : FatType → Nat
  | .fat12 | .fat16 => 2
  | .fat32 => 4

/-- Where these bytes are in the FAT. -/
def entryOfs : FatType → Nat → Nat
  | .fat12, c => c + c / 2
  | .fat16, c => c * 2
  | .fat32, c => c * 4

/-- The bits below those of the entry. -/
def entryShift : FatType → Nat → Nat
  | .fat12, c => 4 * (c % 2)
  | .fat16, _ | .fat32, _ => 0

/-- The entry of cluster `c` in a FAT with the bytes `fat`. -/
def entryAt (t : FatType) (fat : Nat → UInt8) (c : Nat) : Nat :=
  LittleEndian.load (entryWidth t) fat (entryOfs t c) / 2 ^ entryShift t c % 2 ^ entryBits t

/-- An entry depends on its bytes alone. -/
theorem entryAt_congr {t : FatType} {fat fat' : Nat → UInt8} {c : Nat}
    (h : ∀ i < entryWidth t, fat (entryOfs t c + i) = fat' (entryOfs t c + i)) :
    entryAt t fat c = entryAt t fat' c := by
  have hload : LittleEndian.load (entryWidth t) fat (entryOfs t c) =
      LittleEndian.load (entryWidth t) fat' (entryOfs t c) := by
    unfold LittleEndian.load Blocks.slice
    refine congrArg _ (List.map_congr_left fun i hi => ?_)
    exact h i (List.mem_range.1 hi)
  rw [entryAt, hload, entryAt]

/-- Two bytes, the low one first. -/
theorem load_two (mem : Nat → UInt8) (addr : Nat) :
    LittleEndian.load 2 mem addr = (mem addr).toNat + 256 * (mem (addr + 1)).toNat := by
  simp [LittleEndian.load, LittleEndian.value, Blocks.slice, List.range_succ, Nat.ofDigits_cons]

/-! ### The bytes of a FAT12 entry -/

section Fat12
variable (clst val : UInt32) (old : UInt8)

/-- An odd cluster. -/
theorem and_one_ne_zero_iff : clst &&& 1 ≠ 0 ↔ clst.toNat % 2 = 1 := by
  have hand : (clst &&& 1).toNat = clst.toNat % 2 := by
    rw [UInt32.toNat_and]
    exact Bits.and_low clst.toNat 1
  rw [ne_eq, ← UInt32.toNat_inj, hand]
  show ¬ clst.toNat % 2 = 0 ↔ _
  omega

/-- The first byte of a 12-bit entry. An odd cluster has its low four bits in the upper half of the
byte, and keeps the lower half, which belongs to the entry in front of it. An even cluster has its
low eight bits there. -/
theorem toNat_fat12First :
    (fat12First clst val old).toNat =
      if clst.toNat % 2 = 1 then old.toNat % 16 + val.toNat % 16 * 16 else val.toNat % 256 := by
  unfold fat12First
  by_cases hodd : clst &&& 1 ≠ 0
  · rw [if_pos hodd, if_pos ((and_one_ne_zero_iff clst).1 hodd), UInt8.toNat_or,
      UInt8.toNat_and, UInt8.toNat_shiftLeft]
    have hlow : old.toNat &&& (0x0F : UInt8).toNat = old.toNat % 2 ^ 4 := Bits.and_low _ 4
    have hhigh : val.toUInt8.toNat <<< ((4 : UInt8).toNat % 8) % 2 ^ 8 =
        val.toNat % 16 * 2 ^ 4 := by
      rw [Nat.shiftLeft_eq, UInt32.toNat_toUInt8]
      show val.toNat % 256 * 16 % 256 = val.toNat % 16 * 16
      omega
    rw [hlow, hhigh]
    exact Bits.or_add (Nat.mod_lt _ (by decide)) _
  · rw [if_neg hodd, if_neg (mt (and_one_ne_zero_iff clst).2 hodd), UInt32.toNat_toUInt8]

/-- The second byte, the other way round: an odd cluster fills it, and an even one keeps the upper
half. -/
theorem toNat_fat12Second :
    (fat12Second clst val old).toNat =
      if clst.toNat % 2 = 1 then val.toNat / 16 % 256
      else val.toNat / 256 % 16 + old.toNat / 16 * 16 := by
  unfold fat12Second
  by_cases hodd : clst &&& 1 ≠ 0
  · rw [if_pos hodd, if_pos ((and_one_ne_zero_iff clst).1 hodd), UInt32.toNat_toUInt8,
      UInt32.toNat_shiftRight]
    show val.toNat >>> 4 % 256 = _
    rw [Nat.shiftRight_eq_div_pow]
  · rw [if_neg hodd, if_neg (mt (and_one_ne_zero_iff clst).2 hodd), UInt8.toNat_or,
      UInt8.toNat_and, UInt8.toNat_and, Nat.or_comm, UInt32.toNat_toUInt8,
      UInt32.toNat_shiftRight]
    have hhigh : old.toNat &&& (0xF0 : UInt8).toNat = old.toNat / 2 ^ 4 * 2 ^ 4 :=
      Bits.and_high (n := 4) old.toNat_lt
    have hlow : val.toNat >>> ((8 : UInt32).toNat % 32) % 2 ^ 8 &&& (0x0F : UInt8).toNat =
        val.toNat / 256 % 16 := by
      have hmask := Bits.and_low (val.toNat >>> ((8 : UInt32).toNat % 32) % 2 ^ 8) 4
      refine hmask.trans ?_
      rw [Nat.shiftRight_eq_div_pow]
      show val.toNat / 256 % 256 % 16 = _
      omega
    rw [hhigh, hlow]
    exact Bits.or_add (k := 4) (Nat.mod_lt _ (by decide)) _

end Fat12

/-! ### What `put_fat` stores -/

/-- The bytes that are stored for the entry of `clst`. -/
def putBytes (t : FatType) (fat : Nat → UInt8) (clst val : UInt32) : List UInt8 :=
  let ofs := entryOfs t clst.toNat
  match t with
  | .fat12 => [fat12First clst val (fat ofs), fat12Second clst val (fat (ofs + 1))]
  | .fat16 => LittleEndian.bytes 2 val.toUInt16.toNat
  | .fat32 =>
    LittleEndian.bytes 4 (val &&& 0x0FFFFFFF ||| ldDword ofs fat &&& 0xF0000000).toNat

/-- An entry is stored in as many bytes as it is read from. -/
@[simp] theorem length_putBytes (t : FatType) (fat : Nat → UInt8) (clst val : UInt32) :
    (putBytes t fat clst val).length = entryWidth t := by
  cases t with
  | fat12 => rfl
  | fat16 => exact LittleEndian.length_bytes _ _
  | fat32 => exact LittleEndian.length_bytes _ _

/-- The FAT after the entry of `clst` has been stored. -/
def putEntryBytes (t : FatType) (fat : Nat → UInt8) (clst val : UInt32) : Nat → UInt8 :=
  Blocks.store fat (entryOfs t clst.toNat) (putBytes t fat clst val)

section Put
variable {t : FatType} {fat : Nat → UInt8} {clst val : UInt32}

/-- The bytes outside of the entry are kept. -/
theorem putEntryBytes_outside {a : Nat}
    (h : a < entryOfs t clst.toNat ∨ entryOfs t clst.toNat + entryWidth t ≤ a) :
    putEntryBytes t fat clst val a = fat a := by
  refine Blocks.store_of_outside _ _ ?_
  rwa [length_putBytes]

/-- On FAT12 the first byte of the entry is the one that `put_fat` stores first. -/
theorem putEntryBytes_first :
    putEntryBytes .fat12 fat clst val (clst.toNat + clst.toNat / 2) =
      fat12First clst val (fat (clst.toNat + clst.toNat / 2)) := by
  have hlen : 0 < (putBytes .fat12 fat clst val).length := by
    rw [length_putBytes]
    decide
  exact Blocks.store_of_mem fat _ hlen

/-- The second byte is the one that it stores next, maybe in the next sector. -/
theorem putEntryBytes_second :
    putEntryBytes .fat12 fat clst val (clst.toNat + clst.toNat / 2 + 1) =
      fat12Second clst val (fat (clst.toNat + clst.toNat / 2 + 1)) := by
  have hlen : 1 < (putBytes .fat12 fat clst val).length := by
    rw [length_putBytes]
    decide
  exact Blocks.store_of_mem fat _ hlen

/-- The upper four bits of the word belong to no entry of FAT32. -/
theorem toNat_put32 (val old : UInt32) :
    (val &&& 0x0FFFFFFF ||| old &&& 0xF0000000).toNat =
      val.toNat % 2 ^ 28 + old.toNat / 2 ^ 28 * 2 ^ 28 := by
  rw [UInt32.toNat_or, UInt32.toNat_and, UInt32.toNat_and]
  have hlow : val.toNat &&& (0x0FFFFFFF : UInt32).toNat = val.toNat % 2 ^ 28 := Bits.and_low _ 28
  have hhigh : old.toNat &&& (0xF0000000 : UInt32).toNat = old.toNat / 2 ^ 28 * 2 ^ 28 :=
    Bits.and_high (n := 4) old.toNat_lt
  rw [hlow, hhigh]
  exact Bits.or_add (Nat.mod_lt _ (Nat.two_pow_pos 28)) _

/-- The entry that is stored has the bits of the value that it has room for. By the width of the
entries. -/
theorem entryAt_put_self :
    entryAt t (putEntryBytes t fat clst val) clst.toNat = val.toNat % 2 ^ entryBits t := by
  cases t with
  | fat12 =>
    show LittleEndian.load 2 _ (clst.toNat + clst.toNat / 2) / 2 ^ (4 * (clst.toNat % 2)) % 4096 =
      val.toNat % 4096
    rw [load_two, putEntryBytes_first, putEntryBytes_second, toNat_fat12First, toNat_fat12Second]
    rcases Nat.mod_two_eq_zero_or_one clst.toNat with heven | hodd
    · rw [if_neg (by omega), if_neg (by omega), heven]
      omega
    · rw [if_pos hodd, if_pos hodd, hodd]
      omega
  | fat16 =>
    show LittleEndian.load 2 (LittleEndian.store 2 fat (clst.toNat * 2) val.toUInt16.toNat)
      (clst.toNat * 2) / 1 % 65536 = val.toNat % 65536
    rw [LittleEndian.load_store, UInt32.toNat_toUInt16]
    omega
  | fat32 =>
    show LittleEndian.load 4 (LittleEndian.store 4 fat (clst.toNat * 4) _) (clst.toNat * 4) / 1 %
      2 ^ 28 = _
    rw [LittleEndian.load_store, toNat_put32]
    show _ = val.toNat % 2 ^ 28
    omega

/-- The other entries of FAT12 stay when the four bits that they share with the one that is stored
do. -/
theorem entryAt_fat12_ne {fat' : Nat → UInt8} {c c' : Nat} (hc : c' ≠ c)
    (hout : ∀ a, a < c + c / 2 ∨ c + c / 2 + 2 ≤ a → fat' a = fat a)
    (hfirst : c % 2 = 1 → (fat' (c + c / 2)).toNat % 16 = (fat (c + c / 2)).toNat % 16)
    (hsecond : c % 2 = 0 → (fat' (c + c / 2 + 1)).toNat / 16 = (fat (c + c / 2 + 1)).toNat / 16) :
    entryAt .fat12 fat' c' = entryAt .fat12 fat c' := by
  show LittleEndian.load 2 _ (c' + c' / 2) / 2 ^ (4 * (c' % 2)) % 4096 =
    LittleEndian.load 2 _ (c' + c' / 2) / 2 ^ (4 * (c' % 2)) % 4096
  rw [load_two, load_two]
  by_cases hnext : c % 2 = 0 ∧ c' = c + 1
  · -- the second byte has the low bits of the next entry
    obtain ⟨heven, rfl⟩ := hnext
    have hodd : (c + 1) % 2 = 1 := by omega
    have hofs : c + 1 + (c + 1) / 2 = c + c / 2 + 1 := by omega
    have hbits := hsecond heven
    rw [hofs, hodd, hout (c + c / 2 + 1 + 1) (.inr (Nat.le_refl _))]
    omega
  · by_cases hprev : c % 2 = 1 ∧ c' + 1 = c
    · -- the first byte has the high bits of the entry before
      obtain ⟨hodd, rfl⟩ := hprev
      have heven : c' % 2 = 0 := by omega
      have hofs : c' + 1 + (c' + 1) / 2 = c' + c' / 2 + 1 := by omega
      have hbits := hfirst hodd
      rw [hofs] at hbits hout
      rw [heven, hout (c' + c' / 2) (.inl (Nat.lt_succ_self _))]
      omega
    · rw [hout (c' + c' / 2) (by omega), hout (c' + c' / 2 + 1) (by omega)]

/-- The entry in front of an odd cluster keeps its four bits in the first byte. -/
theorem fat12First_mod (clst val : UInt32) (old : UInt8) (hodd : clst.toNat % 2 = 1) :
    (fat12First clst val old).toNat % 16 = old.toNat % 16 := by
  rw [toNat_fat12First, if_pos hodd]
  omega

/-- The entry behind an even cluster keeps its four bits in the second byte. -/
theorem fat12Second_div (clst val : UInt32) (old : UInt8) (heven : clst.toNat % 2 = 0) :
    (fat12Second clst val old).toNat / 16 = old.toNat / 16 := by
  rw [toNat_fat12Second, if_neg (by omega)]
  omega

/-- Any other entry stays, also where it shares a byte with the one that is stored. The bytes of two
entries overlap on FAT12 only, in one byte. -/
theorem entryAt_put_ne {c : Nat} (hc : c ≠ clst.toNat) :
    entryAt t (putEntryBytes t fat clst val) c = entryAt t fat c := by
  have hbeside : (entryOfs t c + entryWidth t ≤ entryOfs t clst.toNat ∨
      entryOfs t clst.toNat + entryWidth t ≤ entryOfs t c) →
      entryAt t (putEntryBytes t fat clst val) c = entryAt t fat c := by
    intro h
    refine entryAt_congr fun i hi => putEntryBytes_outside ?_
    omega
  cases t with
  | fat16 =>
    refine hbeside ?_
    show c * 2 + 2 ≤ clst.toNat * 2 ∨ clst.toNat * 2 + 2 ≤ c * 2
    omega
  | fat32 =>
    refine hbeside ?_
    show c * 4 + 4 ≤ clst.toNat * 4 ∨ clst.toNat * 4 + 4 ≤ c * 4
    omega
  | fat12 =>
    refine entryAt_fat12_ne hc ?_ ?_ ?_
    · intro a ha
      exact putEntryBytes_outside ha
    · intro hodd
      rw [putEntryBytes_first, fat12First_mod _ _ _ hodd]
    · intro heven
      rw [putEntryBytes_second, fat12Second_div _ _ _ heven]

/-- The first byte alone leaves the other entries as well. On FAT12 the byte holds a half of the
neighbour too, which `put_fat` takes over from the old byte. -/
theorem entryAt_putFirst_ne {c : Nat} (hc : c ≠ clst.toNat) :
    entryAt .fat12 (Blocks.store fat (clst.toNat + clst.toNat / 2)
      [fat12First clst val (fat (clst.toNat + clst.toNat / 2))]) c = entryAt .fat12 fat c := by
  refine entryAt_fat12_ne hc ?_ ?_ ?_
  · intro a ha
    refine Blocks.store_of_outside _ _ ?_
    show a < _ ∨ _ + 1 ≤ a
    omega
  · intro hodd
    have hcell : Blocks.store fat (clst.toNat + clst.toNat / 2)
        [fat12First clst val (fat (clst.toNat + clst.toNat / 2))]
        (clst.toNat + clst.toNat / 2 + 0) = _ := Blocks.store_of_mem _ _ Nat.one_pos
    rw [Nat.add_zero] at hcell
    rw [hcell]
    exact fat12First_mod _ _ _ hodd
  · intro _
    have hcell : Blocks.store fat (clst.toNat + clst.toNat / 2)
        [fat12First clst val (fat (clst.toNat + clst.toNat / 2))]
        (clst.toNat + clst.toNat / 2 + 1) = fat (clst.toNat + clst.toNat / 2 + 1) :=
      Blocks.store_of_outside _ _ (.inr (Nat.le_refl _))
    rw [hcell]

end Put

/-! ### The FAT of a volume -/

/-- The clusters that a sub-type can have. -/
def maxClst : FatType → Nat
  | .fat12 => 0xFF5
  | .fat16 => 0xFFF5
  | .fat32 => 0x0FFFFFF5

/-- A volume of sub-type `t` on which the areas follow each other: the FATs, each with room for
its entries, and the clusters. -/
structure Geometry.WellFormed (g : Geometry) (t : FatType) : Prop where
  fsType : g.fsType = some t
  entries : 3 ≤ g.nFatent.toNat
  limit : g.nFatent.toNat ≤ maxClst t + 2
  room : ∀ c < g.nFatent.toNat, entryOfs t c + entryWidth t ≤ g.fsize.toNat * 4096
  copies : g.nFats = 1 ∨ g.nFats = 2
  fats : g.fatbase.toNat + g.nFats.toNat * g.fsize.toNat ≤ g.database.toNat
  csize : ∃ k, g.csize.toNat = 2 ^ k
  data : g.database.toNat + g.csize.toNat * (g.nFatent.toNat - 2) < 2 ^ 32

/-- A byte of the FATs. -/
def Geometry.InFats (g : Geometry) (a : Nat) : Prop :=
  g.fatbase.toNat ≤ a / 4096 ∧ a / 4096 < g.fatbase.toNat + g.nFats.toNat * g.fsize.toNat

/-- The first FAT as it is seen. -/
def Fatfs.fatMem (fs : Fatfs) (d : Image) (i : Nat) : UInt8 :=
  fs.view d (sectAddr fs.fatbase + i)

/-- The entries of the FAT. -/
def Fatfs.fat (fs : Fatfs) (d : Image) (c : Nat) : Nat :=
  match fs.fsType with
  | some t => entryAt t (fs.fatMem d) c
  | none => 1

section Geometry
variable {g : Geometry} {t : FatType}

/-- The copies go to the second FAT. -/
theorem Geometry.WellFormed.mirror (hw : g.WellFormed t) {a : Nat} (h : g.Mirror a) :
    g.fatbase.toNat + g.fsize.toNat ≤ a / 4096 ∧
      a / 4096 < g.fatbase.toNat + 2 * g.fsize.toNat := by
  obtain ⟨htwo, sect, hlt, heq⟩ := h
  have hfats := hw.fats
  have hdata := hw.data
  rw [htwo] at hfats
  have hcopies : g.fatbase.toNat + 2 * g.fsize.toNat ≤ g.database.toNat := hfats
  have hsub := UInt32.lt_iff_toNat_lt.1 hlt
  rw [UInt32.toNat_sub] at hsub
  rw [heq, UInt32.toNat_add]
  have hsect := sect.toNat_lt
  omega

/-- The second FAT is one of the FATs. -/
theorem Geometry.WellFormed.inFats_of_mirror (hw : g.WellFormed t) {a : Nat} (h : g.Mirror a) :
    g.InFats a := by
  obtain ⟨hle, hlt⟩ := hw.mirror h
  have htwo : g.nFats.toNat = 2 := by rw [h.1]; rfl
  refine ⟨by omega, ?_⟩
  rw [htwo]
  exact hlt

/-- The first FAT is no copy. -/
theorem Geometry.WellFormed.not_mirror (hw : g.WellFormed t) {i : Nat}
    (hi : i < g.fsize.toNat * 4096) : ¬ g.Mirror (sectAddr g.fatbase + i) := by
  intro h
  have hle := (hw.mirror h).1
  unfold sectAddr at hle
  omega

/-- The bytes of the first FAT are among the bytes of the FATs. -/
theorem Geometry.WellFormed.inFats (hw : g.WellFormed t) {i : Nat}
    (hi : i < g.fsize.toNat * 4096) : g.InFats (sectAddr g.fatbase + i) := by
  have hone : 1 * g.fsize.toNat ≤ g.nFats.toNat * g.fsize.toNat := by
    refine Nat.mul_le_mul_right _ ?_
    rcases hw.copies with h | h <;> rw [h] <;> decide
  unfold Geometry.InFats sectAddr
  omega

end Geometry

/-- What the functions on the FAT leave. The window is where it was, or in front of the clusters,
or invalid. -/
structure FatOnly (fs : Fatfs) (d : Image) (fs' : Fatfs) (d' : Image) : Prop where
  geometry : fs'.toGeometry = fs.toGeometry
  id : fs'.id = fs.id
  coherent : fs'.Coherent d'
  outside : ∀ a, ¬ fs.InFats a → fs'.view d' a = fs.view d a
  placed : fs'.winsect = fs.winsect ∨ fs'.winsect.toNat < fs.database.toNat ∨
    fs'.winsect = 0 - 1

/-- A function that does nothing leaves the FAT alone. -/
theorem FatOnly.refl {fs : Fatfs} {d : Image} (h : fs.Coherent d) : FatOnly fs d fs d :=
  ⟨rfl, rfl, h, fun _ _ => rfl, .inl rfl⟩

/-- Two functions that touch the FAT only do so one after the other. Where the window is in the end
is what the second one says, unless it left the window where it was. -/
theorem FatOnly.trans {fs fs' fs'' : Fatfs} {d d' d'' : Image} (h : FatOnly fs d fs' d')
    (h' : FatOnly fs' d' fs'' d'') : FatOnly fs d fs'' d'' where
  geometry := h'.geometry.trans h.geometry
  id := h'.id.trans h.id
  coherent := h'.coherent
  outside := by
    intro a ha
    have ha' : ¬ fs'.InFats a := by
      rw [h.geometry]
      exact ha
    rw [h'.outside a ha', h.outside a ha]
  placed := by
    have hbase : fs'.database = fs.database := congrArg Geometry.database h.geometry
    rcases h'.placed with heq | hlt | hinv
    · rw [heq]
      exact h.placed
    · rw [hbase] at hlt
      exact .inr (.inl hlt)
    · exact .inr (.inr hinv)

/-- What a look at the FAT leaves. -/
structure Looked (fs : Fatfs) (d : Image) (fs' : Fatfs) (d' : Image) : Prop
    extends FatOnly fs d fs' d' where
  alloc : fs'.toAllocInfo = fs.toAllocInfo
  mem : ∀ i < fs.fsize.toNat * 4096, fs'.fatMem d' i = fs.fatMem d i

/-- A function that does nothing has looked at the FAT. -/
theorem Looked.refl {fs : Fatfs} {d : Image} (h : fs.Coherent d) : Looked fs d fs d :=
  ⟨FatOnly.refl h, rfl, fun _ _ => rfl⟩

/-- Two looks are a look. -/
theorem Looked.trans {fs fs' fs'' : Fatfs} {d d' d'' : Image} (h : Looked fs d fs' d')
    (h' : Looked fs' d' fs'' d'') : Looked fs d fs'' d'' where
  toFatOnly := h.toFatOnly.trans h'.toFatOnly
  alloc := h'.alloc.trans h.alloc
  mem := by
    intro i hi
    have hsize : fs'.fsize = fs.fsize := congrArg Geometry.fsize h.geometry
    have hi' : i < fs'.fsize.toNat * 4096 := by
      rw [hsize]
      exact hi
    rw [h'.mem i hi', h.mem i hi]

variable {ok : Answer → Prop} {fs fs' : Fatfs} {d d' : Image} {t : FatType}

/-- A function on the FAT changes no figure of the volume, so the areas stay where they were. -/
theorem FatOnly.wellFormed (h : FatOnly fs d fs' d') (hw : fs.WellFormed t) :
    fs'.WellFormed t := by
  rw [h.geometry]
  exact hw

/-- The entries are read off the first FAT. -/
theorem fat_eq (hw : fs.WellFormed t) (c : Nat) : fs.fat d c = entryAt t (fs.fatMem d) c := by
  rw [Fatfs.fat, hw.fsType]

/-- The table depends on the bytes of the FAT alone. -/
theorem fat_congr (hw : fs.WellFormed t) (hg : fs'.toGeometry = fs.toGeometry)
    {mem : Nat → UInt8} (h : ∀ i < fs.fsize.toNat * 4096, fs'.fatMem d' i = mem i) {c : Nat}
    (hc : c < fs.nFatent.toNat) : fs'.fat d' c = entryAt t mem c := by
  have hw' : fs'.WellFormed t := by
    rw [hg]
    exact hw
  have hroom := hw.room c hc
  rw [fat_eq hw']
  refine entryAt_congr fun i hi => h _ ?_
  omega

/-! ### The window on the FAT -/

/-- A sector in front of the clusters is not the number that stands for an empty window. -/
theorem ne_invalid (hw : fs.WellFormed t) {sect : UInt32} (h : sect.toNat < fs.database.toNat) :
    sect ≠ 0 - 1 := by
  rintro rfl
  have hdata := hw.data
  have hlast : (0 - 1 : UInt32).toNat = 2 ^ 32 - 1 := rfl
  omega

/-- A sector of the FAT lies in front of the clusters. -/
theorem fatSect_lt (hw : fs.WellFormed t) {n : Nat} (hn : n < fs.fsize.toNat * 4096)
    {sect : UInt32} (hsect : sect.toNat = fs.fatbase.toNat + n / 4096) :
    sect.toNat < fs.database.toNat := by
  have hone : 1 * fs.fsize.toNat ≤ fs.nFats.toNat * fs.fsize.toNat := by
    refine Nat.mul_le_mul_right _ ?_
    rcases hw.copies with h | h <;> rw [h] <;> decide
  have hfats := hw.fats
  omega

/-- Moving the window to byte `n` of the FAT. `move_window` keeps what is seen, and the sector is
one of the FAT. -/
theorem keeps_moveFat (hw : fs.WellFormed t) (hcoh : fs.Coherent d) {n : Nat}
    (hn : n < fs.fsize.toNat * 4096) {sect : UInt32}
    (hsect : sect.toNat = fs.fatbase.toNat + n / 4096) :
    Ends ok (moveWindow fs sect) (fun r d' => Looked fs d r.2 d' ∧
      (r.1 = .ok ∧ r.2.winsect = sect ∨ r.1 = .diskErr ∧ MayFail ok)) d := by
  have hlt := fatSect_lt hw hn hsect
  refine always_mono ?_ (keeps_moveWindow hcoh sect)
  rintro ⟨res, fs'⟩ d' ⟨hkept, hres⟩
  dsimp only at hkept hres ⊢
  have hbase : fs'.fatbase = fs.fatbase := congrArg Geometry.fatbase hkept.geometry
  refine ⟨⟨⟨hkept.geometry, hkept.id, hkept.coherent, ?_, ?_⟩, hkept.alloc, ?_⟩, ?_⟩
  · intro a ha
    exact hkept.view a fun hm => ha (hw.inFats_of_mirror hm)
  · rcases hres with ⟨-, heq⟩ | ⟨-, -, heq | heq⟩
    · rw [heq]
      exact .inr (.inl hlt)
    · exact .inl heq
    · exact .inr (.inr heq)
  · intro i hi
    unfold Fatfs.fatMem
    rw [hbase]
    exact hkept.view _ (hw.not_mirror hi)
  · rcases hres with hdone | ⟨herr, hfail, -⟩
    · exact .inl hdone
    · exact .inr ⟨herr, hfail⟩

/-- A byte of the FAT in the window. -/
theorem win_fat (hw : fs.WellFormed t) (hcoh : fs.Coherent d) {n : Nat}
    (hn : n < fs.fsize.toNat * 4096) (hsect : fs.winsect.toNat = fs.fatbase.toNat + n / 4096)
    {i : Nat} (hi : n % 4096 + i < 4096) : fs.win (n % 4096 + i) = fs.fatMem d (n + i) := by
  have haddr : sectAddr fs.winsect + (n % 4096 + i) = sectAddr fs.fatbase + (n + i) := by
    unfold sectAddr
    omega
  rw [hcoh.win_eq (ne_invalid hw (fatSect_lt hw hn hsect)) hi, haddr, Fatfs.fatMem]

/-- A change in the window that shows the FAT. The window is a sector of the FAT, and what is stored
in it is stored in the memory that is seen. -/
theorem change_fat (hw : fs.WellFormed t) (hcoh : fs.Coherent d) {n : Nat}
    (hsect : fs.winsect.toNat = fs.fatbase.toNat + n / 4096) (data : List UInt8)
    (hpage : n % 4096 + data.length ≤ 4096) (hend : n + data.length ≤ fs.fsize.toNat * 4096)
    (hpos : data ≠ []) {fs' : Fatfs}
    (hfs : fs' = { fs with win := memCpy (n % 4096) data fs.win, wflag := true }) :
    FatOnly fs d fs' d ∧ ∀ i, fs'.fatMem d i = Blocks.store (fs.fatMem d) n data i := by
  subst hfs
  have hlen : 0 < data.length := List.length_pos_iff.2 hpos
  have hne : fs.winsect ≠ 0 - 1 := ne_invalid hw (fatSect_lt hw (by omega) hsect)
  have haddr : sectAddr fs.winsect + n % 4096 = sectAddr fs.fatbase + n := by
    unfold sectAddr
    omega
  have hview : Fatfs.view { fs with win := memCpy (n % 4096) data fs.win, wflag := true } d =
      Blocks.store (fs.view d) (sectAddr fs.fatbase + n) data := by
    rw [← haddr]
    exact WriteBack.view_store (b := fs.window) (hcoh hne) hpage
  refine ⟨⟨rfl, rfl, coherent_of_dirty rfl, ?_, .inl rfl⟩, ?_⟩
  · intro a ha
    rw [hview]
    refine Blocks.store_of_outside _ _ ?_
    have hin := fun i hi => hw.inFats (i := i) hi
    by_contra hmem
    have hlast := hin (a - sectAddr fs.fatbase) (by omega)
    have hback : sectAddr fs.fatbase + (a - sectAddr fs.fatbase) = a := by omega
    rw [hback] at hlast
    exact ha hlast
  · intro i
    unfold Fatfs.fatMem
    rw [hview]
    exact Blocks.store_shift (fs.view d) n (sectAddr fs.fatbase) i

/-! ### `get_fat` -/

/-- A look leaves every entry as it was. -/
theorem looked_fat (hw : fs.WellFormed t) (h : Looked fs d fs' d') {c : Nat}
    (hc : c < fs.nFatent.toNat) : fs'.fat d' c = fs.fat d c := by
  rw [fat_congr hw h.geometry h.mem hc, fat_eq hw]

/-- The sector of a byte of the FAT, as the functions compute it. -/
theorem toNat_fatSect (hw : fs.WellFormed t) {n : Nat} (hn : n < fs.fsize.toNat * 4096)
    {q : UInt32} (hq : q.toNat = n / 4096) :
    (fs.fatbase + q).toNat = fs.fatbase.toNat + n / 4096 := by
  have hone : 1 * fs.fsize.toNat ≤ fs.nFats.toNat * fs.fsize.toNat := by
    refine Nat.mul_le_mul_right _ ?_
    rcases hw.copies with h | h <;> rw [h] <;> decide
  have hfats := hw.fats
  have hdata := hw.data
  rw [UInt32.toNat_add, hq]
  omega

/-- The bounds of a cluster of the volume. -/
theorem clst_lt (hw : fs.WellFormed t) {clst : UInt32} (hn : clst.toNat < fs.nFatent.toNat) :
    clst.toNat < 2 ^ 28 := by
  have hlimit := hw.limit
  have hmax : maxClst t ≤ 0x0FFFFFF5 := by cases t <;> decide
  omega

/-- The two bytes of a word. -/
theorem toNat_wc (b0 b1 : UInt8) :
    (b0.toUInt32 ||| b1.toUInt32 <<< 8).toNat = b0.toNat + 256 * b1.toNat := by
  have h0 := b0.toNat_lt
  have h1 := b1.toNat_lt
  have hhigh : b1.toUInt32.toNat <<< ((8 : UInt32).toNat % 32) % 2 ^ 32 = b1.toNat * 2 ^ 8 := by
    rw [Nat.shiftLeft_eq, UInt8.toNat_toUInt32]
    show b1.toNat * 256 % 4294967296 = b1.toNat * 256
    omega
  rw [UInt32.toNat_or, UInt32.toNat_shiftLeft, hhigh, UInt8.toNat_toUInt32, Bits.or_add h0]
  omega

/-- What `get_fat` makes of the word of a FAT12 entry. It is the upper or the lower twelve bits of
two bytes, by whether the number of the cluster is odd. -/
theorem toNat_entry12 (clst : UInt32) (b0 b1 : UInt8) :
    (if clst &&& 1 ≠ 0 then (b0.toUInt32 ||| b1.toUInt32 <<< 8) >>> 4
      else (b0.toUInt32 ||| b1.toUInt32 <<< 8) &&& 0xFFF).toNat =
      (b0.toNat + 256 * b1.toNat) / 2 ^ (4 * (clst.toNat % 2)) % 4096 := by
  have h0 := b0.toNat_lt
  have h1 := b1.toNat_lt
  by_cases hodd : clst &&& 1 ≠ 0
  · rw [if_pos hodd, (and_one_ne_zero_iff clst).1 hodd, UInt32.toNat_shiftRight, toNat_wc]
    show (b0.toNat + 256 * b1.toNat) >>> 4 = _
    rw [Nat.shiftRight_eq_div_pow]
    omega
  · have heven : clst.toNat % 2 = 0 := by
      have hnot := mt (and_one_ne_zero_iff clst).2 hodd
      omega
    have hmask : b0.toNat + 256 * b1.toNat &&& (0xFFF : UInt32).toNat =
        (b0.toNat + 256 * b1.toNat) % 2 ^ 12 := Bits.and_low _ 12
    rw [if_neg hodd, heven, UInt32.toNat_and, toNat_wc, hmask]
    omega

/-- A byte of the FAT in the window, at the place where the functions look for it. -/
theorem win_fat_at (hw : fs.WellFormed t) (hcoh : fs.Coherent d) {n : Nat}
    (hn : n < fs.fsize.toNat * 4096) (hsect : fs.winsect.toNat = fs.fatbase.toNat + n / 4096)
    {p : UInt32} (hp : p.toNat = n % 4096) : fs.win p.toNat = fs.fatMem d n := by
  rw [hp]
  exact win_fat hw hcoh hn hsect (i := 0) (Nat.mod_lt _ (by decide))

/-- What `get_fat` returns. -/
def GetsFat (ok : Answer → Prop) (fs : Fatfs) (d : Image) (clst : UInt32) (r : UInt32 × Fatfs)
    (d' : Image) : Prop :=
  Looked fs d r.2 d' ∧
    (r.1.toNat = fs.fat d clst.toNat ∨ r.1 = 0xFFFFFFFF ∧ MayFail ok)

/-- `get_fat` on FAT12 loads the sector of the first byte and then the sector of the second one,
which is another where the entry crosses a border. The first byte is kept in a variable meanwhile.
By whether the two bytes lie in one sector. -/
theorem keeps_getFat12 (hw : fs.WellFormed .fat12) (hcoh : fs.Coherent d) {clst : UInt32}
    (htwo : 2 ≤ clst.toNat) (hn : clst.toNat < fs.nFatent.toNat) :
    Ends ok (getFat fs clst) (GetsFat ok fs d clst) d := by
  have hvalid : ¬ (clst < 2 ∨ fs.nFatent ≤ clst) := by
    rw [UInt32.lt_iff_toNat_lt, UInt32.le_iff_toNat_le]
    show ¬ (clst.toNat < 2 ∨ _)
    omega
  have hlt := clst_lt hw hn
  have hroom : clst.toNat + clst.toNat / 2 + 2 ≤ fs.fsize.toNat * 4096 := hw.room _ hn
  have hbc : (clst + clst / 2).toNat = clst.toNat + clst.toNat / 2 := by
    rw [UInt32.toNat_add, UInt32.toNat_div]
    show (clst.toNat + clst.toNat / 2) % 2 ^ 32 = _
    omega
  have hbc' : (clst + clst / 2 + 1).toNat = clst.toNat + clst.toNat / 2 + 1 := by
    rw [UInt32.toNat_add, hbc]
    show (clst.toNat + clst.toNat / 2 + 1) % 2 ^ 32 = _
    omega
  have hfirst : clst.toNat + clst.toNat / 2 < fs.fsize.toNat * 4096 := by omega
  have hsecond : clst.toNat + clst.toNat / 2 + 1 < fs.fsize.toNat * 4096 := by omega
  unfold getFat
  rw [if_neg hvalid, hw.fsType]
  have hsect1 := toNat_fatSect hw hfirst (q := (clst + clst / 2) / ss) (by
    rw [UInt32.toNat_div, hbc]
    rfl)
  refine always_seq (keeps_moveFat hw hcoh hfirst hsect1) ?_
  rintro ⟨res, fs1⟩ d1 ⟨h1, hres1⟩
  dsimp only at h1 hres1 ⊢
  rcases hres1 with ⟨rfl, hwin1⟩ | ⟨rfl, hfail⟩
  · rw [if_neg (by decide)]
    have hw1 := h1.wellFormed hw
    have hbase : fs1.fatbase = fs.fatbase := congrArg Geometry.fatbase h1.geometry
    have hsize : fs1.fsize = fs.fsize := congrArg Geometry.fsize h1.geometry
    have hsecond1 : clst.toNat + clst.toNat / 2 + 1 < fs1.fsize.toNat * 4096 := by rwa [hsize]
    have hsect2 := toNat_fatSect hw1 hsecond1 (q := (clst + clst / 2 + 1) / ss) (by
      rw [UInt32.toNat_div, hbc']
      rfl)
    refine always_seq (keeps_moveFat hw1 h1.coherent hsecond1 hsect2) ?_
    rintro ⟨res, fs2⟩ d2 ⟨h2, hres2⟩
    dsimp only at h2 hres2 ⊢
    rcases hres2 with ⟨rfl, hwin2⟩ | ⟨rfl, hfail⟩
    · rw [if_neg (by decide)]
      refine ⟨h1.trans h2, .inl ?_⟩
      -- the two bytes, each from its own sector
      have hbyte1 : fs1.win ((clst + clst / 2) % ss).toNat =
          fs.fatMem d (clst.toNat + clst.toNat / 2) := by
        rw [← h1.mem _ hfirst]
        refine win_fat_at hw1 h1.coherent (by rwa [hsize]) ?_ ?_
        · rw [hwin1, hsect1, hbase]
        · rw [UInt32.toNat_mod, hbc]
          rfl
      have hbyte2 : fs2.win ((clst + clst / 2 + 1) % ss).toNat =
          fs.fatMem d (clst.toNat + clst.toNat / 2 + 1) := by
        have hbase2 : fs2.fatbase = fs1.fatbase := congrArg Geometry.fatbase h2.geometry
        have hsize2 : fs2.fsize = fs1.fsize := congrArg Geometry.fsize h2.geometry
        rw [← h1.mem _ hsecond, ← h2.mem _ hsecond1]
        refine win_fat_at (h2.wellFormed hw1) h2.coherent (by rwa [hsize2]) ?_ ?_
        · rw [hwin2, hsect2, hbase2]
        · rw [UInt32.toNat_mod, hbc']
          rfl
      show (if clst &&& 1 ≠ 0 then _ else _ : UInt32).toNat = _
      rw [hbyte1, hbyte2, toNat_entry12, fat_eq hw]
      show _ = LittleEndian.load 2 _ (clst.toNat + clst.toNat / 2) /
        2 ^ (4 * (clst.toNat % 2)) % 4096
      rw [load_two]
    · rw [if_pos (by decide)]
      exact ⟨h1.trans h2, .inr ⟨rfl, hfail⟩⟩
  · rw [if_pos (by decide)]
    exact ⟨h1, .inr ⟨rfl, hfail⟩⟩

/-- A number of the FAT in the window, in which it lies as a whole. -/
theorem load_win (hw : fs.WellFormed t) (hcoh : fs.Coherent d) {n w : Nat}
    (hn : n < fs.fsize.toNat * 4096) (hpage : n % 4096 + w ≤ 4096)
    (hsect : fs.winsect.toNat = fs.fatbase.toNat + n / 4096) {p : UInt32}
    (hp : p.toNat = n % 4096) :
    LittleEndian.load w fs.win p.toNat = LittleEndian.load w (fs.fatMem d) n := by
  rw [hp]
  unfold LittleEndian.load Blocks.slice
  refine congrArg _ (List.map_congr_left fun i hi => ?_)
  have hlt : i < w := List.mem_range.1 hi
  exact win_fat hw hcoh hn hsect (by omega)

/-- A load reads these bytes and no others. -/
theorem load_congr {w : Nat} {mem mem' : Nat → UInt8} {n : Nat}
    (h : ∀ i < w, mem (n + i) = mem' (n + i)) :
    LittleEndian.load w mem n = LittleEndian.load w mem' n := by
  unfold LittleEndian.load Blocks.slice
  exact congrArg _ (List.map_congr_left fun i hi => h i (List.mem_range.1 hi))

/-- A load of `w` bytes is below `256 ^ w`. -/
theorem load_lt (w : Nat) (mem : Nat → UInt8) (n : Nat) :
    LittleEndian.load w mem n < 256 ^ w := by
  have hdigits : ∀ x ∈ (Blocks.slice mem n w).map UInt8.toNat, x < 256 := by
    intro x hx
    obtain ⟨b, -, rfl⟩ := List.mem_map.1 hx
    exact b.toNat_lt
  have hlt := Nat.ofDigits_lt_base_pow_length (by decide) hdigits
  rwa [List.length_map, Blocks.length_slice] at hlt

/-- A cluster of the volume passes the check of `get_fat`. -/
theorem clst_valid {clst : UInt32} (htwo : 2 ≤ clst.toNat)
    (hn : clst.toNat < fs.nFatent.toNat) : ¬ (clst < 2 ∨ fs.nFatent ≤ clst) := by
  rw [UInt32.lt_iff_toNat_lt, UInt32.le_iff_toNat_le]
  show ¬ (clst.toNat < 2 ∨ _)
  omega

/-- It passes the check of `put_fat`, which is the same the other way round. -/
theorem clst_bounds {clst : UInt32} (htwo : 2 ≤ clst.toNat)
    (hn : clst.toNat < fs.nFatent.toNat) : 2 ≤ clst ∧ clst < fs.nFatent :=
  ⟨UInt32.le_iff_toNat_le.2 htwo, UInt32.lt_iff_toNat_lt.2 hn⟩

/-- Moving the window to a number of the FAT that lies in one sector. What is loaded from the window
is then the number that is seen of the FAT, with a dirty window before it written back. -/
theorem loads_moveFat (hw : fs.WellFormed t) (hcoh : fs.Coherent d) {n w : Nat}
    (hn : n + w ≤ fs.fsize.toNat * 4096) (hpos : 0 < w) (hpage : n % 4096 + w ≤ 4096)
    {q p : UInt32} (hq : q.toNat = n / 4096) (hp : p.toNat = n % 4096) :
    Ends ok (moveWindow fs (fs.fatbase + q)) (fun r d' => Looked fs d r.2 d' ∧
      (r.1 = .ok ∧ r.2.winsect.toNat = fs.fatbase.toNat + n / 4096 ∧
          LittleEndian.load w r.2.win p.toNat = LittleEndian.load w (fs.fatMem d) n ∨
        r.1 = .diskErr ∧ MayFail ok)) d := by
  have hsect := toNat_fatSect hw (by omega) hq
  refine always_mono ?_ (keeps_moveFat hw hcoh (by omega) hsect)
  rintro ⟨res, fs1⟩ d1 ⟨h1, hres⟩
  refine ⟨h1, ?_⟩
  rcases hres with ⟨hok, hwin⟩ | herr
  · have hbase : fs1.fatbase = fs.fatbase := congrArg Geometry.fatbase h1.geometry
    have hsize : fs1.fsize = fs.fsize := congrArg Geometry.fsize h1.geometry
    dsimp only at hwin
    have hload := load_win (h1.wellFormed hw) h1.coherent (n := n) (w := w)
      (by rw [hsize]; omega) hpage (by rw [hwin, hsect, hbase]) hp
    rw [load_congr fun i hi => h1.mem (n + i) (by omega)] at hload
    refine .inl ⟨hok, ?_, hload⟩
    rw [hwin, hsect]
  · exact .inr herr

/-- `get_fat` on FAT16 loads one sector: its size is even, so no entry crosses a border. The entry
is the word in the window. -/
theorem keeps_getFat16 (hw : fs.WellFormed .fat16) (hcoh : fs.Coherent d) {clst : UInt32}
    (htwo : 2 ≤ clst.toNat) (hn : clst.toNat < fs.nFatent.toNat) :
    Ends ok (getFat fs clst) (GetsFat ok fs d clst) d := by
  have hlt := clst_lt hw hn
  have hroom : clst.toNat * 2 + 2 ≤ fs.fsize.toNat * 4096 := hw.room _ hn
  have hpage : clst.toNat * 2 % 4096 + 2 ≤ 4096 := by omega
  have hq : (clst / (ss / 2)).toNat = clst.toNat * 2 / 4096 := by
    rw [UInt32.toNat_div]
    show clst.toNat / 2048 = _
    omega
  have hp : (clst * 2 % ss).toNat = clst.toNat * 2 % 4096 := by
    rw [UInt32.toNat_mod, UInt32.toNat_mul]
    show clst.toNat * 2 % 2 ^ 32 % 4096 = _
    omega
  unfold getFat
  rw [if_neg (clst_valid htwo hn), hw.fsType]
  refine always_seq (loads_moveFat hw hcoh hroom (by decide) hpage hq hp) ?_
  rintro ⟨res, fs1⟩ d1 ⟨h1, ⟨rfl, -, hload⟩ | ⟨rfl, hfail⟩⟩
  · refine ⟨h1, .inl ?_⟩
    dsimp only at hload
    show (ldWord _ fs1.win).toUInt32.toNat = _
    rw [UInt16.toNat_toUInt32, ldWord, hload, fat_eq hw]
    show (LittleEndian.load 2 _ (clst.toNat * 2)).toUInt16.toNat =
      LittleEndian.load 2 _ (clst.toNat * 2) / 1 % 2 ^ 16
    rw [Nat.div_one]
    exact UInt16.toNat_ofNat'
  · exact ⟨h1, .inr ⟨rfl, hfail⟩⟩

/-- `get_fat` on FAT32 loads one sector and drops the upper four bits of the entry. The entry is the
double word in the window, masked. -/
theorem keeps_getFat32 (hw : fs.WellFormed .fat32) (hcoh : fs.Coherent d) {clst : UInt32}
    (htwo : 2 ≤ clst.toNat) (hn : clst.toNat < fs.nFatent.toNat) :
    Ends ok (getFat fs clst) (GetsFat ok fs d clst) d := by
  have hlt := clst_lt hw hn
  have hroom : clst.toNat * 4 + 4 ≤ fs.fsize.toNat * 4096 := hw.room _ hn
  have hpage : clst.toNat * 4 % 4096 + 4 ≤ 4096 := by omega
  have hq : (clst / (ss / 4)).toNat = clst.toNat * 4 / 4096 := by
    rw [UInt32.toNat_div]
    show clst.toNat / 1024 = _
    omega
  have hp : (clst * 4 % ss).toNat = clst.toNat * 4 % 4096 := by
    rw [UInt32.toNat_mod, UInt32.toNat_mul]
    show clst.toNat * 4 % 2 ^ 32 % 4096 = _
    omega
  unfold getFat
  rw [if_neg (clst_valid htwo hn), hw.fsType]
  refine always_seq (loads_moveFat hw hcoh hroom (by decide) hpage hq hp) ?_
  rintro ⟨res, fs1⟩ d1 ⟨h1, ⟨rfl, -, hload⟩ | ⟨rfl, hfail⟩⟩
  · refine ⟨h1, .inl ?_⟩
    dsimp only at hload
    have hdword := load_lt 4 (fs.fatMem d) (clst.toNat * 4)
    have hofNat : (LittleEndian.load 4 (fs.fatMem d) (clst.toNat * 4)).toUInt32.toNat =
        LittleEndian.load 4 (fs.fatMem d) (clst.toNat * 4) :=
      UInt32.toNat_ofNat_of_lt' hdword
    show (ldDword _ fs1.win &&& 0x0FFFFFFF).toNat = _
    rw [UInt32.toNat_and, ldDword, hload, fat_eq hw]
    show (LittleEndian.load 4 _ (clst.toNat * 4)).toUInt32.toNat &&& 2 ^ 28 - 1 =
      LittleEndian.load 4 _ (clst.toNat * 4) / 1 % 2 ^ 28
    rw [Bits.and_low, Nat.div_one, hofNat]
  · exact ⟨h1, .inr ⟨rfl, hfail⟩⟩

/-- `get_fat` on a cluster of the volume gives its entry. -/
theorem keeps_getFat (hw : fs.WellFormed t) (hcoh : fs.Coherent d) {clst : UInt32}
    (htwo : 2 ≤ clst.toNat) (hn : clst.toNat < fs.nFatent.toNat) :
    Ends ok (getFat fs clst) (GetsFat ok fs d clst) d := by
  cases t with
  | fat12 => exact keeps_getFat12 hw hcoh htwo hn
  | fat16 => exact keeps_getFat16 hw hcoh htwo hn
  | fat32 => exact keeps_getFat32 hw hcoh htwo hn

/-! ### `put_fat` -/

/-- What `put_fat` leaves. -/
def PutsFat (ok : Answer → Prop) (fs : Fatfs) (d : Image) (t : FatType) (clst val : UInt32)
    (r : FResult × Fatfs) (d' : Image) : Prop :=
  FatOnly fs d r.2 d' ∧ r.2.toAllocInfo = fs.toAllocInfo ∧
    (∀ c < fs.nFatent.toNat, c ≠ clst.toNat → r.2.fat d' c = fs.fat d c) ∧
    (r.1 = .ok ∧ r.2.fat d' clst.toNat = val.toNat % 2 ^ entryBits t ∧
        r.2.winsect.toNat < fs.database.toNat ∨
      r.1 = .diskErr ∧ MayFail ok)

/-- The bytes of the entry have been stored in the FAT. -/
theorem putsFat_of_mem (hw : fs.WellFormed t) {clst val : UInt32}
    (hn : clst.toNat < fs.nFatent.toNat) (h : FatOnly fs d fs' d')
    (halloc : fs'.toAllocInfo = fs.toAllocInfo)
    (hwin : fs'.winsect.toNat < fs.database.toNat)
    (hmem : ∀ i < fs.fsize.toNat * 4096,
      fs'.fatMem d' i = putEntryBytes t (fs.fatMem d) clst val i) :
    PutsFat ok fs d t clst val (.ok, fs') d' := by
  refine ⟨h, halloc, ?_, .inl ⟨rfl, ?_, hwin⟩⟩
  · intro c hc hne
    rw [fat_congr hw h.geometry hmem hc, fat_eq hw]
    exact entryAt_put_ne hne
  · rw [fat_congr hw h.geometry hmem hn]
    exact entryAt_put_self

/-- A look at the FAT before the store of the entry. -/
theorem putsFat_failed (hw : fs.WellFormed t) {clst val : UInt32} (h : Looked fs d fs' d')
    (hfail : MayFail ok) : PutsFat ok fs d t clst val (.diskErr, fs') d' :=
  ⟨h.toFatOnly, h.alloc, fun _ hc _ => looked_fat hw h hc, .inr ⟨rfl, hfail⟩⟩

/-- The entry lies in the sector that the window shows, and is stored there. The window is moved
first, which changes no entry. -/
theorem putsFat_stored (hw : fs.WellFormed t) {clst val : UInt32}
    (hn : clst.toNat < fs.nFatent.toNat) (h : Looked fs d fs' d')
    (hwin : fs'.winsect.toNat = fs.fatbase.toNat + entryOfs t clst.toNat / 4096)
    (hpage : entryOfs t clst.toNat % 4096 + entryWidth t ≤ 4096) {data : List UInt8}
    (hdata : data = putBytes t (fs.fatMem d) clst val) {p : Nat}
    (hp : p = entryOfs t clst.toNat % 4096) :
    PutsFat ok fs d t clst val
      (.ok, { fs' with win := memCpy p data fs'.win, wflag := true }) d' := by
  subst hp
  have hbase : fs'.fatbase = fs.fatbase := congrArg Geometry.fatbase h.geometry
  have hsize : fs'.fsize = fs.fsize := congrArg Geometry.fsize h.geometry
  have hlen : data.length = entryWidth t := by rw [hdata, length_putBytes]
  have hroom := hw.room _ hn
  have hpos : 0 < entryWidth t := by cases t <;> decide
  have hbelow := fatSect_lt hw (n := entryOfs t clst.toNat) (by omega) hwin
  rw [← hbase] at hwin
  obtain ⟨honly, hmem⟩ := change_fat (h.wellFormed hw) h.coherent hwin data
    (by omega) (by rw [hsize]; omega) (by rw [← List.length_pos_iff]; omega) rfl
  refine putsFat_of_mem hw hn (h.toFatOnly.trans honly) h.alloc hbelow fun i hi => ?_
  rw [hmem i, hdata]
  exact Blocks.store_congr _ _ (h.mem i hi)

/-- `put_fat` on FAT16 stores two bytes in one sector. The entry starts at an even address, so it
never crosses a sector. By the move of the window and the store in it. -/
theorem keeps_putFat16 (hw : fs.WellFormed .fat16) (hcoh : fs.Coherent d) {clst val : UInt32}
    (htwo : 2 ≤ clst.toNat) (hn : clst.toNat < fs.nFatent.toNat) :
    Ends ok (putFat fs clst val) (PutsFat ok fs d .fat16 clst val) d := by
  have hlt := clst_lt hw hn
  have hroom : clst.toNat * 2 + 2 ≤ fs.fsize.toNat * 4096 := hw.room _ hn
  have hpage : clst.toNat * 2 % 4096 + 2 ≤ 4096 := by omega
  have hq : (clst / (ss / 2)).toNat = clst.toNat * 2 / 4096 := by
    rw [UInt32.toNat_div]
    show clst.toNat / 2048 = _
    omega
  have hp : (clst * 2 % ss).toNat = clst.toNat * 2 % 4096 := by
    rw [UInt32.toNat_mod, UInt32.toNat_mul]
    show clst.toNat * 2 % 2 ^ 32 % 4096 = _
    omega
  unfold putFat
  rw [if_pos (clst_bounds htwo hn), hw.fsType]
  refine always_seq (loads_moveFat hw hcoh hroom (by decide) hpage hq hp) ?_
  rintro ⟨res, fs1⟩ d1 ⟨h1, ⟨rfl, hwin, -⟩ | ⟨rfl, hfail⟩⟩
  · exact putsFat_stored hw hn h1 hwin hpage rfl hp
  · exact putsFat_failed hw h1 hfail

/-- `put_fat` on FAT32 stores four bytes in one sector, and keeps the upper four bits that it finds
there. The word that is stored has the upper four bits of the one in the window. -/
theorem keeps_putFat32 (hw : fs.WellFormed .fat32) (hcoh : fs.Coherent d) {clst val : UInt32}
    (htwo : 2 ≤ clst.toNat) (hn : clst.toNat < fs.nFatent.toNat) :
    Ends ok (putFat fs clst val) (PutsFat ok fs d .fat32 clst val) d := by
  have hlt := clst_lt hw hn
  have hroom : clst.toNat * 4 + 4 ≤ fs.fsize.toNat * 4096 := hw.room _ hn
  have hpage : clst.toNat * 4 % 4096 + 4 ≤ 4096 := by omega
  have hq : (clst / (ss / 4)).toNat = clst.toNat * 4 / 4096 := by
    rw [UInt32.toNat_div]
    show clst.toNat / 1024 = _
    omega
  have hp : (clst * 4 % ss).toNat = clst.toNat * 4 % 4096 := by
    rw [UInt32.toNat_mod, UInt32.toNat_mul]
    show clst.toNat * 4 % 2 ^ 32 % 4096 = _
    omega
  unfold putFat
  rw [if_pos (clst_bounds htwo hn), hw.fsType]
  refine always_seq (loads_moveFat hw hcoh hroom (by decide) hpage hq hp) ?_
  rintro ⟨res, fs1⟩ d1 ⟨h1, ⟨rfl, hwin, hload⟩ | ⟨rfl, hfail⟩⟩
  · -- the four high bits come from the window
    dsimp only at hload
    refine putsFat_stored hw hn h1 hwin hpage ?_ hp
    show LittleEndian.bytes 4 _ = LittleEndian.bytes 4 _
    rw [ldDword, hload]
    rfl
  · exact putsFat_failed hw h1 hfail

/-- `put_fat` on FAT12 stores one byte, loads the sector of the next and stores that one. A failure
in between leaves half of an entry, in this entry only. -/
theorem keeps_putFat12 (hw : fs.WellFormed .fat12) (hcoh : fs.Coherent d) {clst val : UInt32}
    (htwo : 2 ≤ clst.toNat) (hn : clst.toNat < fs.nFatent.toNat) :
    Ends ok (putFat fs clst val) (PutsFat ok fs d .fat12 clst val) d := by
  have hlt := clst_lt hw hn
  have hroom : clst.toNat + clst.toNat / 2 + 2 ≤ fs.fsize.toNat * 4096 := hw.room _ hn
  have hbc : (clst + clst / 2).toNat = clst.toNat + clst.toNat / 2 := by
    rw [UInt32.toNat_add, UInt32.toNat_div]
    show (clst.toNat + clst.toNat / 2) % 2 ^ 32 = _
    omega
  have hbc' : (clst + clst / 2 + 1).toNat = clst.toNat + clst.toNat / 2 + 1 := by
    rw [UInt32.toNat_add, hbc]
    show (clst.toNat + clst.toNat / 2 + 1) % 2 ^ 32 = _
    omega
  have hp : ∀ x : UInt32, (x % ss).toNat = x.toNat % 4096 := fun x => UInt32.toNat_mod _ _
  have hfirst : clst.toNat + clst.toNat / 2 < fs.fsize.toNat * 4096 := by omega
  have hsecond : clst.toNat + clst.toNat / 2 + 1 < fs.fsize.toNat * 4096 := by omega
  unfold putFat
  rw [if_pos (clst_bounds htwo hn), hw.fsType]
  have hsect1 := toNat_fatSect hw hfirst (q := (clst + clst / 2) / ss) (by
    rw [UInt32.toNat_div, hbc]
    rfl)
  refine always_seq (keeps_moveFat hw hcoh hfirst hsect1) ?_
  rintro ⟨res, fs1⟩ d1 ⟨h1, ⟨rfl, hwin1⟩ | ⟨rfl, hfail⟩⟩
  · dsimp only at h1 hwin1 ⊢
    rw [if_neg (by decide)]
    have hw1 := h1.wellFormed hw
    have hbase : fs1.fatbase = fs.fatbase := congrArg Geometry.fatbase h1.geometry
    have hsize : fs1.fsize = fs.fsize := congrArg Geometry.fsize h1.geometry
    have hplace1 : fs1.winsect.toNat =
        fs1.fatbase.toNat + (clst.toNat + clst.toNat / 2) / 4096 := by
      rw [hwin1, hsect1, hbase]
    have hbyte1 : fs1.win ((clst + clst / 2) % ss).toNat =
        fs.fatMem d (clst.toNat + clst.toNat / 2) := by
      rw [← h1.mem _ hfirst]
      exact win_fat_at hw1 h1.coherent (by rwa [hsize]) hplace1 (by rw [hp, hbc])
    rw [hbyte1, hp (clst + clst / 2), hbc]
    -- the first byte
    obtain ⟨honly, hmem⟩ := change_fat hw1 h1.coherent hplace1
      [fat12First clst val (fs.fatMem d (clst.toNat + clst.toNat / 2))]
      (by show _ + 1 ≤ 4096; omega) (by rw [hsize]; show _ + 1 ≤ _; omega) (by simp) rfl
    generalize hfs2 : ({ fs1 with win := memCpy _ _ fs1.win, wflag := true } : Fatfs) = fs2
      at honly hmem ⊢
    have h2 := h1.toFatOnly.trans honly
    have halloc2 : fs2.toAllocInfo = fs.toAllocInfo := by
      rw [← hfs2]
      exact h1.alloc
    have hw2 := h2.wellFormed hw
    have hbase2 : fs2.fatbase = fs.fatbase := congrArg Geometry.fatbase h2.geometry
    have hsize2 : fs2.fsize = fs.fsize := congrArg Geometry.fsize h2.geometry
    have hmem2 : ∀ i < fs.fsize.toNat * 4096, fs2.fatMem d1 i =
        Blocks.store (fs.fatMem d) (clst.toNat + clst.toNat / 2)
          [fat12First clst val (fs.fatMem d (clst.toNat + clst.toNat / 2))] i := by
      intro i hi
      rw [hmem i]
      exact Blocks.store_congr _ _ (h1.mem i hi)
    have hsecond2 : clst.toNat + clst.toNat / 2 + 1 < fs2.fsize.toNat * 4096 := by rwa [hsize2]
    have hsect2 := toNat_fatSect hw2 hsecond2 (q := (clst + clst / 2 + 1) / ss) (by
      rw [UInt32.toNat_div, hbc']
      rfl)
    rw [← hbase2.trans hbase.symm]
    refine always_seq (keeps_moveFat hw2 h2.coherent hsecond2 hsect2) ?_
    rintro ⟨res, fs3⟩ d3 ⟨h3, ⟨rfl, hwin3⟩ | ⟨rfl, hfail⟩⟩
    · dsimp only at h3 hwin3 ⊢
      rw [if_neg (by decide)]
      have hw3 := h3.wellFormed hw2
      have hbase3 : fs3.fatbase = fs2.fatbase := congrArg Geometry.fatbase h3.geometry
      have hsize3 : fs3.fsize = fs2.fsize := congrArg Geometry.fsize h3.geometry
      have hplace3 : fs3.winsect.toNat =
          fs3.fatbase.toNat + (clst.toNat + clst.toNat / 2 + 1) / 4096 := by
        rw [hwin3, hsect2, hbase3]
      have hbyte2 : fs3.win ((clst + clst / 2 + 1) % ss).toNat =
          fs.fatMem d (clst.toNat + clst.toNat / 2 + 1) := by
        rw [win_fat_at hw3 h3.coherent (by rwa [hsize3]) hplace3 (by rw [hp, hbc']),
          h3.mem _ hsecond2, hmem2 _ hsecond]
        exact Blocks.store_of_outside _ _ (.inr (Nat.le_refl _))
      rw [hbyte2, hp (clst + clst / 2 + 1), hbc']
      -- the second byte
      obtain ⟨honly', hmem'⟩ := change_fat hw3 h3.coherent hplace3
        [fat12Second clst val (fs.fatMem d (clst.toNat + clst.toNat / 2 + 1))]
        (by show _ + 1 ≤ 4096; omega) (by rw [hsize3, hsize2]; show _ + 1 ≤ _; omega) (by simp) rfl
      have hbelow := fatSect_lt hw hsecond ((hplace3.trans (by rw [hbase3, hbase2])) :
        fs3.winsect.toNat = fs.fatbase.toNat + (clst.toNat + clst.toNat / 2 + 1) / 4096)
      refine putsFat_of_mem hw hn ((h2.trans h3.toFatOnly).trans honly')
        (h3.alloc.trans halloc2) hbelow fun i hi => ?_
      rw [hmem' i]
      refine (Blocks.store_congr _ _ ((h3.mem i (by rwa [hsize2])).trans (hmem2 i hi))).trans ?_
      exact congrFun (Blocks.store_append (fs.fatMem d) (clst.toNat + clst.toNat / 2)
        [fat12First clst val _] [fat12Second clst val _]).symm i
    · dsimp only at h3 ⊢
      rw [if_pos (by decide)]
      -- the first byte alone has been stored
      refine ⟨h2.trans h3.toFatOnly, h3.alloc.trans halloc2, ?_, .inr ⟨rfl, hfail⟩⟩
      intro c hc hne
      have hhalf : ∀ i < fs.fsize.toNat * 4096, fs3.fatMem d3 i =
          Blocks.store (fs.fatMem d) (clst.toNat + clst.toNat / 2)
            [fat12First clst val (fs.fatMem d (clst.toNat + clst.toNat / 2))] i := by
        intro i hi
        rw [h3.mem i (by rwa [hsize2]), hmem2 i hi]
      rw [fat_congr hw (h2.trans h3.toFatOnly).geometry hhalf hc, fat_eq hw]
      exact entryAt_putFirst_ne hne
  · exact putsFat_failed hw h1 hfail

/-- `put_fat` on a cluster of the volume changes its entry and no other. -/
theorem keeps_putFat (hw : fs.WellFormed t) (hcoh : fs.Coherent d) {clst val : UInt32}
    (htwo : 2 ≤ clst.toNat) (hn : clst.toNat < fs.nFatent.toNat) :
    Ends ok (putFat fs clst val) (PutsFat ok fs d t clst val) d := by
  cases t with
  | fat12 => exact keeps_putFat12 hw hcoh htwo hn
  | fat16 => exact keeps_putFat16 hw hcoh htwo hn
  | fat32 => exact keeps_putFat32 hw hcoh htwo hn

/-! ### The table -/

/-- Entries are put one after the other. -/
def putAll : List (UInt32 × UInt32) → Fatfs → DiskProg (FResult × Fatfs)
  | [], fs => return (.ok, fs)
  | p :: ps, fs => do
    let (res, fs) ← putFat fs p.1 p.2
    if res ≠ .ok then return (res, fs) else putAll ps fs

/-- An entry is put into the table. -/
def putTable (t : FatType) (table : Nat → Nat) (p : UInt32 × UInt32) : Nat → Nat :=
  Function.update table p.1.toNat (p.2.toNat % 2 ^ entryBits t)

/-- What a list of stores makes of one entry depends on that entry only. -/
theorem putTable_congr {table table' : Nat → Nat} {c : Nat} (h : table c = table' c)
    (ps : List (UInt32 × UInt32)) :
    ps.foldl (putTable t) table c = ps.foldl (putTable t) table' c := by
  induction ps generalizing table table' with
  | nil => exact h
  | cons p ps ih =>
    refine ih ?_
    unfold putTable
    by_cases hc : c = p.1.toNat
    · rw [hc, Function.update_self, Function.update_self]
    · rw [Function.update_of_ne hc, Function.update_of_ne hc, h]

/-- The FAT is a table of its entries: what `get_fat` returns is what has been put last, or was
there, whether the entries share bytes and cross sectors, as on FAT12, or not. By induction on the
stores, one after the other. -/
theorem getFat_of_puts (hw : fs.WellFormed t) (hcoh : fs.Coherent d)
    (ps : List (UInt32 × UInt32)) (hps : ∀ p ∈ ps, 2 ≤ p.1.toNat ∧ p.1.toNat < fs.nFatent.toNat)
    {clst : UInt32} (htwo : 2 ≤ clst.toNat) (hn : clst.toNat < fs.nFatent.toNat) :
    Ends ok (do
        let (res, fs) ← putAll ps fs
        if res ≠ .ok then return (res, 0xFFFFFFFF, fs)
        else
          let (val, fs) ← getFat fs clst
          return (.ok, val, fs))
      (fun r d' => FatOnly fs d r.2.2 d' ∧
        ((r.1 = .ok ∧ r.2.1.toNat = ps.foldl (putTable t) (fs.fat d) clst.toNat) ∨
          (r.1 = .diskErr ∨ r.2.1 = 0xFFFFFFFF) ∧ MayFail ok)) d := by
  induction ps generalizing fs d with
  | nil =>
    unfold putAll
    rw [Prog.pure_eq, Prog.ret_bind]
    dsimp only
    rw [if_neg (by decide)]
    refine always_seq (keeps_getFat hw hcoh htwo hn) ?_
    rintro ⟨val, fs1⟩ d1 ⟨hlooked, hval | ⟨hval, hfail⟩⟩
    · exact ⟨hlooked.toFatOnly, .inl ⟨rfl, hval⟩⟩
    · exact ⟨hlooked.toFatOnly, .inr ⟨.inr hval, hfail⟩⟩
  | cons p ps ih =>
    obtain ⟨hp, hpn⟩ := hps p List.mem_cons_self
    unfold putAll
    rw [Prog.bind_assoc]
    refine always_seq (keeps_putFat hw hcoh hp hpn) ?_
    rintro ⟨res, fs1⟩ d1 ⟨honly, -, hothers, ⟨rfl, hput, -⟩ | ⟨rfl, hfail⟩⟩
    · dsimp only at honly hothers hput ⊢
      rw [if_neg (by decide)]
      have hn1 : fs1.nFatent = fs.nFatent := congrArg Geometry.nFatent honly.geometry
      refine always_mono ?_ (ih (honly.wellFormed hw) honly.coherent
        (fun q hq => by rw [hn1]; exact hps q (List.mem_cons_of_mem _ hq)) (by rwa [hn1]))
      rintro ⟨res, val, fs2⟩ d2 ⟨honly2, hres⟩
      refine ⟨honly.trans honly2, ?_⟩
      rcases hres with ⟨hok, hval⟩ | hfailed
      · refine .inl ⟨hok, hval.trans (putTable_congr ?_ ps)⟩
        -- the table after the first entry
        unfold putTable
        by_cases hc : clst.toNat = p.1.toNat
        · rw [hc, Function.update_self, hput]
        · rw [Function.update_of_ne hc, hothers _ hn hc]
      · exact .inr hfailed
    · dsimp only at honly ⊢
      rw [if_pos (by decide)]
      exact ⟨honly, .inr ⟨.inl rfl, hfail⟩⟩

/-- The small volume has its areas in order. -/
theorem small_wellFormed : smallFs.WellFormed .fat12 where
  fsType := rfl
  entries := by decide
  limit := by decide
  room := by
    intro c hc
    have hlt : c < 5 := hc
    show c + c / 2 + 2 ≤ 1 * 4096
    omega
  copies := .inr rfl
  fats := by decide
  csize := ⟨0, rfl⟩
  data := by decide

/-- Three stores on a volume of twelve-bit entries, two of them to the same cluster, and the entry
that is read afterwards. -/
theorem getFat_small :
    Ends AnyAnswer (do
        let (res, fs) ← putAll [(3, 4), (4, 0xFFF), (3, 0x123)] smallFs
        if res ≠ .ok then return (res, 0xFFFFFFFF, fs)
        else
          let (val, fs) ← getFat fs 3
          return (.ok, val, fs))
      (fun r d' => FatOnly smallFs smallDisk r.2.2 d' ∧
        ((r.1 = .ok ∧ r.2.1.toNat = [(3, 4), (4, 0xFFF), (3, 0x123)].foldl (putTable .fat12)
            (smallFs.fat smallDisk) (3 : UInt32).toNat) ∨
          (r.1 = .diskErr ∨ r.2.1 = 0xFFFFFFFF) ∧ MayFail AnyAnswer)) smallDisk := by
  refine getFat_of_puts small_wellFormed small_coherent _ ?_ (by decide) (by decide)
  intro p hp
  rcases List.mem_cons.1 hp with rfl | hp
  · exact ⟨by decide, by decide⟩
  rcases List.mem_cons.1 hp with rfl | hp
  · exact ⟨by decide, by decide⟩
  · rw [List.mem_singleton.1 hp]
    exact ⟨by decide, by decide⟩

end NucleoH743.Ff
