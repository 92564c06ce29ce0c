import NucleoH743.FatFs.Files
import NucleoH743.Proofs.FatFs.FileSeek
import NucleoH743.Proofs.FatFs.FileSync

/-!
# `Proofs.FatFs.Files`: open files do not meet

Several files are open on one volume, and the calls on them come in any order. On a drive that does
not fail each file is what it is in `FatFs.Volume`: a list of bytes with a file pointer, which the
calls on the other files leave.

The proof has two halves. `FilesOn.step` shows that a call on one file leaves the others open and as
they were, from the frames of `Proofs.FatFs.FileLayout` and `Proofs.FatFs.FileSync`: a cluster that
a file takes was free, so it is in no other file, and an entry that it writes is its own. `Does` is
the call at the level of `FatFs.Volume`, where a file is a list of bytes, and `keeps_callFile` shows
that the call on the object is one of these.

A run then falls apart into the runs of its files (`DoesAll.alone`), since at that level a call on
one file does not mention another.

- `FilesOn`: the state of the volume between two calls.
- `FilesOn.step`: a call on one file keeps it.
- `Does`: a call at the level of `FatFs.Volume`.
- `keeps_callFile`, `keeps_callFiles`: a call and a run refine that level.
-/

set_option autoImplicit false

namespace NucleoH743.Ff

open Diskio Mkfs Chains
open Prog (always_seq always_mono)

variable {ι : Type} {t : FatType} {fs fs' : Fatfs} {d d' : Image} {fps : ι → Fil}
  {css : ι → List Nat}

/-- Nothing fails. -/
theorem not_mayFail : ¬ MayFail (· = .done) := by
  rintro ⟨junk, h⟩
  exact Answer.noConfusion h

/-! ### Open files -/

/-- The directory entry of a file lies in a root directory in front of the clusters, or in a
cluster that is in use and no part of an open file. -/
structure Homed (fs : Fatfs) (d : Image) (css : ι → List Nat) (fo : FilOpen) : Prop where
  inside : fo.dirPtr + 32 ≤ 4096
  behind : fs.fatEnd ≤ fo.dirSect.toNat
  valid : fo.dirSect ≠ 0 - 1
  home : fo.dirSect.toNat < fs.database.toNat ∨
    ∃ c, fs.Clst c ∧ fs.fat d c ≠ 0 ∧ (∀ j, c ∉ css j) ∧ fs.InClsts [c] (sectAddr fo.dirSect)

/-- Files that are open on a sound volume. No two share a cluster. -/
structure FilesOn (t : FatType) (fs : Fatfs) (d : Image) (fps : ι → Fil) (css : ι → List Nat) :
    Prop where
  sound : Sound t fs d
  fsinfo : fs.FsinfoPlaced
  opened : ∀ i, Opened fs d (fps i) (css i)
  usable : ∀ i, Usable fs (fps i)
  apart : ∀ i j, i ≠ j → ∀ c ∈ css i, c ∉ css j
  homed : ∀ i, Homed fs d css (fps i).toFilOpen

/-- The entry is in none of the files. -/
theorem Homed.placed {fo : FilOpen} (h : Homed fs d css fo)
    (hcs : ∀ i, ∀ c ∈ css i, fs.Clst c) (j : ι) : EntryPlaced fs.toGeometry (css j) fo := by
  refine ⟨h.inside, h.behind, h.valid, ?_⟩
  intro hin
  rcases h.home with hlt | ⟨c, hc, -, hfree, hcin⟩
  · obtain ⟨c, -, hle, -⟩ := hin
    unfold Geometry.clstAddr sectAddr at hle
    omega
  · obtain ⟨c', hmem, hsame⟩ := hin.disjoint hcin (fun c hc => (hcs j c hc).1) (by
      intro c' hc'
      rw [List.mem_singleton.1 hc']
      exact hc.1)
    rw [List.mem_singleton.1 hsame] at hmem
    exact hfree j hmem

/-- What a call on file `i` leaves to the others. -/
structure Stepped (fs : Fatfs) (d : Image) (fps : ι → Fil) (css : ι → List Nat) (i : ι)
    (fs' : Fatfs) (d' : Image) (cs' : List Nat) : Prop where
  geometry : fs'.toGeometry = fs.toGeometry
  id : fs'.id = fs.id
  fresh : ∀ c ∈ cs', c ∈ css i ∨ fs.fat d c = 0
  entries : ∀ c, fs.Clst c → c ∉ css i → fs.fat d c ≠ 0 → fs'.fat d' c = fs.fat d c
  others : ∀ j, j ≠ i → Opened fs' d' (fps j) (css j) ∧
    (fps j).content fs' d' (css j) = (fps j).content fs d (css j)

/-- A new cluster was free, so that it is in no other file. -/
theorem FilesOn.fresh_apart (h : FilesOn t fs d fps css) {i j : ι} (hne : j ≠ i) {cs' : List Nat}
    (hfresh : ∀ c ∈ cs', c ∈ css i ∨ fs.fat d c = 0) {c : Nat} (hc : c ∈ css j) : c ∉ cs' := by
  intro hnew
  rcases hfresh c hnew with hold | hzero
  · exact h.apart j i hne c hc hold
  · have hused := (h.opened j).chain.ne_zero h.sound.wellFormed hc
    omega

/-- A transfer or a seek on file `i`. -/
theorem FilesOn.stepped_of_frame (h : FilesOn t fs d fps css) {i : ι} {cs' : List Nat}
    (hf : Frame (css i) cs' fs d fs' d') : Stepped fs d fps css i fs' d' cs' where
  geometry := hf.geometry
  id := hf.id
  fresh := hf.fresh
  entries := hf.entries
  others := fun j hne =>
    (h.opened j).frame h.sound.wellFormed hf fun _ hc => h.fresh_apart hne hf.fresh hc

/-- The clusters of a file are clusters of the volume. -/
theorem FilesOn.clst (h : FilesOn t fs d fps css) (i : ι) : ∀ c ∈ css i, fs.Clst c :=
  (h.opened i).chain.clst

/-- A sync of file `i`. -/
theorem FilesOn.stepped_of_sync {ok : Answer → Prop} (h : FilesOn t fs d fps css) {i : ι}
    (hf : SyncFrame ok (css i) (fps i).toFilOpen fs d fs' d') :
    Stepped fs d fps css i fs' d' (css i) where
  geometry := hf.geometry
  id := hf.id
  fresh := fun _ hc => .inl hc
  entries := fun _ hc _ _ => hf.fat h.sound.wellFormed ((h.homed i).placed h.clst i) hc.2
  others := fun j hne =>
    hf.other h.sound.wellFormed (fun c hc => (h.clst i c hc).1) ((h.homed i).placed h.clst i)
      (h.opened j) (h.apart j i hne) ((h.homed i).placed h.clst j).away

variable [DecidableEq ι]

/-- A call on one file keeps the state between the calls. The call moves its own file from one chain
to another. No cluster of another file is in the new chain, since what is new in it was free. -/
theorem FilesOn.step (h : FilesOn t fs d fps css) {i : ι} {cs' : List Nat} {fp' : Fil}
    (hstep : Stepped fs d fps css i fs' d' cs') (hs' : Sound t fs' d')
    (ho' : Opened fs' d' fp' cs') (hopen : fp'.toFilOpen = (fps i).toFilOpen)
    (herr : fp'.err = (fps i).err) :
    FilesOn t fs' d' (Function.update fps i fp') (Function.update css i cs') := by
  have hclst : fs'.Clst = fs.Clst := congrArg Geometry.Clst hstep.geometry
  constructor
  case sound => exact hs'
  case fsinfo =>
    rw [hstep.geometry]
    exact h.fsinfo
  case opened =>
    intro j
    by_cases hj : j = i
    · subst hj
      rw [Function.update_self, Function.update_self]
      exact ho'
    · rw [Function.update_of_ne hj, Function.update_of_ne hj]
      exact (hstep.others j hj).1
  case usable =>
    intro j
    have hid := hstep.id
    by_cases hj : j = i
    · subst hj
      have hu := h.usable j
      rw [Function.update_self]
      refine ⟨(congrArg FilOpen.hasFs hopen).trans hu.hasFs, ?_, herr.trans hu.err⟩
      rw [hid, ← hu.id]
      exact congrArg FilOpen.id hopen
    · have hu := h.usable j
      rw [Function.update_of_ne hj]
      exact ⟨hu.hasFs, hu.id.trans hid.symm, hu.err⟩
  -- clusters that are new were free, so they belong to no other file
  case apart =>
    intro j k hne c hc
    by_cases hj : j = i
    · subst hj
      rw [Function.update_self] at hc
      rw [Function.update_of_ne hne.symm]
      exact fun hk => h.fresh_apart hne.symm hstep.fresh hk hc
    · rw [Function.update_of_ne hj] at hc
      by_cases hk : k = i
      · subst hk
        rw [Function.update_self]
        exact h.fresh_apart hne hstep.fresh hc
      · rw [Function.update_of_ne hk]
        exact h.apart j k hne c hc
  -- the entry of a file lies in clusters in use that no file has, hence untouched
  case homed =>
    intro j
    have hfo : (Function.update fps i fp' j).toFilOpen = (fps j).toFilOpen := by
      by_cases hj : j = i
      · subst hj
        rw [Function.update_self]
        exact hopen
      · rw [Function.update_of_ne hj]
    have hold := h.homed j
    rw [hfo]
    refine ⟨hold.inside, ?_, hold.valid, ?_⟩
    · rw [hstep.geometry]
      exact hold.behind
    · rcases hold.home with hlt | ⟨c, hc, hused, hout, hin⟩
      · rw [hstep.geometry]
        exact .inl hlt
      · refine .inr ⟨c, by rwa [hclst], ?_, ?_, ?_⟩
        · rw [hstep.entries c hc (hout i) hused]
          exact hused
        · intro k
          by_cases hk : k = i
          · subst hk
            rw [Function.update_self]
            intro hnew
            rcases hstep.fresh c hnew with hmem | hzero
            · exact hout k hmem
            · exact hused hzero
          · rw [Function.update_of_ne hk]
            exact hout k
        · rw [hstep.geometry]
          exact hin

/-! ### The level of `FatFs.Volume` -/

/-- The file object `a` of `FatFs.Volume` that `fp` is. -/
structure Models (v : FatFs.Volume) (fs : Fatfs) (d : Image) (fp : Fil) (cs : List Nat)
    (a : FatFs.Fil) : Prop where
  valid : a.valid v = true
  faRead : a.faRead = fp.faRead
  faWrite : a.faWrite = fp.faWrite
  faModified : a.faModified = fp.faModified
  fptr : a.fptr = fp.fptr.toNat
  data : a.data = fp.content fs d cs

/-- The result codes that are left on a drive that does not fail. -/
inductive Agrees : FResult → FatFs.FResult → Prop
  | ok : Agrees .ok .ok
  | denied : Agrees .denied .denied

/-- A seek. A file that is open for writing may grow at its end, by any bytes. -/
def SeeksTo (v : FatFs.Volume) (full : Prop) (ofs : Nat) (a a' : FatFs.Fil) : Prop :=
  a.faWrite = false ∧ FatFs.fLseek v a ofs = (.ok, a') ∨
  a.faWrite = true ∧ ∃ more : List UInt8, a' = { a with
      fptr := a'.fptr, data := a.data ++ more, faModified := a.faModified || !more.isEmpty } ∧
    a'.data.length = max a.data.length a'.fptr ∧ a'.fptr ≤ ofs ∧ (a'.fptr < ofs → full)

/-- A call at the level of the volume, where the disk is `full` or not. -/
def Does (v : FatFs.Volume) (full : Prop) : FileCall → FatFs.Fil → Reply → FatFs.Fil → Prop
  | .read buff btr, a, .read res br buff', a' =>
    ∃ res' bytes, FatFs.fRead v a btr.toNat = (res', bytes, a') ∧ Agrees res res' ∧
      br.toNat = bytes.length ∧ buff' = Blocks.store buff 0 bytes
  | .write buff btw, a, .write res bw, a' =>
    ∃ res' left, FatFs.fWrite v a (Blocks.slice buff 0 btw.toNat) left =
        (res', bw.toNat, a') ∧ Agrees res res' ∧
      (res = .ok → bw.toNat < btw.toNat → a'.fptr = 2 ^ 32 - 1 ∨ full)
  | .lseek ofs, a, .lseek res, a' => res = .ok ∧ SeeksTo v full ofs.toNat a a'
  | .sync _, a, .sync res, a' => res = .ok ∧ (FatFs.fSync v a).1 = .ok ∧ a' = (FatFs.fSync v a).2.1
  | _, _, _, _ => False

/-- A disk that is full stays full. -/
theorem Does.mono {v : FatFs.Volume} {full full' : Prop} (hfull : full → full') {c : FileCall}
    {a a' : FatFs.Fil} {r : Reply} (h : Does v full c a r a') : Does v full' c a r a' := by
  cases c <;> cases r
  case write.write =>
    obtain ⟨res', left, hcall, hres, hlack⟩ := h
    exact ⟨res', left, hcall, hres, fun hok hlt => (hlack hok hlt).imp_right hfull⟩
  case lseek.lseek =>
    obtain ⟨hok, hseek⟩ := h
    refine ⟨hok, ?_⟩
    rcases hseek with hread | ⟨hwrite, more, hobj, hlen, hle, hlack⟩
    · exact .inl hread
    · exact .inr ⟨hwrite, more, hobj, hlen, hle, fun hlt => hfull (hlack hlt)⟩
  all_goals exact h

/-- What a call on file `i` comes to. -/
def Called (v : FatFs.Volume) (t : FatType) (fs : Fatfs) (d : Image) (fps : ι → Fil)
    (css : ι → List Nat) (i : ι) (c : FileCall) (a : FatFs.Fil) (r : Reply × Fil × Fatfs)
    (d' : Image) : Prop :=
  ∃ (cs' : List Nat) (a' : FatFs.Fil), Stepped fs d fps css i r.2.2 d' cs' ∧
    FilesOn t r.2.2 d' (Function.update fps i r.2.1) (Function.update css i cs') ∧
    Models v r.2.2 d' r.2.1 cs' a' ∧ Does v (r.2.2.freeClusters d' = 0) c a r.1 a' ∧
    r.2.2.freeClusters d' ≤ fs.freeClusters d

section Call
variable {v : FatFs.Volume} {i : ι} {a : FatFs.Fil}

/-- A file holds as many bytes as its size says. -/
theorem length_content (fp : Fil) (fs : Fatfs) (d : Image) (cs : List Nat) :
    (fp.content fs d cs).length = fp.objsize.toNat := Blocks.length_slice _ _ _

/-- A call that is refused changes nothing. -/
theorem FilesOn.refused (h : FilesOn t fs d fps css) (hm : Models v fs d (fps i) (css i) a)
    {c : FileCall} {r : Reply} (hdoes : Does v (fs.freeClusters d = 0) c a r a) :
    Called v t fs d fps css i c a (r, fps i, fs) d := by
  have hstep := h.stepped_of_frame (Frame.refl h.sound.coherent (h.clst i))
  exact ⟨css i, a, hstep, h.step hstep h.sound (h.opened i) rfl rfl, hm, hdoes, Nat.le_refl _⟩

/-- A read. It returns the bytes that the list has behind the file pointer, or `FR_DENIED` if the
file is not open for reading. -/
theorem FilesOn.read (h : FilesOn t fs d fps css) (hm : Models v fs d (fps i) (css i) a)
    (buff : Buf) (btr : UInt32) :
    Ends (· = .done) (callFile fs (fps i) (.read buff btr))
      (Called v t fs d fps css i (.read buff btr) a) d := by
  by_cases hread : (fps i).faRead = true
  · refine always_seq (keeps_fRead h.sound (h.opened i) (h.usable i) hread buff btr) ?_
    rintro ⟨res, br, buff', fp', fs'⟩ d' ⟨hframe, ⟨rfl, hbr, hbuff, hr⟩ | ⟨-, hfail⟩⟩
    · dsimp only at hframe hbr hbuff hr ⊢
      have hstep := h.stepped_of_frame hframe
      have hcontent : fp'.content fs' d' (css i) = (fps i).content fs d (css i) :=
        content_congr (h.opened i) (congrArg FilInfo.objsize hr.info) hr.mem
      have hbytes : br.toNat = (((fps i).content fs d (css i)).drop (fps i).fptr.toNat
          |>.take btr.toNat).length := by
        rw [hbr, List.length_take, List.length_drop, length_content]
      refine ⟨css i, { a with fptr := fp'.fptr.toNat }, hstep,
        h.step hstep hr.sound hr.opened hr.toOpen (congrArg FilInfo.err hr.info),
        ⟨hm.valid, hm.faRead.trans (congrArg FilOpen.faRead hr.toOpen).symm,
          hm.faWrite.trans (congrArg FilOpen.faWrite hr.toOpen).symm,
          hm.faModified.trans (congrArg FilInfo.faModified hr.info).symm, rfl,
          hm.data.trans hcontent.symm⟩, ?_, hr.count.le⟩
      refine ⟨.ok, _, ?_, .ok, hbytes, hbuff⟩
      unfold FatFs.fRead
      rw [if_pos hm.valid, if_pos (hm.faRead.trans hread), hm.data, hm.fptr, hr.fptr, hbytes]
    · exact absurd hfail not_mayFail
  · refine always_seq (denied_fRead h.sound.wellFormed (h.usable i) hread buff btr) ?_
    rintro r d' ⟨rfl, rfl | ⟨-, hfail⟩⟩
    · refine h.refused hm ⟨.denied, [], ?_, .denied, rfl, (Blocks.store_nil _ _).symm⟩
      unfold FatFs.fRead
      rw [if_pos hm.valid, if_neg (by rwa [hm.faRead])]
    · exact absurd hfail not_mayFail

/-- A file that fills the clusters that are left. -/
theorem full_of_room {cs : List Nat} {fp : Fil} (hw : fs.WellFormed t) (ho : Opened fs d fp cs)
    (h : room fs d cs ≤ fp.objsize.toNat) : fs.freeClusters d = 0 := by
  have hsize := ho.size
  have hpos := hw.bcs_pos
  unfold room at h
  rw [Nat.add_mul] at h
  have hzero : fs.freeClusters d * fs.bcs = 0 := by omega
  exact (Nat.mul_eq_zero.1 hzero).resolve_right (Nat.ne_of_gt hpos)

/-- A write. It returns the count of the list model, with the number of bytes that the volume has
room for. A file that is not open for writing is refused. -/
theorem FilesOn.write (h : FilesOn t fs d fps css) (hm : Models v fs d (fps i) (css i) a)
    (buff : Buf) (btw : UInt32) :
    Ends (· = .done) (callFile fs (fps i) (.write buff btw))
      (Called v t fs d fps css i (.write buff btw) a) d := by
  -- a file without write access is refused by both
  by_cases hwrite : (fps i).faWrite = true
  · refine always_seq (keeps_fWrite h.sound (h.opened i) (h.usable i) hwrite buff btw) ?_
    rintro ⟨res, bw, fp', fs'⟩ d' (⟨cs', rfl, hbw, hmod, hon⟩ | ⟨-, hfail, -⟩)
    · -- the bytes that went in are the same on both sides
      dsimp only at hbw hmod hon ⊢
      have hstep := h.stepped_of_frame hon.frame
      have hcontent := hon.content (h.opened i)
      have hlen : (Blocks.slice buff 0 bw.toNat).length = bw.toNat := Blocks.length_slice _ _ _
      have hfptr := hon.fptr
      have hsize := hon.objsize
      have hcount := hon.count
      have hlonger := (List.subperm_of_subset (h.opened i).chain.nodup hon.frame.grows).length_le
      rw [hlen] at hfptr hsize hcontent
      have hfree : fs'.freeClusters d' ≤ fs.freeClusters d := by omega
      have htake : (Blocks.slice buff 0 btw.toNat).take bw.toNat =
          Blocks.slice buff 0 bw.toNat := by
        rw [Blocks.take_slice, Nat.min_eq_left (by omega)]
      refine ⟨cs', { a with
          fptr := fp'.fptr.toNat, data := fp'.content fs' d' cs', faModified := true }, hstep,
        h.step hstep hon.sound hon.opened hon.toOpen hon.err,
        ⟨hm.valid, hm.faRead.trans (congrArg FilOpen.faRead hon.toOpen).symm,
          hm.faWrite.trans (congrArg FilOpen.faWrite hon.toOpen).symm, hmod.symm, rfl, rfl⟩,
        ?_, hfree⟩
      refine ⟨.ok, bw.toNat, ?_, .ok, ?_⟩
      · unfold FatFs.fWrite
        rw [if_pos hm.valid, if_pos (hm.faWrite.trans hwrite), htake]
        dsimp only
        rw [hlen, hm.data, hm.fptr, hcontent, hfptr]
      · -- fewer bytes than asked for: the largest size, or no cluster free
        intro _ hlt
        dsimp only
        by_cases htop : fp'.fptr.toNat = 2 ^ 32 - 1
        · exact .inl htop
        · refine .inr (full_of_room hon.sound.wellFormed hon.opened ?_)
          have htop' := fp'.fptr.toNat_lt
          have hroom := hon.room_eq
          omega
    · exact absurd hfail not_mayFail
  · refine always_seq (denied_fWrite h.sound.wellFormed (h.usable i) hwrite buff btw) ?_
    rintro r d' ⟨rfl, rfl | ⟨-, hfail⟩⟩
    · refine h.refused hm ⟨.denied, 0, ?_, .denied, fun hok => FResult.noConfusion hok⟩
      unfold FatFs.fWrite
      rw [if_pos hm.valid, if_neg (by rwa [hm.faWrite])]
      rfl
    · exact absurd hfail not_mayFail

/-- A seek. What a file that is open for writing gets by growing is unknown, and so is this part of
the list. -/
theorem FilesOn.lseek (h : FilesOn t fs d fps css) (hm : Models v fs d (fps i) (css i) a)
    (ofs : UInt32) :
    Ends (· = .done) (callFile fs (fps i) (.lseek ofs))
      (Called v t fs d fps css i (.lseek ofs) a) d := by
  have ho := h.opened i
  refine always_seq (keeps_fLseek h.sound ho (h.usable i) ofs) ?_
  rintro ⟨res, fp', fs'⟩ d' (⟨cs', rfl, hptr, hon⟩ | ⟨-, hfail, -⟩)
  · dsimp only at hptr hon ⊢
    have hstep := h.stepped_of_frame hon.frame
    have hprefix := hon.content ho
    have hsize := hon.objsize
    have hcount := hon.count
    have hlonger := (List.subperm_of_subset ho.chain.nodup hon.frame.grows).length_le
    have hfree : fs'.freeClusters d' ≤ fs.freeClusters d := by omega
    have hread : fp'.faRead = (fps i).faRead := congrArg FilOpen.faRead hon.toOpen
    have hwrite : fp'.faWrite = (fps i).faWrite := congrArg FilOpen.faWrite hon.toOpen
    -- the bytes behind the old end
    have hsplit : fp'.content fs' d' cs' = (fps i).content fs d (css i) ++
        (fp'.content fs' d' cs').drop (fps i).objsize.toNat := by
      rw [← hprefix, List.take_append_drop]
    have hlenmore : ((fp'.content fs' d' cs').drop (fps i).objsize.toNat).length =
        fp'.objsize.toNat - (fps i).objsize.toNat := by
      rw [List.length_drop, length_content]
    generalize hmore : (fp'.content fs' d' cs').drop (fps i).objsize.toNat = more at hsplit hlenmore
    have hempty : (!more.isEmpty) = decide ((fps i).objsize < fp'.fptr) := by
      rw [Bool.eq_iff_iff, decide_eq_true_iff, UInt32.lt_iff_toNat_lt, Bool.not_eq_true',
        ← Bool.not_eq_true, List.isEmpty_iff_length_eq_zero]
      omega
    have hmod : fp'.faModified = (a.faModified || !more.isEmpty) := by
      rw [hon.modified, hempty, hm.faModified]
    refine ⟨cs', { a with
        fptr := fp'.fptr.toNat, data := a.data ++ more
        faModified := a.faModified || !more.isEmpty },
      hstep, h.step hstep hon.sound hon.opened hon.toOpen hon.err,
      ⟨hm.valid, hm.faRead.trans hread.symm, hm.faWrite.trans hwrite.symm, hmod.symm, rfl, ?_⟩,
      ⟨rfl, ?_⟩, hfree⟩
    · rw [hm.data, hsplit]
    · by_cases hw : (fps i).faWrite = true
      · rw [if_pos hw] at hptr
        refine .inr ⟨hm.faWrite.trans hw, more, rfl, ?_, ?_, ?_⟩
        · dsimp only
          rw [List.length_append, hlenmore, hm.data, length_content]
          omega
        · dsimp only
          omega
        · dsimp only
          intro hlt
          refine full_of_room hon.sound.wellFormed hon.opened ?_
          have hroom : room fs' d' cs' = room fs d (css i) := by
            unfold room
            rw [hcount, hon.frame.geometry]
          omega
      · rw [if_neg hw] at hptr
        have hnil : more = [] := List.length_eq_zero_iff.1 (by omega)
        refine .inl ⟨hm.faWrite.trans (by simpa using hw), ?_⟩
        unfold FatFs.fLseek
        rw [if_pos hm.valid, hm.data, length_content, hptr, hnil]
        simp
  · exact absurd hfail not_mayFail

/-- A sync. The bytes of the file do not change. A file that was not modified is not written. -/
theorem FilesOn.sync (h : FilesOn t fs d fps css) (hm : Models v fs d (fps i) (css i) a)
    (tm : UInt32) :
    Ends (· = .done) (callFile fs (fps i) (.sync tm))
      (Called v t fs d fps css i (.sync tm) a) d := by
  have hw := h.sound.wellFormed
  by_cases hmod : (fps i).faModified = true
  · have he := (h.homed i).placed h.clst i
    refine always_seq (keeps_fSync h.sound (h.opened i) (h.usable i) he h.fsinfo hmod) ?_
    rintro ⟨res, fp', fs'⟩ d' ⟨hframe, ⟨rfl, hfp', -, ho', hcontent, -⟩ | ⟨-, hfail⟩⟩
    · dsimp only at hframe hfp' ho' hcontent ⊢
      have hstep := h.stepped_of_sync hframe
      have hs' := hframe.sound h.sound he (hframe.coherent.resolve_right not_mayFail)
      subst hfp'
      have hfree : fs'.freeClusters d' = fs.freeClusters d := by
        unfold Fatfs.freeClusters
        rw [congrArg Geometry.nFatent hframe.geometry]
        exact freeCount_congr fun c _ hlt => by rw [hframe.fat hw he hlt]
      refine ⟨css i, { a with faModified := false }, hstep, h.step hstep hs' ho' rfl rfl,
        ⟨hm.valid, hm.faRead, hm.faWrite, rfl, hm.fptr, hm.data.trans hcontent.symm⟩,
        ⟨rfl, ?_⟩, hfree.le⟩
      unfold FatFs.fSync
      rw [if_pos hm.valid, if_pos (hm.faModified.trans hmod)]
      exact ⟨rfl, rfl⟩
    · exact absurd hfail not_mayFail
  · -- nothing to write
    have hsame : Ends (· = .done) (fSync fs (fps i) tm)
        (fun r d' => d' = d ∧ r = (.ok, fps i, fs)) d := by
      unfold fSync
      refine always_seq (keeps_validate hw (h.usable i)) ?_
      rintro res d' ⟨rfl, rfl | ⟨-, hfail⟩⟩
      · rw [if_neg (by decide), if_neg hmod]
        exact ⟨rfl, rfl⟩
      · exact absurd hfail not_mayFail
    refine always_seq hsame ?_
    rintro r d' ⟨rfl, rfl⟩
    refine h.refused hm ⟨rfl, ?_⟩
    unfold FatFs.fSync
    rw [if_pos hm.valid, if_neg (by rwa [hm.faModified])]
    exact ⟨rfl, rfl⟩

/-- A call on one of the files. -/
theorem keeps_callFile (h : FilesOn t fs d fps css) (hm : Models v fs d (fps i) (css i) a)
    (c : FileCall) :
    Ends (· = .done) (callFile fs (fps i) c) (Called v t fs d fps css i c a) d := by
  cases c with
  | read buff btr => exact h.read hm buff btr
  | write buff btw => exact h.write hm buff btw
  | lseek ofs => exact h.lseek hm ofs
  | sync tm => exact h.sync hm tm

end Call

/-! ### Runs -/

/-- The calls of a run at the level of the volume. Each one is about its own file. -/
inductive DoesAll (v : FatFs.Volume) (full : Prop) :
    List (ι × FileCall) → (ι → FatFs.Fil) → List Reply → (ι → FatFs.Fil) → Prop
  | nil {as : ι → FatFs.Fil} : DoesAll v full [] as [] as
  | cons {i : ι} {c : FileCall} {calls : List (ι × FileCall)} {as as' : ι → FatFs.Fil}
      {a : FatFs.Fil} {r : Reply} {rs : List Reply} (hcall : Does v full c (as i) r a)
      (hrest : DoesAll v full calls (Function.update as i a) rs as') :
      DoesAll v full ((i, c) :: calls) as (r :: rs) as'

/-- A run of calls on the files, in any order. By induction on the calls. Behind each of them the
state between the calls holds again, with the file that was called in its new chain and the others
in their old ones. -/
theorem keeps_callFiles {v : FatFs.Volume} {as : ι → FatFs.Fil} (calls : List (ι × FileCall))
    (h : FilesOn t fs d fps css) (hm : ∀ i, Models v fs d (fps i) (css i) (as i)) :
    Ends (· = .done) (callFiles calls fs fps) (fun r d' =>
      ∃ (css' : ι → List Nat) (as' : ι → FatFs.Fil), FilesOn t r.2.1 d' r.2.2 css' ∧
        (∀ i, Models v r.2.1 d' (r.2.2 i) (css' i) (as' i)) ∧
        DoesAll v (r.2.1.freeClusters d' = 0) calls as r.1 as' ∧
        r.2.1.freeClusters d' ≤ fs.freeClusters d) d := by
  induction calls generalizing fs d fps css as with
  | nil => exact ⟨css, as, h, hm, .nil, Nat.le_refl _⟩
  | cons call calls ih =>
    obtain ⟨i, c⟩ := call
    refine always_seq (keeps_callFile h (hm i) c) ?_
    rintro ⟨r, fp', fs1⟩ d1 ⟨cs', a', hstep, h1, hm1, hdoes, hfree⟩
    dsimp only at hstep h1 hm1 hdoes hfree ⊢
    -- the other files are as they were
    have hall : ∀ j, Models v fs1 d1 (Function.update fps i fp' j) (Function.update css i cs' j)
        (Function.update as i a' j) := by
      intro j
      by_cases hj : j = i
      · subst hj
        rw [Function.update_self, Function.update_self, Function.update_self]
        exact hm1
      · have hold := hm j
        rw [Function.update_of_ne hj, Function.update_of_ne hj, Function.update_of_ne hj]
        exact ⟨hold.valid, hold.faRead, hold.faWrite, hold.faModified, hold.fptr,
          hold.data.trans (hstep.others j hj).2.symm⟩
    refine always_seq (ih h1 hall) ?_
    rintro ⟨rs, fs2, fps2⟩ d2 ⟨css2, as2, h2, hm2, hrun, hfree2⟩
    refine ⟨css2, as2, h2, hm2, .cons (hdoes.mono fun hzero => ?_) hrun, hfree2.trans hfree⟩
    dsimp only at hfree2 ⊢
    omega

/-- The calls on file `i` with what they returned. -/
def repliesTo (i : ι) : List (ι × FileCall) → List Reply → List (FileCall × Reply)
  | (j, c) :: calls, r :: rs =>
    if j = i then (c, r) :: repliesTo i calls rs else repliesTo i calls rs
  | _, _ => []

/-- The calls on one file. -/
inductive DoesRun (v : FatFs.Volume) (full : Prop) :
    List (FileCall × Reply) → FatFs.Fil → FatFs.Fil → Prop
  | nil {a : FatFs.Fil} : DoesRun v full [] a a
  | cons {c : FileCall} {r : Reply} {run : List (FileCall × Reply)} {a a' a'' : FatFs.Fil}
      (hcall : Does v full c a r a') (hrest : DoesRun v full run a' a'') :
      DoesRun v full ((c, r) :: run) a a''

/-- Of a run, each file sees its own calls. -/
theorem DoesAll.alone {v : FatFs.Volume} {full : Prop} {calls : List (ι × FileCall)}
    {as as' : ι → FatFs.Fil} {rs : List Reply} (h : DoesAll v full calls as rs as') (i : ι) :
    DoesRun v full (repliesTo i calls rs) (as i) (as' i) := by
  induction h with
  | nil => exact .nil
  | @cons j c calls as as' a r rs hcall hrest ih =>
    rw [repliesTo]
    by_cases hj : j = i
    · subst hj
      rw [if_pos rfl]
      rw [Function.update_self] at ih
      exact .cons hcall ih
    · rw [if_neg hj]
      rwa [Function.update_of_ne fun h => hj h.symm] at ih

/-- Several files are open, and the calls on them come in any order. Each file returns what it
returns when its own calls run alone on the list of bytes that it holds, although all share the
window, the FAT and the free clusters. -/
theorem callFiles_refines {v : FatFs.Volume} {as : ι → FatFs.Fil} (calls : List (ι × FileCall))
    (h : FilesOn t fs d fps css) (hm : ∀ i, Models v fs d (fps i) (css i) (as i)) :
    Ends (· = .done) (callFiles calls fs fps) (fun r d' =>
      ∃ (css' : ι → List Nat) (as' : ι → FatFs.Fil), FilesOn t r.2.1 d' r.2.2 css' ∧ ∀ i,
        Models v r.2.1 d' (r.2.2 i) (css' i) (as' i) ∧
        DoesRun v (r.2.1.freeClusters d' = 0) (repliesTo i calls r.1) (as i) (as' i)) d := by
  refine always_mono ?_ (keeps_callFiles calls h hm)
  rintro ⟨rs, fs', fps'⟩ d' ⟨css', as', hon, hmodels, hrun, -⟩
  exact ⟨css', as', hon, fun i => ⟨hmodels i, hrun.alone i⟩⟩

/-- A second file, which is empty. -/
def smallEmpty : Fil := { smallFil with dirPtr := 32, sclust := 0, objsize := 0 }

/-- The two files. -/
def smallFps (i : Bool) : Fil := if i then smallFil else smallEmpty

def smallCss (i : Bool) : List Nat := if i then [2] else []

/-- The volume at the level of `FatFs.Volume`. -/
def smallVolume : FatFs.Volume where
  fatFs := some .filesystem
  obj := fun _ => ⟨1, 1⟩
  fsid := 1
  fmt := 1
  files := fun _ => none
  follow := fun _ => .origin
  nodes := fun _ => none

/-- What the files are there. -/
def smallObj (i : Bool) : FatFs.Fil :=
  { FatFs.Fil.null with
    fs := some .filesystem
    id := 1
    faRead := true
    faWrite := true
    faModified := true
    data := (smallFps i).content smallFs smallDisk (smallCss i) }

/-- An empty file has no cluster. -/
theorem small_opened_empty : Opened smallFs smallDisk smallEmpty [] where
  chain := ⟨trivial, fun _ hc => absurd hc List.not_mem_nil⟩
  head := rfl
  size := Nat.zero_le _
  ptr := Nat.le_refl 0
  clust := fun h => absurd h (Nat.lt_irrefl 0)
  sect := fun h => absurd rfl h
  shown := .inl (by decide)
  dirty := fun h => Bool.noConfusion h
  holds := by
    rintro ⟨c, hc, -⟩
    exact absurd hc List.not_mem_nil
  away := by
    rintro ⟨c, hc, -⟩
    exact absurd hc List.not_mem_nil

/-- Two files on the small volume, one of them empty. -/
theorem small_filesOn : FilesOn .fat12 smallFs smallDisk smallFps smallCss where
  sound := small_sound
  fsinfo := small_fsinfoPlaced
  opened := by
    rintro (_ | _)
    · exact small_opened_empty
    · exact small_opened
  usable := by
    rintro (_ | _)
    · exact ⟨rfl, rfl, rfl⟩
    · exact small_usable
  apart := by decide
  homed := by
    rintro (_ | _)
    · exact ⟨by decide, by decide, by decide, .inl (by decide)⟩
    · exact ⟨by decide, by decide, by decide, .inl (by decide)⟩

/-- Five calls on these files, in turn, on a drive that does not fail. -/
theorem callFiles_small :
    Ends (· = .done)
      (callFiles [(true, .write (fun _ => 7) 5000), (false, .write (fun _ => 8) 3000),
        (true, .lseek 0), (false, .sync 1), (true, .read (fun _ => 0) 5000)] smallFs smallFps)
      (fun r d' => ∃ (css' : Bool → List Nat) (as' : Bool → FatFs.Fil),
        FilesOn .fat12 r.2.1 d' r.2.2 css' ∧ ∀ i,
          Models smallVolume r.2.1 d' (r.2.2 i) (css' i) (as' i) ∧
          DoesRun smallVolume (r.2.1.freeClusters d' = 0)
            (repliesTo i [(true, .write (fun _ => 7) 5000), (false, .write (fun _ => 8) 3000),
              (true, .lseek 0), (false, .sync 1), (true, .read (fun _ => 0) 5000)] r.1)
            (smallObj i) (as' i)) smallDisk := by
  refine callFiles_refines _ small_filesOn ?_
  rintro (_ | _)
  · exact ⟨rfl, rfl, rfl, rfl, rfl, rfl⟩
  · exact ⟨rfl, rfl, rfl, rfl, rfl, rfl⟩

end NucleoH743.Ff
