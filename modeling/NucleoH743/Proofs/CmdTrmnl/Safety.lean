import NucleoH743.CmdTrmnl.Variables
import NucleoH743.Proofs.CmdTrmnl.History

/-!
# `Proofs.CmdTrmnl.Safety`: the terminal stays within its arrays

`Raw.terminalDataProcessing` works on bytes and unbounded arrays, `terminalDataProcessing` on
indices that cannot leave theirs.

The proof goes along the functions of the code. For each of them there is a lemma that it keeps the
relation and that its accesses are in bounds; where the typed function has an index with a proof,
the function on bytes has a comparison, and `toNat_succ` is what shows that the next index is still
the same number. Two facts are not about indices: the buffer has a NUL whenever it is used as a
string (`Terminated`), and the current command is in the table whenever a handler is called or a
type is looked up (`Registered`).

- `safe_run`: after every stream of bytes the two hold the same, so what is proved of the second
  holds of the first.
- `accesses_inBounds`: every access of the first was within its array, every string ended within
  the buffer, and every handler called was that of a registered command.

The index of a parameter and of a character are bounded in each state by themselves. That of
the command is not: it is below the number of commands between the lookup and the call, and the
status tells. `Safe` has what each state of the machine knows.
-/

set_option autoImplicit false

namespace NucleoH743.CmdTrmnl

open EventRun
open Raw (InBounds)

variable {c : Console} {m : Raw.Terminal} {t : Terminal}

/-! ### The relation -/

/-- `data_prm_cmd` has a NUL. -/
def Terminated (t : Terminal) : Prop := ∃ j, t.dataPrmCmd j = 0

/-- The current command is in the table. -/
def Registered (c : Console) (t : Terminal) : Prop :=
  ∃ i, t.indexCmd = some i ∧ i < c.table.cmds.length

/-- The terminal of bytes holds what the typed one holds, and all its accesses were in bounds. -/
structure Refines (c : Console) (m : Raw.Terminal) (t : Terminal) : Prop where
  fsm : m.fsmDatPrc = t.fsmDatPrc
  indexDat : m.indexDat.toNat = t.indexDat.val
  indexParam : m.indexParam.toNat = t.indexParam.val
  indexCmd : t.indexCmd = if m.indexCmd = 255 then none else some m.indexCmd.toNat
  numCmdParam : m.numCmdParam.toNat = t.numCmdParam
  status : m.statusCmdParam = t.statusCmdParam
  byte : ∀ j : Fin maxSizeData, m.dataPrmCmd j = t.dataPrmCmd j
  prm : ∀ i : Fin maxParam, m.arPrm i = t.arPrm i
  /-- nothing was stored behind the union of a parameter -/
  union : ∀ (i : Fin maxParam) (j : Nat), maxSizeData ≤ j → (t.arPrm i).raw j = 0
  output : m.output = t.output
  inBounds : ∀ a ∈ m.accesses, InBounds c a

/-- What holds between two bytes. -/
structure Safe (c : Console) (m : Raw.Terminal) (t : Terminal) : Prop extends Refines c m t where
  registered : t.fsmDatPrc = .findPrm ∨ t.fsmDatPrc = .prcPrm → Registered c t
  terminated : t.fsmDatPrc = .findPrm → Terminated t

/-- The increments of the code do not overflow. -/
theorem toNat_succ {i : UInt8} (h : i.toNat < 255) : (i + 1).toNat = i.toNat + 1 := by
  rw [UInt8.toNat_add]
  show (i.toNat + 1) % 256 = i.toNat + 1
  omega

/-- At power-up both terminals hold zeros, and nothing was accessed. -/
theorem safe_init (c : Console) : Safe c Raw.Terminal.init Terminal.init where
  fsm := rfl
  indexDat := rfl
  indexParam := rfl
  indexCmd := rfl
  numCmdParam := rfl
  status := rfl
  byte _ := rfl
  prm _ := rfl
  union _ _ _ := rfl
  output := rfl
  inBounds _ h := nomatch h
  registered h := by simp [Terminal.init] at h
  terminated h := by simp [Terminal.init] at h

/-! ### Accesses -/

section Note
variable (m : Raw.Terminal) (a : Raw.Access)

/-- The record of the accesses is no variable of the code: adding to it leaves `index_cmd` alone. -/
@[simp] theorem note_indexCmd : (m.note a).indexCmd = m.indexCmd := rfl

/-- It leaves `index_param` alone. -/
@[simp] theorem note_indexParam : (m.note a).indexParam = m.indexParam := rfl

/-- It leaves the parameters alone. -/
@[simp] theorem note_arPrm : (m.note a).arPrm = m.arPrm := rfl

/-- It leaves `data_prm_cmd` alone. -/
@[simp] theorem note_buf : (m.note a).buf = m.buf := rfl

/-- Reading the string in `data_prm_cmd` leaves `index_param` alone. -/
@[simp] theorem useString_indexParam : m.useString.indexParam = m.indexParam := rfl

/-- It leaves the parameters alone. -/
@[simp] theorem useString_arPrm : m.useString.arPrm = m.arPrm := rfl

/-- It leaves the buffer as it was. -/
@[simp] theorem useString_buf : m.useString.buf = m.buf := rfl

end Note

namespace Refines

/-- An access in bounds keeps the two terminals together. -/
theorem note (h : Refines c m t) {a : Raw.Access} (ha : InBounds c a) : Refines c (m.note a) t :=
  { h with
    inBounds := by
      intro b hb
      rcases List.mem_append.1 hb with hold | hnew
      · exact h.inBounds b hold
      · rw [List.mem_singleton.1 hnew]
        exact ha }

/-- Both terminals print the same. -/
theorem emit (h : Refines c m t) (o : Output) : Refines c (m.emit o) (t.emit o) :=
  { h with output := congrArg (· ++ [o]) h.output }

/-- Both store the same status. -/
theorem setStatus (h : Refines c m t) (status : StatCmd) :
    Refines c { m with statusCmdParam := status } { t with statusCmdParam := status } :=
  { h with status := rfl }

/-- The two buffers are equal as functions. -/
theorem buf (h : Refines c m t) : m.buf = t.dataPrmCmd := funext h.byte

/-- A string is used when it has an end. -/
theorem useString (h : Refines c m t) (hz : Terminated t) : Refines c m.useString t := by
  obtain ⟨j, hj⟩ := hz
  exact h.note ⟨j, j.isLt, (h.byte j).trans hj⟩

/-- A store at an index that the typed terminal has. -/
theorem store (h : Refines c m t) {i : UInt8} {k : Fin maxSizeData} (hk : i.toNat = k)
    (ch : UInt8) :
    Refines c (m.store i ch) { t with dataPrmCmd := Function.update t.dataPrmCmd k ch } :=
  { h.note (show InBounds c (.dataPrmCmd i.toNat) from hk ▸ k.isLt) with
    byte := by
      intro j
      show Function.update m.dataPrmCmd i.toNat ch j = Function.update t.dataPrmCmd k ch j
      by_cases hj : j = k
      · rw [hj, hk, Function.update_self, Function.update_self]
      · have hne : j.val ≠ i.toNat := fun heq => hj (Fin.ext (heq.trans hk))
        rw [Function.update_of_ne hne, Function.update_of_ne hj, h.byte j] }

/-- The NUL behind a word is stored at `index_dat`, which is inside the buffer. -/
theorem terminate (h : Refines c m t) : Refines c m.terminate t.terminate :=
  h.store h.indexDat 0

/-- `index_dat` stops at the last byte of the buffer. -/
theorem load (h : Refines c m t) (ch : UInt8) : Refines c (m.load ch) (t.load ch) :=
  { h.store h.indexDat ch with
    indexDat := by
      have hidx := h.indexDat
      have hlt := t.indexDat.isLt
      simp only [Raw.Terminal.load, Terminal.load]
      split
      · next hroom =>
        rw [hidx] at hroom
        rw [dif_pos hroom, toNat_succ (hidx ▸ Nat.lt_trans hroom (by decide)), hidx]
      · next hfull =>
        rw [hidx] at hfull
        rw [dif_neg hfull]
        exact hidx }

/-- The result of a conversion. It is stored at an index that a slot of the list has, so both models
have it at the same place. -/
theorem setPrm (h : Refines c m t) {i : UInt8} {k : Fin maxParam} (hk : i.toNat = k)
    (r : StatCmd × CmdParametr) (hr : ∀ j, maxSizeData ≤ j → r.2.raw j = 0) :
    Refines c
      { m with statusCmdParam := r.1, arPrm := Function.update m.arPrm i.toNat r.2 }
      { t with statusCmdParam := r.1, arPrm := Function.update t.arPrm k r.2 } :=
  { h with
    status := rfl
    prm := by
      intro j
      show Function.update m.arPrm i.toNat r.2 j = Function.update t.arPrm k r.2 j
      by_cases hj : j = k
      · rw [hj, hk, Function.update_self, Function.update_self]
      · have hne : j.val ≠ i.toNat := fun heq => hj (Fin.ext (heq.trans hk))
        rw [Function.update_of_ne hne, Function.update_of_ne hj, h.prm j]
    union := by
      intro i j hj
      show (Function.update t.arPrm k r.2 i).raw j = 0
      by_cases hi : i = k
      · rw [hi, Function.update_self]
        exact hr j hj
      · rw [Function.update_of_ne hi]
        exact h.union i j hj }

end Refines

/-! ### Stores in a parameter -/

section Union
variable (p : CmdParametr) {j : Nat}

/-- A store leaves the bytes behind it alone. -/
theorem store_raw {bytes : List UInt8} (h : bytes.length ≤ j) :
    (p.store bytes).raw j = p.raw j := by
  show bytes.getD j (p.raw j) = p.raw j
  rw [List.getD_eq_getElem?_getD, List.getElem?_eq_none h, Option.getD_none]

/-- A conversion to an unsigned type stores the bytes of the value and leaves those behind it
alone. -/
theorem convertUint_raw {n : Nat} (hn : n ≤ j) (str : List UInt8) :
    (convertUint n str p).2.raw j = p.raw j := by
  unfold convertUint
  cases sscanfLu str with
  | none => rfl
  | some v =>
    dsimp only
    split
    · exact store_raw p (by rwa [length_leBytes])
    · rfl

/-- So does one to a signed type. -/
theorem convertInt_raw {n : Nat} (hn : n ≤ j) (str : List UInt8) :
    (convertInt n str p).2.raw j = p.raw j := by
  unfold convertInt
  cases sscanfLi str with
  | none => rfl
  | some v =>
    dsimp only
    split
    · exact store_raw p (by rwa [length_leBytesInt])
    · rfl

/-- No conversion stores behind the `MAX_SIZE_DATA` bytes of the union. By the type: a number is
stored in the bytes of its width, a `double` in eight, and a string is copied up to the size of the
union. -/
theorem getParametrCmd_raw (c : Console) (buf : Fin maxSizeData → UInt8) (type : TypeCmdPrmtr)
    (hj : maxSizeData ≤ j) : (getParametrCmd c buf type p).2.raw j = p.raw j := by
  have hj' : 30 ≤ j := hj
  unfold getParametrCmd
  by_cases hempty : buf 0 = 0
  · rw [if_pos hempty]
  · simp only [if_neg hempty]
    cases type with
    | uint8 => exact convertUint_raw _ (by omega) _
    | uint16 => exact convertUint_raw _ (by omega) _
    | uint32 => exact convertUint_raw _ (by omega) _
    | int8 => exact convertInt_raw _ (by omega) _
    | int16 => exact convertInt_raw _ (by omega) _
    | int32 => exact convertInt_raw _ (by omega) _
    | double =>
      dsimp only
      cases c.sscanfLa (CStr.ofBuf buf) with
      | none => rfl
      | some bits => exact store_raw _ (by rw [length_leBytes]; omega)
    | char =>
      dsimp only
      split
      · exact store_raw _ (show 1 ≤ j by omega)
      · rfl
    | string =>
      refine store_raw _ ?_
      simp only [List.length_append, List.length_take, List.length_replicate,
        List.length_singleton, maxSizeData]
      omega
    | none | uint64 | int64 | float => rfl

end Union

/-! ### Lookups -/

/-- A search of the raw terminal ended as the typed one: in `some k` with the status that
`scan_cmd` stores, or in 255. -/
def Scanned (c : Console) (t : Terminal) (r : UInt8 × Raw.Terminal) : Option Nat → Prop
  | some k => r.1.toNat = k ∧ Refines c r.2 { t with statusCmdParam := .norm }
  | none => r.1 = 255 ∧ Refines c r.2 t

/-- The loop of `scan_cmd` over the commands behind `done`. The table is short enough for the
index to fit a byte, and for 255 to be no index. -/
theorem scanLoop_scanned (hz : Terminated t) {cmds : List Cmd} :
    ∀ (done : List Cmd) {i : UInt8} {m : Raw.Terminal}, c.table.cmds = done ++ cmds →
      i.toNat = done.length → Refines c m t →
      Scanned c t (Raw.scanLoop cmds i m)
        ((scanCmd (cmds.map Cmd.toCmdText) (CStr.ofBuf t.dataPrmCmd)).map (done.length + ·)) := by
  induction cmds with
  | nil =>
    intro done i m _ _ h
    exact ⟨rfl, h⟩
  | cons cmd cmds ih =>
    intro done i m htable hi h
    have hlen : done.length + (cmds.length + 1) = c.table.cmds.length := by
      rw [htable, List.length_append, List.length_cons]
    have hle : c.table.cmds.length ≤ 20 := c.table.le
    have hin : InBounds c (.arrayCmd i.toNat) := by
      show i.toNat < c.table.cmds.length
      omega
    have hread : Refines c (m.note (.arrayCmd i.toNat)).useString t := (h.note hin).useString hz
    simp only [Raw.scanLoop, scanCmd, List.map_cons, List.findIdx?_cons, hread.buf]
    by_cases hname : CStr.ofBuf t.dataPrmCmd = CStr.textBytes cmd.cmdName
    · rw [if_pos hname, if_pos (decide_eq_true hname)]
      exact ⟨hi, { hread with status := rfl }⟩
    · rw [if_neg hname, if_neg (by simpa using hname)]
      have hnext := ih (done ++ [cmd]) (i := i + 1) (by rw [htable]; simp)
        (by rw [toNat_succ (by omega), hi, List.length_append]; rfl) hread
      rw [Option.map_map]
      have hfun : ((done.length + ·) ∘ (· + 1) : Nat → Nat) = ((done ++ [cmd]).length + ·) := by
        funext k
        simp only [Function.comp_apply, List.length_append, List.length_singleton]
        omega
      rw [hfun]
      exact hnext

/-- `scan_cmd` finds the same command in both terminals, and reads the names of the table only. By
the scan through the table. -/
theorem scanCmd_scanned (h : Refines c m t) (hz : Terminated t) :
    Scanned c t (Raw.scanCmd c m)
      (scanCmd (c.table.cmds.map Cmd.toCmdText) (CStr.ofBuf t.dataPrmCmd)) := by
  have hloop := scanLoop_scanned hz [] (i := 0) rfl rfl h
  simp only [List.length_nil, Nat.zero_add, Option.map_id'] at hloop
  exact hloop

/-- The loop of `get_num_cmd_param` counts the types before the first `VR_NONE`. By induction on the
slots that are left. The loop reads a slot only below `MAX_PARAM`, so its access is in bounds. -/
theorem numLoop_refines {index : UInt8} (hindex : index.toNat < c.table.cmds.length) (cmd : Cmd) :
    ∀ (n : Nat) {i : UInt8} {m : Raw.Terminal}, i.toNat + n = maxParam → Refines c m t →
      (Raw.numLoop index cmd n i m).1.toNat = i.toNat +
        (((List.ofFn cmd.cmdTypeParametr).drop i.toNat).takeWhile (· ≠ .none)).length ∧
      Refines c (Raw.numLoop index cmd n i m).2 t := by
  intro n
  induction n with
  | zero =>
    intro i m hi h
    have hdrop : (List.ofFn cmd.cmdTypeParametr).drop i.toNat = [] :=
      List.drop_eq_nil_of_le (by rw [List.length_ofFn]; omega)
    rw [hdrop]
    exact ⟨rfl, h⟩
  | succ n ih =>
    intro i m hi h
    have hlt : i.toNat < maxParam := by omega
    have hread : Refines c (m.note (.cmdTypeParametr index.toNat i.toNat)) t :=
      h.note ⟨hindex, hlt⟩
    have hdrop : (List.ofFn cmd.cmdTypeParametr).drop i.toNat =
        cmd.cmdTypeParametr ⟨i.toNat, hlt⟩ ::
          (List.ofFn cmd.cmdTypeParametr).drop (i.toNat + 1) := by
      rw [List.drop_eq_getElem_cons (by rw [List.length_ofFn]; exact hlt), List.getElem_ofFn]
    have hsucc : (i + 1).toNat = i.toNat + 1 := toNat_succ (Nat.lt_trans hlt (by decide))
    simp only [Raw.numLoop, Raw.typeAt, dif_pos hlt, hdrop]
    by_cases hnone : cmd.cmdTypeParametr ⟨i.toNat, hlt⟩ = .none
    · rw [if_pos hnone, List.takeWhile_cons, if_neg (by simpa using hnone)]
      exact ⟨rfl, hread⟩
    · obtain ⟨hnum, href⟩ := ih (i := i + 1) (by omega) hread
      rw [if_neg hnone, List.takeWhile_cons, if_pos (by simpa using hnone), hnum, hsucc,
        List.length_cons]
      exact ⟨by omega, href⟩

/-- `get_num_cmd_param` of a command in the table. -/
theorem getNumCmdParam_refines (h : Refines c m t) {index : UInt8} {cmd : Cmd}
    (hcmd : c.table.cmds[index.toNat]? = some cmd) :
    (Raw.getNumCmdParam c m index).1.toNat = getNumCmdParam cmd ∧
      Refines c (Raw.getNumCmdParam c m index).2 t := by
  have hindex : index.toNat < c.table.cmds.length := (List.getElem?_eq_some_iff.1 hcmd).1
  have hread : Refines c (m.note (.arrayCmd index.toNat)) t := h.note hindex
  have hloop := numLoop_refines hindex cmd maxParam (i := 0) rfl hread
  simp only [Raw.getNumCmdParam, Raw.cmdAt, hcmd]
  simpa [getNumCmdParam] using hloop

/-- The end of the command word. What it finds is in the table. The buffer is terminated before it
is compared with the names, so the comparison reads inside it. -/
theorem lookupCmd_refines (h : Refines c m t) :
    Refines c (Raw.lookupCmd c m) (lookupCmd c t) := by
  have hterm : Refines c m.terminate t.terminate := h.terminate
  have hscan := scanCmd_scanned hterm ⟨t.indexDat, Function.update_self ..⟩
  generalize hr : Raw.scanCmd c m.terminate = r at hscan
  obtain ⟨i, m'⟩ := r
  simp only [Raw.lookupCmd, lookupCmd, hr]
  cases hfound : scanCmd (c.table.cmds.map Cmd.toCmdText) (CStr.ofBuf t.terminate.dataPrmCmd) with
  | none =>
    rw [hfound] at hscan
    obtain ⟨rfl, href⟩ := hscan
    rw [if_neg (not_not_intro rfl)]
    exact { href with indexCmd := rfl, numCmdParam := rfl }
  | some k =>
    rw [hfound] at hscan
    obtain ⟨rfl, href⟩ := hscan
    have hlt : i.toNat < c.table.cmds.length := by
      have hk := (List.findIdx?_eq_some_iff_findIdx_eq.1 hfound).1
      simpa using hk
    have hne : i ≠ 255 := by
      rintro rfl
      exact absurd (Nat.lt_of_lt_of_le hlt c.table.le) (by decide)
    have hcmd : c.table.cmds[i.toNat]? = some c.table.cmds[i.toNat] :=
      List.getElem?_eq_getElem hlt
    have hfind : Refines c { m' with indexCmd := i }
        { t.terminate with statusCmdParam := .norm, indexCmd := some i.toNat } :=
      { href with indexCmd := (if_neg hne).symm }
    obtain ⟨hnum, hdone⟩ := getNumCmdParam_refines hfind hcmd
    simp only [if_pos hne, hcmd]
    exact { hdone with numCmdParam := hnum }

/-- The index 255 stands for no command. -/
theorem Refines.indexCmd_eq (h : Refines c m t) : m.indexCmd = 255 ↔ t.indexCmd = none := by
  rw [h.indexCmd]
  by_cases h255 : m.indexCmd = 255 <;> simp [h255]

/-- Both terminals refuse a name that no command has. -/
theorem rejectUnknown_refines (h : Refines c m t) :
    Refines c (Raw.rejectUnknown m) (rejectUnknown t) := by
  unfold Raw.rejectUnknown rejectUnknown
  by_cases h255 : m.indexCmd = 255
  · rw [if_pos h255, if_pos (h.indexCmd_eq.1 h255)]
    exact { h with status := rfl }
  · rw [if_neg h255, if_neg (mt h.indexCmd_eq.2 h255)]
    exact h

/-- The index of a registered command, as the code has it. -/
theorem Refines.index (h : Refines c m t) (hreg : Registered c t) :
    m.indexCmd ≠ 255 ∧ t.indexCmd = some m.indexCmd.toNat ∧
      m.indexCmd.toNat < c.table.cmds.length := by
  obtain ⟨i, hi, hlt⟩ := hreg
  have hidx := h.indexCmd
  by_cases h255 : m.indexCmd = 255
  · rw [if_pos h255, hi] at hidx
    cases hidx
  · rw [if_neg h255] at hidx
    have heq : i = m.indexCmd.toNat := Option.some.inj (hi.symm.trans hidx)
    exact ⟨h255, hidx, heq ▸ hlt⟩

/-- The conversion of a parameter of a registered command. The type is read at the index of the
command and of the parameter, which are both in range for a registered one. -/
theorem procParametr_refines (h : Refines c m t) (hreg : Registered c t) (hz : Terminated t) :
    Refines c (Raw.procParametr c m) (procParametr c t) := by
  obtain ⟨hne, hidx, hlt⟩ := h.index hreg
  have hcmd : c.table.cmds[m.indexCmd.toNat]? = some c.table.cmds[m.indexCmd.toNat] :=
    List.getElem?_eq_getElem hlt
  have hparam : m.indexParam.toNat < maxParam := h.indexParam ▸ t.indexParam.isLt
  have hfin : (⟨m.indexParam.toNat, hparam⟩ : Fin maxParam) = t.indexParam := Fin.ext h.indexParam
  -- the accesses on the way to the conversion
  have hread : Refines c
      (((m.note (.arrayCmd m.indexCmd.toNat)).note
        (.cmdTypeParametr m.indexCmd.toNat m.indexParam.toNat)).note
          (.arPrm m.indexParam.toNat)).useString t := by
    have hentry := h.note (a := .arrayCmd _) hlt
    have htype := hentry.note (a := .cmdTypeParametr _ _) ⟨hlt, hparam⟩
    exact (htype.note (a := .arPrm _) hparam).useString hz
  have hprm : m.arPrm m.indexParam.toNat = t.arPrm t.indexParam := by
    rw [h.indexParam, h.prm]
  have hset := hread.setPrm h.indexParam (getParametrCmd c t.dataPrmCmd
    (c.table.cmds[m.indexCmd.toNat].cmdTypeParametr t.indexParam) (t.arPrm t.indexParam))
    fun j hj => (getParametrCmd_raw _ c _ _ hj).trans (h.union _ j hj)
  have hbuf : m.buf = t.dataPrmCmd := h.buf
  have hentry : t.cmd? c = some c.table.cmds[m.indexCmd.toNat] := by
    rw [Terminal.cmd?, hidx, Option.bind_some, hcmd]
  simp only [Raw.procParametr, procParametr, Raw.cmdAt, Raw.typeAt, if_pos hne,
    hentry, hcmd, note_indexCmd, note_indexParam, note_arPrm, useString_arPrm,
    useString_indexParam, useString_buf, note_buf, dif_pos hparam, hfin, hbuf, hprm]
  exact hset

/-! ### Commands -/

/-- What a handler reads. -/
theorem read_refines (hz : Terminated t) {m : Raw.Terminal} (r : Rd) (h : Refines c m t) :
    (Raw.read c r m).1 = t.read c r ∧ Refines c (Raw.read c r m).2 t := by
  cases r with
  | raw i j => exact ⟨congrArg (·.raw j) (h.prm i), h.note (a := .arPrm i) i.isLt⟩
  | flagDef i => exact ⟨congrArg (·.flagDef) (h.prm i), h.note (a := .arPrm i) i.isLt⟩
  | dataPrmCmd => exact ⟨congrArg CStr.ofBuf h.buf, h.useString hz⟩
  | arrayCmd => exact ⟨rfl, h⟩

/-- Back to the search for a line: the state alone changes. -/
theorem safe_findCmd (h : Refines c m t) : Safe c (Raw.findCmd m) (findCmd t) :=
  { h with
    fsm := rfl
    registered := by simp [findCmd]
    terminated := by simp [findCmd] }

/-- The start of a line sets the default flag of every parameter, at the indices that the array
has. -/
theorem safe_startCmd (h : Refines c m t) : Safe c (Raw.startCmd m) (startCmd t) :=
  { h with
    fsm := rfl
    indexDat := rfl
    status := rfl
    prm := by
      intro i
      show (if i.val < maxParam then { m.arPrm i with flagDef := true } else m.arPrm i) = _
      rw [if_pos i.isLt, h.prm]
      rfl
    union := h.union
    inBounds := by
      intro a ha
      rcases List.mem_append.1 ha with hold | hnew
      · exact h.inBounds a hold
      · obtain ⟨i, hi, rfl⟩ := List.mem_map.1 hnew
        exact List.mem_range.1 hi
    registered := by simp [startCmd, presetCmd]
    terminated := by simp [startCmd, presetCmd] }

/-- A dispatch. The handler is called under `STAT_NORM` only, and then there is a command. Every
other status is answered with a message, for which the table is not read. -/
theorem safe_commandProcessing (h : Refines c m t) (hz : Terminated t)
    (hreg : t.statusCmdParam = .norm → Registered c t) (nextR : Raw.Terminal → Raw.Terminal)
    (next : Terminal → Terminal)
    (hnext : ∀ m' o, Refines c m' (t.emit o) → Safe c (nextR m') (next (t.emit o))) :
    Safe c (Raw.commandProcessing c m nextR) (commandProcessing c t next) := by
  unfold Raw.commandProcessing commandProcessing
  rw [h.status]
  cases hs : t.statusCmdParam with
  | norm =>
    obtain ⟨hne, hidx, hlt⟩ := h.index (hreg hs)
    have hcmd : c.table.cmds[m.indexCmd.toNat]? = some c.table.cmds[m.indexCmd.toNat] :=
      List.getElem?_eq_getElem hlt
    have hentry : t.cmd? c = some c.table.cmds[m.indexCmd.toNat] := by
      rw [Terminal.cmd?, hidx, Option.bind_some, hcmd]
    have hcall : Refines c ((m.note (.handler m.indexCmd.toNat)).note (.arrayCmd _)) t :=
      (h.note (a := .handler _) hlt).note (a := .arrayCmd _) hlt
    have hrun := Prog.run_eval (R := fun m => Refines c m t) (fun r _ h => read_refines hz r h)
      c.table.cmds[m.indexCmd.toNat].cmdHandlerCb hcall
    simp only [Raw.cmdAt, hcmd, hidx, hentry]
    generalize Prog.run _ c.table.cmds[m.indexCmd.toNat].cmdHandlerCb _ = r at hrun
    obtain ⟨effects, m'⟩ := r
    obtain ⟨rfl, hafter⟩ := hrun
    -- the reads of the handler left the index alone
    have hsame : m'.indexCmd.toNat = m.indexCmd.toNat :=
      Option.some.inj ((hafter.index (hreg hs)).2.1.symm.trans hidx)
    have hcalled := hafter.emit (.call m.indexCmd.toNat
      (c.table.cmds[m.indexCmd.toNat].cmdHandlerCb.eval (t.read c)))
    simp only [hsame]
    split
    · -- the reset: only what was done and accessed is left
      exact { safe_init c with output := hcalled.output, inBounds := hcalled.inBounds }
    · exact hnext _ _ hcalled
  | incorrectParam => exact hnext _ _ (h.emit _)
  | overflow => exact hnext _ _ (h.emit _)
  | dataIsEmpty => exact hnext _ _ (h.emit _)
  | cmdNotLoaded => exact hnext _ _ (h.emit _)
  | incorrectCmd => exact hnext _ _ (h.emit _)

/-! ### A byte -/

/-- A command that is found is in the table. -/
theorem registered_lookupCmd (h : (lookupCmd c t).indexCmd ≠ none) :
    Registered c (lookupCmd c t) := by
  dsimp only [lookupCmd] at h ⊢
  split at h
  · next i hfound =>
    have hlt := (List.findIdx?_eq_some_iff_findIdx_eq.1 hfound).1
    exact ⟨i, rfl, by simpa using hlt⟩
  · exact absurd rfl h

/-- The status of a lookup that may fail is `STAT_NORM` only if there is a command. -/
theorem registered_rejectUnknown (h : (rejectUnknown (lookupCmd c t)).statusCmdParam = .norm) :
    Registered c (rejectUnknown (lookupCmd c t)) := by
  rw [rejectUnknown_lookupCmd] at h ⊢
  by_cases hi : (lookupCmd c t).indexCmd = none
  · rw [if_pos hi] at h
    cases h
  · exact registered_lookupCmd hi

/-- A parameter that is processed leaves the command alone. -/
theorem procParametr_indexCmd (c : Console) (t : Terminal) :
    (procParametr c t).indexCmd = t.indexCmd := by
  unfold procParametr
  split <;> rfl

/-- A buffer with a NUL stored in it is a string. -/
theorem terminated_terminate (t : Terminal) : Terminated t.terminate :=
  ⟨t.indexDat, Function.update_self ..⟩

/-- The buffer is still a string behind the search for the command. -/
theorem terminated_lookupCmd (c : Console) (t : Terminal) : Terminated (lookupCmd c t) := by
  rw [Terminated, lookupCmd_dataPrmCmd]
  exact terminated_terminate t

/-- It is one behind a name that was refused. -/
theorem terminated_rejectUnknown (c : Console) (t : Terminal) :
    Terminated (rejectUnknown (lookupCmd c t)) := by
  rw [rejectUnknown_lookupCmd]
  exact terminated_lookupCmd c t

/-- In the command word nothing has to be known of the command. -/
theorem safe_word (h : Refines c m t) (hfsm : t.fsmDatPrc = .prcCmd) : Safe c m t :=
  { h with
    registered := by simp [hfsm]
    terminated := by simp [hfsm] }

/-- `case PRC_CMD` A separator ends the command word or is stored with it, and what is stored is
inside the buffer by the test on its index. -/
theorem safe_prcCmd (h : Refines c m t) (hfsm : t.fsmDatPrc = .prcCmd) (ch : UInt8) :
    Safe c (Raw.prcCmd c m ch) (prcCmd c t ch) := by
  have hlookup : Refines c (Raw.lookupCmd c m) (lookupCmd c t) := lookupCmd_refines h
  have hz := terminated_lookupCmd c t
  have hreject : Refines c _ _ := rejectUnknown_refines hlookup
  have hzreject := terminated_rejectUnknown c t
  have hstay : (lookupCmd c t).fsmDatPrc = .prcCmd := by rw [lookupCmd_fsmDatPrc, hfsm]
  unfold Raw.prcCmd prcCmd
  split
  · split
    · exact safe_commandProcessing hreject hzreject registered_rejectUnknown
        Raw.startCmd startCmd fun _ _ h' => safe_startCmd h'
    · split
      · exact safe_commandProcessing hreject hzreject registered_rejectUnknown
          Raw.findCmd findCmd fun _ _ h' => safe_findCmd h'
      · -- the word ends with a space
        by_cases hnone : (lookupCmd c t).indexCmd = none
        · rw [if_neg (not_not_intro hnone),
            if_neg (not_not_intro (hlookup.indexCmd_eq.2 hnone))]
          exact safe_commandProcessing (hlookup.setStatus .incorrectCmd) hz
            (fun hnorm => StatCmd.noConfusion hnorm) Raw.findCmd findCmd
            fun _ _ h' => safe_findCmd h'
        · have hreg : Registered c (lookupCmd c t) := registered_lookupCmd hnone
          rw [if_pos hnone, if_pos (mt hlookup.indexCmd_eq.1 hnone)]
          have hnum : (Raw.lookupCmd c m).numCmdParam > 0 ↔ (lookupCmd c t).numCmdParam > 0 := by
            rw [← hlookup.numCmdParam]
            exact UInt8.lt_iff_toNat_lt
          by_cases hpos : (lookupCmd c t).numCmdParam > 0
          · rw [if_pos hpos, if_pos (hnum.2 hpos)]
            exact
              { hlookup with
                fsm := rfl
                indexParam := rfl
                registered := fun _ => hreg
                terminated := fun _ => hz }
          · -- a command without parameters: the next byte is again one of the command word
            rw [if_neg hpos, if_neg (mt hnum.1 hpos)]
            exact safe_commandProcessing (hlookup.setStatus .norm) hz (fun _ => hreg) id id
              fun _ _ h' => safe_word h' hstay
  · exact safe_word (h.load ch) hfsm

/-- `case FIND_PRM` A byte that starts a parameter is stored at the start of the raw buffer, and the
other ones store nothing. -/
theorem safe_findPrm (h : Safe c m t) (hfsm : t.fsmDatPrc = .findPrm) (ch : UInt8) :
    Safe c (Raw.findPrm c m ch) (findPrm c t ch) := by
  have hz : Terminated t := h.terminated hfsm
  have hreg : Registered c t := h.registered (.inl hfsm)
  unfold Raw.findPrm findPrm
  split
  · exact h
  · split
    · exact safe_commandProcessing h.toRefines hz (fun _ => hreg) Raw.findCmd findCmd
        fun _ _ h' => safe_findCmd h'
    · split
      · exact safe_commandProcessing h.toRefines hz (fun _ => hreg) Raw.startCmd startCmd
          fun _ _ h' => safe_startCmd h'
      · exact
          { h.toRefines.store (i := 0) (k := 0) rfl ch with
            indexDat := rfl
            fsm := rfl
            registered := fun _ => hreg
            terminated := by simp }

/-- `case PRC_PRM` The index of the parameter is moved only where there is one more slot, and the
raw buffer is terminated before it is converted. -/
theorem safe_prcPrm (h : Safe c m t) (hfsm : t.fsmDatPrc = .prcPrm) (ch : UInt8) :
    Safe c (Raw.prcPrm c m ch) (prcPrm c t ch) := by
  have hreg : Registered c t := h.registered (.inr hfsm)
  -- the raw buffer is terminated before it is converted, so the conversion reads inside it
  have hproc : Refines c (Raw.procParametr c m.terminate) (procParametr c t.terminate) :=
    procParametr_refines h.toRefines.terminate hreg (terminated_terminate t)
  have hregP : Registered c (procParametr c t.terminate) := by
    rw [Registered, procParametr_indexCmd]
    exact hreg
  have hzP : Terminated (procParametr c t.terminate) := by
    rw [Terminated, procParametr_dataPrmCmd]
    exact terminated_terminate t
  unfold Raw.prcPrm prcPrm
  split
  · -- the next parameter, if there is one
    have hlast : (Raw.procParametr c m.terminate).indexParam.toNat < maxParam - 1 ∧
        (Raw.procParametr c m.terminate).statusCmdParam = .norm ↔
        (procParametr c t.terminate).indexParam.val < maxParam - 1 ∧
          (procParametr c t.terminate).statusCmdParam = .norm := by
      rw [hproc.indexParam, hproc.status]
    by_cases hmore : (procParametr c t.terminate).indexParam.val < maxParam - 1 ∧
        (procParametr c t.terminate).statusCmdParam = .norm
    · rw [dif_pos hmore, if_pos (hlast.2 hmore)]
      exact
        { hproc with
          fsm := rfl
          indexParam := by
            rw [toNat_succ (Nat.lt_trans (hlast.2 hmore).1 (by decide)), hproc.indexParam]
          registered := fun _ => hregP
          terminated := fun _ => hzP }
    · rw [dif_neg hmore, if_neg (mt hlast.1 hmore)]
      exact safe_commandProcessing hproc hzP (fun _ => hregP) Raw.findCmd findCmd
          fun _ _ h' => safe_findCmd h'
  · split
    · exact safe_commandProcessing hproc hzP (fun _ => hregP) Raw.findCmd findCmd
        fun _ _ h' => safe_findCmd h'
    · split
      · exact safe_commandProcessing hproc hzP (fun _ => hregP) Raw.startCmd startCmd
          fun _ _ h' => safe_startCmd h'
      · exact
          { h.toRefines.load ch with
            registered := fun _ => hreg
            terminated := fun hfind => by
              have hne : t.fsmDatPrc = .findPrm := hfind
              rw [hfsm] at hne
              cases hne }

/-- A byte. One case for each state of the machine. -/
theorem safe_step (h : Safe c m t) (ch : UInt8) :
    Safe c (Raw.terminalDataProcessing c m ch) (terminalDataProcessing c t ch) := by
  unfold Raw.terminalDataProcessing terminalDataProcessing
  rw [h.fsm]
  cases hfsm : t.fsmDatPrc with
  | findCmd =>
    by_cases hgt : ch = 0x3E
    · rw [if_pos hgt, if_pos hgt]
      exact safe_startCmd h.toRefines
    · rw [if_neg hgt, if_neg hgt]
      exact h
  | prcCmd => exact safe_prcCmd h.toRefines hfsm ch
  | findPrm => exact safe_findPrm h hfsm ch
  | prcPrm => exact safe_prcPrm h hfsm ch

/-! ### Every stream -/

/-- The terminal of `cmd_process.c` after a stream of bytes from power-up. -/
def Raw.after (c : Console) (bytes : List UInt8) : Raw.Terminal :=
  run (Raw.terminalDataProcessing c) Raw.Terminal.init bytes

/-- The terminal of bytes does what the typed one does. -/
theorem safe_run (c : Console) (bytes : List UInt8) :
    Safe c (Raw.after c bytes) (afterHistory c bytes) := by
  have htrue : Along (Raw.terminalDataProcessing c) (fun _ _ => True) Raw.Terminal.init bytes :=
    along_true _ _ bytes
  exact run_sim (R := Safe c) (fun _ _ ch h _ => safe_step h ch) (safe_init c) htrue

/-- After every stream the indices are in range, and every access so far was within its array: the
stores in `data_prm_cmd`, the accesses to `ar_prm` and to `cmd_type_parametr`, the strings that were
scanned or converted, and the handlers that were called. Nothing was stored behind the union of a
parameter. What `Refines` says of the terminal after the stream. -/
theorem accesses_inBounds (c : Console) (bytes : List UInt8) :
    (Raw.after c bytes).indexDat.toNat ≤ maxSizeData - 1 ∧
      (Raw.after c bytes).indexParam.toNat ≤ maxParam - 1 ∧
      (∀ a ∈ (Raw.after c bytes).accesses, InBounds c a) ∧
      ∀ i < maxParam, ∀ j, maxSizeData ≤ j → ((Raw.after c bytes).arPrm i).raw j = 0 := by
  have h := safe_run c bytes
  have hdat := (afterHistory c bytes).indexDat.isLt
  have hparam := (afterHistory c bytes).indexParam.isLt
  rw [h.indexDat, h.indexParam]
  exact ⟨Nat.le_sub_one_of_lt hdat, Nat.le_sub_one_of_lt hparam, h.inBounds,
    fun i hi j hj => h.prm ⟨i, hi⟩ ▸ h.union ⟨i, hi⟩ j hj⟩

end NucleoH743.CmdTrmnl
