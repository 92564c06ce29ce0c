import Mathlib.Data.Fintype.Basic
import NucleoH743.CmdTrmnl.Handlers
import NucleoH743.Proofs.CmdTrmnl.Dispatch

/-!
# `Proofs.CmdTrmnl.History`: what a line inherits

Two terminals between lines can hold different parameter values: `preset_cmd` sets the flags
of the parameters and leaves their unions alone. `SameLine` relates two terminals in the same
line: they agree on what the line itself has set. `sameLine_step` keeps the relation as long
as the handlers that the line calls read only bytes of parameters that the line has given
(`ReadsOwn`).

The relation has one clause for each state of the machine, as each state reads other variables.
Between two lines nothing has to agree, since the `>` of a line sets all that the line needs. In the
name of the command the loaded bytes agree, and no parameter has been given. Between and in the
parameters the command agrees, and so do the parameters that were given, on the bytes that their
type covers: this is what a conversion writes, whatever was in the union before
(`getParametrCmd_converts`).

On the same byte two related terminals dispatch the same or not at all (`dispatch?_same`), and a
handler that reads nothing else does the same on both.

- `line_history_independent`: for such a line, whatever came before, the output is the same.
- `readsOwn_of_given`: a registered handler reads only the parameters its command declares,
  each within its type. So a line that gives every declared parameter is such a line.
- `sector_address_left_over`: without its address, `sector erase` erases at the address of an
  earlier line.
-/

set_option autoImplicit false

namespace NucleoH743.CmdTrmnl

open EventRun

/-! ### What a conversion writes -/

/-- The bytes of the union that a value of the type takes. -/
def TypeCmdPrmtr.width : TypeCmdPrmtr → Nat
  | .uint8 | .int8 | .char => 1
  | .uint16 | .int16 => 2
  | .uint32 | .int32 => 4
  | .double => 8
  | .string => maxSizeData
  | .none | .uint64 | .int64 | .float => 0

/-- A value of an unsigned type of `n` bytes is stored as `n` bytes. -/
@[simp] theorem length_leBytes (n v : Nat) : (leBytes n v).length = n := by simp [leBytes]

/-- So is a value of a signed one. -/
@[simp] theorem length_leBytesInt (n : Nat) (v : Int) : (leBytesInt n v).length = n :=
  length_leBytes n _

/-- What a conversion to a type of `n` bytes gives, for every old value of the parameter: a
status and the bytes it stores, `n` of them on success. -/
def Converts (n : Nat) (f : CmdParametr → StatCmd × CmdParametr) : Prop :=
  ∃ (status : StatCmd) (flag : Bool) (bytes : List UInt8),
    (status = .norm → flag = false → bytes.length = n) ∧
    ∀ p, f p = (status, ({ p with flagDef := flag } : CmdParametr).store bytes)

/-- Storing no byte changes nothing. -/
theorem CmdParametr.store_nil (p : CmdParametr) : p.store [] = p := by simp [store]

/-- A conversion that fails stores nothing, for every old value of the parameter. -/
theorem converts_fail {n : Nat} (status : StatCmd) (h : status ≠ .norm) :
    Converts n fun p => (status, { p with flagDef := false }) :=
  ⟨status, false, [], fun hs => absurd hs h, fun p => by rw [CmdParametr.store_nil]⟩

/-- One that succeeds stores the same bytes, whatever was in the union before. -/
theorem converts_store {n : Nat} (bytes : List UInt8) (h : bytes.length = n) :
    Converts n fun p => (.norm, ({ p with flagDef := false } : CmdParametr).store bytes) :=
  ⟨.norm, false, bytes, fun _ _ => h, fun _ => rfl⟩

/-- The conversion to an unsigned type is one of the two, and which one the string decides alone. -/
theorem converts_uint (n : Nat) (str : List UInt8) :
    Converts n fun p => convertUint n str { p with flagDef := false } := by
  unfold convertUint
  cases sscanfLu str with
  | none => exact converts_fail .incorrectParam (by decide)
  | some v =>
    dsimp only
    split_ifs
    · exact converts_store _ (length_leBytes n v)
    · exact converts_fail .overflow (by decide)

/-- So is the conversion to a signed type. -/
theorem converts_int (n : Nat) (str : List UInt8) :
    Converts n fun p => convertInt n str { p with flagDef := false } := by
  unfold convertInt
  cases sscanfLi str with
  | none => exact converts_fail .incorrectParam (by decide)
  | some v =>
    dsimp only
    split_ifs
    · exact converts_store _ (length_leBytesInt n v)
    · exact converts_fail .overflow (by decide)

/-- `get_parametr_cmd` overwrites the value of the parameter's type, or reports that it has not.
What it reports and writes does not depend on the old value. By the type of the slot. -/
theorem getParametrCmd_converts (c : Console) (buf : Fin maxSizeData → UInt8)
    (type : TypeCmdPrmtr) : Converts type.width (getParametrCmd c buf type) := by
  unfold getParametrCmd
  -- an empty parameter leaves the value, and sets its flag
  by_cases hempty : buf 0 = 0
  · refine ⟨.norm, true, [], fun _ h => absurd h (by decide), fun p => ?_⟩
    rw [CmdParametr.store_nil]
    exact if_pos hempty
  · simp only [if_neg hempty]
    cases type with
    | uint8 => exact converts_uint 1 _
    | uint16 => exact converts_uint 2 _
    | uint32 => exact converts_uint 4 _
    | int8 => exact converts_int 1 _
    | int16 => exact converts_int 2 _
    | int32 => exact converts_int 4 _
    | double =>
      dsimp only
      cases c.sscanfLa (CStr.ofBuf buf) with
      | none => exact converts_fail .incorrectParam (by decide)
      | some bits => exact converts_store _ (length_leBytes 8 bits.toNat)
    | char =>
      dsimp only
      split_ifs
      · exact converts_store _ rfl
      · exact converts_fail .overflow (by decide)
    | string =>
      refine converts_store _ ?_
      simp only [TypeCmdPrmtr.width, List.length_append, List.length_take, List.length_replicate,
        List.length_singleton, maxSizeData]
      omega
    | none | uint64 | int64 | float => exact converts_fail .incorrectParam (by decide)

/-- It reads the buffer through the string it holds and its first two bytes. -/
theorem getParametrCmd_congr {c : Console} {a b : Fin maxSizeData → UInt8} (h0 : a 0 = b 0)
    (h1 : a 0 ≠ 0 → a 1 = b 1) (hstr : CStr.ofBuf a = CStr.ofBuf b) (type : TypeCmdPrmtr)
    (p : CmdParametr) : getParametrCmd c a type p = getParametrCmd c b type p := by
  unfold getParametrCmd
  rw [hstr, h0]
  by_cases hempty : b 0 = 0
  · rw [if_pos hempty, if_pos hempty]
  · rw [if_neg hempty, if_neg hempty, h1 (h0 ▸ hempty)]

/-! ### Reads of the line's own parameters -/

/-- The read is no read of a parameter's union, or of a byte of a value that the line has
given. -/
def Own (d : Terminal) (cmd : Cmd) : Rd → Prop
  | .raw i j => (d.arPrm i).flagDef = false ∧ j < (cmd.cmdTypeParametr i).width
  | .flagDef _ | .dataPrmCmd | .arrayCmd => True

instance (d : Terminal) (cmd : Cmd) : DecidablePred (Own d cmd)
  | .raw _ _ => inferInstanceAs (Decidable (_ ∧ _))
  | .flagDef _ | .dataPrmCmd | .arrayCmd => isTrue trivial

/-- If `command_processing` calls a handler from `d`, the handler reads nothing else. -/
def HandlerReadsOwn (c : Console) (d : Terminal) : Prop :=
  d.statusCmdParam = .norm →
    ∀ cmd ∈ d.cmd? c, cmd.cmdHandlerCb.Uses (d.read c) (Own d cmd)

instance (c : Console) (d : Terminal) : Decidable (HandlerReadsOwn c d) := by
  unfold HandlerReadsOwn
  infer_instance

/-- So it is for the handler that the step on `ch` calls. -/
def ReadsOwn (c : Console) (t : Terminal) (ch : UInt8) : Prop :=
  match dispatch? c t ch with
  | some (d, _) => HandlerReadsOwn c d
  | none => True

instance (c : Console) (t : Terminal) (ch : UInt8) : Decidable (ReadsOwn c t ch) := by
  unfold ReadsOwn
  split <;> infer_instance

/-! ### Two terminals in the same line -/

/-- The same parameters as far as `cmd` and the line determine them. -/
structure SameParams (cmd : Option Cmd) (a b : Fin maxParam → CmdParametr) : Prop where
  flagDef : ∀ i, (a i).flagDef = (b i).flagDef
  raw : ∀ cmd' ∈ cmd, ∀ i, (a i).flagDef = false →
    ∀ j < (cmd'.cmdTypeParametr i).width, (a i).raw j = (b i).raw j

/-- The same bytes of the word that is being loaded. -/
structure SameWord (s t : Terminal) : Prop where
  indexDat : s.indexDat = t.indexDat
  data : ∀ j < s.indexDat, s.dataPrmCmd j = t.dataPrmCmd j

/-- No parameter has been given yet. -/
def NoneGiven (s : Terminal) : Prop := ∀ i, (s.arPrm i).flagDef = true

/-- The same command, and the same parameters of it. -/
structure SameCmd (c : Console) (s t : Terminal) : Prop where
  indexCmd : s.indexCmd = t.indexCmd
  indexParam : s.indexParam = t.indexParam
  params : SameParams (s.cmd? c) s.arPrm t.arPrm

/-- Two terminals that a line has brought to the same point. -/
structure SameLine (c : Console) (s t : Terminal) : Prop where
  fsm : s.fsmDatPrc = t.fsmDatPrc
  output : s.output = t.output
  prcCmd : s.fsmDatPrc = .prcCmd → SameWord s t ∧ NoneGiven s ∧ NoneGiven t
  findPrm : s.fsmDatPrc = .findPrm → SameCmd c s t ∧ s.statusCmdParam = t.statusCmdParam ∧
    CStr.ofBuf s.dataPrmCmd = CStr.ofBuf t.dataPrmCmd
  prcPrm : s.fsmDatPrc = .prcPrm → SameCmd c s t ∧ SameWord s t

section Same
variable {c : Console} {s t : Terminal}

/-- Where nothing has been given, both lines have the defaults. -/
theorem sameParams_of_noneGiven (cmd : Option Cmd) (hs : NoneGiven s) (ht : NoneGiven t) :
    SameParams cmd s.arPrm t.arPrm where
  flagDef i := (hs i).trans (ht i).symm
  raw _ _ i hi := by simp [hs i] at hi

/-- Between lines nothing has to agree. -/
theorem sameLine_findCmd (hs : s.fsmDatPrc = .findCmd) (ht : t.fsmDatPrc = .findCmd)
    (ho : s.output = t.output) : SameLine c s t where
  fsm := hs.trans ht.symm
  output := ho
  prcCmd h := by simp [hs] at h
  findPrm h := by simp [hs] at h
  prcPrm h := by simp [hs] at h

/-! In each other state one clause counts. -/

/-- Two terminals in the command word are at the same point, if they hold the same word and no
parameter. -/
theorem sameLine_prcCmd (hs : s.fsmDatPrc = .prcCmd) (ht : t.fsmDatPrc = .prcCmd)
    (ho : s.output = t.output) (hword : SameWord s t) (hgs : NoneGiven s) (hgt : NoneGiven t) :
    SameLine c s t where
  fsm := hs.trans ht.symm
  output := ho
  prcCmd _ := ⟨hword, hgs, hgt⟩
  findPrm h := by simp [hs] at h
  prcPrm h := by simp [hs] at h

/-- Two terminals between parameters are, if they have the same command and the same parameters of
it. The string in the buffer counts, for `help` reads it. -/
theorem sameLine_findPrm (hs : s.fsmDatPrc = .findPrm) (ht : t.fsmDatPrc = .findPrm)
    (ho : s.output = t.output) (hcmd : SameCmd c s t)
    (hstatus : s.statusCmdParam = t.statusCmdParam)
    (hstr : CStr.ofBuf s.dataPrmCmd = CStr.ofBuf t.dataPrmCmd) : SameLine c s t where
  fsm := hs.trans ht.symm
  output := ho
  prcCmd h := by simp [hs] at h
  findPrm _ := ⟨hcmd, hstatus, hstr⟩
  prcPrm h := by simp [hs] at h

/-- Two terminals in a parameter are, if they hold the same part of it. -/
theorem sameLine_prcPrm (hs : s.fsmDatPrc = .prcPrm) (ht : t.fsmDatPrc = .prcPrm)
    (ho : s.output = t.output) (hcmd : SameCmd c s t) (hword : SameWord s t) :
    SameLine c s t where
  fsm := hs.trans ht.symm
  output := ho
  prcCmd h := by simp [hs] at h
  findPrm h := by simp [hs] at h
  prcPrm _ := ⟨hcmd, hword⟩

/-- `preset_cmd` sets all that the next line needs. -/
theorem sameLine_startCmd (ho : s.output = t.output) :
    SameLine c (startCmd s) (startCmd t) := by
  have hword : SameWord (startCmd s) (startCmd t) :=
    ⟨rfl, fun j hj => absurd hj (Nat.not_lt_zero j.val)⟩
  exact sameLine_prcCmd rfl rfl ho hword (fun _ => rfl) fun _ => rfl

/-- Loading the same byte. The index is the same, so it is the same byte that changes. -/
theorem SameWord.load (h : SameWord s t) (ch : UInt8) : SameWord (s.load ch) (t.load ch) := by
  have hindex : (s.load ch).indexDat = (t.load ch).indexDat := by
    simp only [Terminal.load, h.indexDat]
  refine ⟨hindex, ?_⟩
  intro j hj
  show Function.update s.dataPrmCmd s.indexDat ch j = Function.update t.dataPrmCmd t.indexDat ch j
  rw [← h.indexDat]
  by_cases hji : j = s.indexDat
  · rw [hji, Function.update_self, Function.update_self]
  · rw [Function.update_of_ne hji, Function.update_of_ne hji]
    -- `j` is below the new index and is not the old one
    have hle : (s.load ch).indexDat.val ≤ s.indexDat.val + 1 := by
      simp only [Terminal.load]
      split_ifs
      · exact Nat.le_refl _
      · exact Nat.le_succ _
    have hne : j.val ≠ s.indexDat.val := fun h => hji (Fin.ext h)
    have hlt : j.val < (s.load ch).indexDat.val := hj
    exact h.data j (show j.val < s.indexDat.val by omega)

/-- Up to the NUL at the end of the word the buffers agree. -/
theorem SameWord.terminate (h : SameWord s t) {j : Fin maxSizeData} (hj : j ≤ s.indexDat) :
    s.terminate.dataPrmCmd j = t.terminate.dataPrmCmd j := by
  show Function.update s.dataPrmCmd s.indexDat 0 j = Function.update t.dataPrmCmd t.indexDat 0 j
  rw [← h.indexDat]
  by_cases hji : j = s.indexDat
  · rw [hji, Function.update_self, Function.update_self]
  · rw [Function.update_of_ne hji, Function.update_of_ne hji]
    exact h.data j (lt_of_le_of_ne hj hji)

/-- So they hold the same string. -/
theorem SameWord.ofBuf (h : SameWord s t) :
    CStr.ofBuf s.terminate.dataPrmCmd = CStr.ofBuf t.terminate.dataPrmCmd := by
  refine CStr.ofBuf_congr s.indexDat (fun j hj => h.terminate (le_of_lt hj)) ?_ ?_
  · exact Function.update_self s.indexDat 0 s.dataPrmCmd
  · rw [h.indexDat]
    exact Function.update_self t.indexDat 0 t.dataPrmCmd

/-- The same word is converted in the same way. -/
theorem SameWord.getParametrCmd (h : SameWord s t) (type : TypeCmdPrmtr) (p : CmdParametr) :
    getParametrCmd c s.terminate.dataPrmCmd type p =
      getParametrCmd c t.terminate.dataPrmCmd type p := by
  refine getParametrCmd_congr (h.terminate (Fin.zero_le _)) ?_ h.ofBuf type p
  intro hne
  refine h.terminate (Nat.one_le_iff_ne_zero.2 ?_)
  -- at index 0 the string would be empty
  intro hzero
  have hindex : (0 : Fin maxSizeData) = s.indexDat := Fin.ext hzero.symm
  apply hne
  show Function.update s.dataPrmCmd s.indexDat 0 0 = 0
  rw [hindex]
  exact Function.update_self s.indexDat 0 s.dataPrmCmd

/-- The end of the command word finds the same command. -/
theorem SameWord.lookupCmd (h : SameWord s t) :
    (lookupCmd c s).indexCmd = (lookupCmd c t).indexCmd ∧
    (lookupCmd c s).numCmdParam = (lookupCmd c t).numCmdParam := by
  dsimp only [CmdTrmnl.lookupCmd]
  rw [← h.ofBuf]
  split <;> exact ⟨rfl, rfl⟩

/-- Equal current commands. -/
theorem cmd?_congr (h : s.indexCmd = t.indexCmd) : s.cmd? c = t.cmd? c := by
  unfold Terminal.cmd?
  rw [h]

/-- After the same conversion: the same status, and on success the same parameters. One conversion
is applied to two old values, and what it stores does not depend on them. -/
theorem procParametr_same (hcmd : SameCmd c s t) (hword : SameWord s t) :
    (procParametr c s.terminate).statusCmdParam = (procParametr c t.terminate).statusCmdParam ∧
    ((procParametr c s.terminate).statusCmdParam = .norm →
      SameCmd c (procParametr c s.terminate) (procParametr c t.terminate)) := by
  have hcs : s.terminate.cmd? c = s.cmd? c := rfl
  have hct : t.terminate.cmd? c = s.cmd? c := (cmd?_congr hcmd.indexCmd).symm
  unfold procParametr
  rw [hcs, hct]
  cases hc : s.cmd? c with
  | none => exact ⟨rfl, fun h => by cases h⟩
  | some cmd =>
    have hindex : t.terminate.indexParam = s.indexParam := hcmd.indexParam.symm
    have hsindex : s.terminate.indexParam = s.indexParam := rfl
    dsimp only
    rw [hindex, hsindex, ← hword.getParametrCmd]
    -- one conversion, applied to two old values
    obtain ⟨status, flag, bytes, hlen, heq⟩ := getParametrCmd_converts c
      s.terminate.dataPrmCmd (cmd.cmdTypeParametr s.indexParam)
    rw [heq, heq]
    refine ⟨rfl, ?_⟩
    intro hnorm
    have hcs' : s.terminate.cmd? c = some cmd := hcs.trans hc
    refine ⟨hcmd.indexCmd, rfl, ⟨?_, ?_⟩⟩
    · intro i
      by_cases hi : i = s.indexParam
      · subst hi
        simp [CmdParametr.store]
      · simp only [Function.update_of_ne hi]
        exact hcmd.params.flagDef i
    · intro cmd' hcmd' i hflag j hj
      have hsame : cmd' = cmd := Option.some.inj (hcmd'.symm.trans hcs')
      subst hsame
      by_cases hi : i = s.indexParam
      · subst hi
        simp only [Function.update_self] at hflag ⊢
        -- the byte is one of those just stored
        have hjlen : j < bytes.length := by
          rw [hlen hnorm hflag]
          exact hj
        simp [CmdParametr.store, hjlen]
      · simp only [Function.update_of_ne hi] at hflag ⊢
        exact hcmd.params.raw cmd' hc i hflag j hj

/-- Two terminals whose `command_processing` does the same. -/
structure SameDispatch (c : Console) (d e : Terminal) : Prop where
  output : d.output = e.output
  status : d.statusCmdParam = e.statusCmdParam
  norm : d.statusCmdParam = .norm →
    d.indexCmd = e.indexCmd ∧ SameParams (d.cmd? c) d.arPrm e.arPrm ∧
      CStr.ofBuf d.dataPrmCmd = CStr.ofBuf e.dataPrmCmd

/-- A handler that reads only what the line has set does the same on both. By the status: only
`STAT_NORM` runs a handler, and all that it reads agrees. -/
theorem SameDispatch.commandOutput {d e : Terminal} (h : SameDispatch c d e)
    (hown : HandlerReadsOwn c d) : commandOutput c d = commandOutput c e := by
  unfold CmdTrmnl.commandOutput
  rw [← h.status]
  cases hs : d.statusCmdParam with
  | norm =>
    obtain ⟨hindex, hparams, hstr⟩ := h.norm hs
    dsimp only
    rw [← cmd?_congr hindex, ← hindex]
    cases hi : d.indexCmd with
    | none => rfl
    | some i =>
      cases hc : d.cmd? c with
      | none => rfl
      | some cmd =>
        -- where the handler reads, the terminals agree
        have hread : ∀ r, Own d cmd r → d.read c r = e.read c r := by
          intro r hr
          cases r with
          | raw i j => exact hparams.raw cmd hc i hr.1 j hr.2
          | flagDef i => exact hparams.flagDef i
          | dataPrmCmd => exact hstr
          | arrayCmd => rfl
        have heval := Prog.eval_congr hread (hown hs cmd hc)
        dsimp only
        rw [heval]
  | incorrectParam | overflow | dataIsEmpty | cmdNotLoaded | incorrectCmd => rfl

/-- The parameter has ended in both. -/
theorem sameDispatch_procParametr (ho : s.output = t.output) (hcmd : SameCmd c s t)
    (hword : SameWord s t) :
    SameDispatch c (procParametr c s.terminate) (procParametr c t.terminate) := by
  obtain ⟨hstatus, hsame⟩ := procParametr_same hcmd hword
  refine ⟨?_, hstatus, ?_⟩
  · rw [procParametr_output, procParametr_output]
    exact ho
  · intro hnorm
    refine ⟨(hsame hnorm).indexCmd, (hsame hnorm).params, ?_⟩
    rw [procParametr_dataPrmCmd, procParametr_dataPrmCmd]
    exact hword.ofBuf

/-- The command word has ended in both. The parameters that count are none, as none was given. -/
theorem sameDispatch_lookupCmd (ho : s.output = t.output) (hword : SameWord s t)
    (hs : NoneGiven s) (ht : NoneGiven t) (status : StatCmd) :
    SameDispatch c { lookupCmd c s with statusCmdParam := status }
      { lookupCmd c t with statusCmdParam := status } := by
  refine ⟨?_, rfl, ?_⟩
  · show (lookupCmd c s).output = (lookupCmd c t).output
    rw [lookupCmd_output, lookupCmd_output]
    exact ho
  · intro _
    refine ⟨hword.lookupCmd.1, ?_, ?_⟩
    · show SameParams _ (lookupCmd c s).arPrm (lookupCmd c t).arPrm
      rw [lookupCmd_arPrm, lookupCmd_arPrm]
      exact sameParams_of_noneGiven _ hs ht
    · show CStr.ofBuf (lookupCmd c s).dataPrmCmd = CStr.ofBuf (lookupCmd c t).dataPrmCmd
      rw [lookupCmd_dataPrmCmd, lookupCmd_dataPrmCmd]
      exact hword.ofBuf

/-- A command that is found sets the status. -/
theorem lookupCmd_status (h : (lookupCmd c s).indexCmd ≠ none) :
    (lookupCmd c s).statusCmdParam = .norm := by
  dsimp only [lookupCmd] at h ⊢
  split at h
  · rfl
  · exact absurd rfl h

/-- The status after the lookup of a command that may be unknown. -/
theorem rejectUnknown_lookupCmd :
    rejectUnknown (lookupCmd c s) =
      { lookupCmd c s with
        statusCmdParam := if (lookupCmd c s).indexCmd = none then .incorrectCmd else .norm } := by
  unfold rejectUnknown
  by_cases hi : (lookupCmd c s).indexCmd = none
  · rw [if_pos hi, if_pos hi]
  · rw [if_neg hi, if_neg hi, ← lookupCmd_status hi]

/-- The end of a line in the command word. -/
theorem sameDispatch_rejectUnknown (ho : s.output = t.output) (hword : SameWord s t)
    (hs : NoneGiven s) (ht : NoneGiven t) :
    SameDispatch c (rejectUnknown (lookupCmd c s)) (rejectUnknown (lookupCmd c t)) := by
  have hstatus : (if (lookupCmd c t).indexCmd = none then StatCmd.incorrectCmd else .norm) =
      if (lookupCmd c s).indexCmd = none then StatCmd.incorrectCmd else .norm := by
    rw [hword.lookupCmd.1]
  rw [rejectUnknown_lookupCmd, rejectUnknown_lookupCmd, hstatus]
  exact sameDispatch_lookupCmd ho hword hs ht _

/-- The terminal stays in the command word: the NUL behind the word changes nothing in it. So the
two terminals stay equal in what the line depends on. -/
theorem sameLine_stay (h : SameLine c s t) (hf : s.fsmDatPrc = .prcCmd) (status : StatCmd) :
    SameLine c { lookupCmd c s with statusCmdParam := status }
      { lookupCmd c t with statusCmdParam := status } := by
  obtain ⟨hword, hs, ht⟩ := h.prcCmd hf
  have hfs : (lookupCmd c s).fsmDatPrc = .prcCmd := (lookupCmd_fsmDatPrc c s).trans hf
  have hft : (lookupCmd c t).fsmDatPrc = .prcCmd :=
    (lookupCmd_fsmDatPrc c t).trans (h.fsm.symm.trans hf)
  have ho := (sameDispatch_lookupCmd (c := c) h.output hword hs ht status).output
  refine sameLine_prcCmd hfs hft ho ⟨?_, ?_⟩ ?_ ?_
  · show (lookupCmd c s).indexDat = (lookupCmd c t).indexDat
    rw [lookupCmd_indexDat, lookupCmd_indexDat]
    exact hword.indexDat
  -- the NUL stands at the index, outside of the word
  · intro j hj
    show (lookupCmd c s).dataPrmCmd j = (lookupCmd c t).dataPrmCmd j
    rw [lookupCmd_dataPrmCmd, lookupCmd_dataPrmCmd]
    have hlt : j < (lookupCmd c s).indexDat := hj
    rw [lookupCmd_indexDat] at hlt
    exact hword.terminate (le_of_lt hlt)
  · intro i
    show ((lookupCmd c s).arPrm i).flagDef = true
    rw [lookupCmd_arPrm]
    exact hs i
  · intro i
    show ((lookupCmd c t).arPrm i).flagDef = true
    rw [lookupCmd_arPrm]
    exact ht i

/-- What two terminals in the same line do on the same byte: both dispatch the same, with the
same to follow, or neither dispatches. -/
inductive SameChoice (c : Console) :
    Option (Terminal × Follow) → Option (Terminal × Follow) → Prop where
  | none : SameChoice c none none
  | some {d e : Terminal} {next : Follow} (h : SameDispatch c d e)
    (hstay : next = .stay → SameLine c d e ∧ d.fsmDatPrc = .prcCmd) :
    SameChoice c (some (d, next)) (some (e, next))

/-- On the same byte two terminals at the same point dispatch the same, or neither does. By the
state that they are in. -/
theorem dispatch?_same (h : SameLine c s t) (ch : UInt8) :
    SameChoice c (dispatch? c s ch) (dispatch? c t ch) := by
  unfold dispatch?
  rw [← h.fsm]
  cases hf : s.fsmDatPrc with
  | findCmd => exact .none
  | prcCmd =>
    obtain ⟨hword, hs, ht⟩ := h.prcCmd hf
    obtain ⟨hindex, hnum⟩ := hword.lookupCmd (c := c)
    have hd := sameDispatch_lookupCmd (c := c) h.output hword hs ht
    have hend := sameDispatch_rejectUnknown (c := c) h.output hword hs ht
    dsimp only
    by_cases h3 : ch = 0x3E
    · rw [if_pos h3, if_pos h3]
      exact .some hend (fun h => by cases h)
    rw [if_neg h3, if_neg h3]
    by_cases he : isEol ch = true
    · rw [if_pos he, if_pos he]
      exact .some hend (fun h => by cases h)
    rw [if_neg he, if_neg he]
    by_cases h2 : ch = 0x20
    · rw [if_pos h2, if_pos h2]
      by_cases hi : (lookupCmd c s).indexCmd ≠ none
      · have hi' : (lookupCmd c t).indexCmd ≠ none := hindex ▸ hi
        rw [if_pos hi, if_pos hi']
        by_cases hn : (lookupCmd c s).numCmdParam > 0
        · have hn' : (lookupCmd c t).numCmdParam > 0 := hnum ▸ hn
          rw [if_pos hn, if_pos hn']
          exact .none
        · have hn' : ¬ (lookupCmd c t).numCmdParam > 0 := hnum ▸ hn
          rw [if_neg hn, if_neg hn']
          -- a command without parameters stays in the command word
          exact .some (hd .norm) fun _ =>
            ⟨sameLine_stay h hf .norm, (lookupCmd_fsmDatPrc c s).trans hf⟩
      · have hi' : ¬ (lookupCmd c t).indexCmd ≠ none := hindex ▸ hi
        rw [if_neg hi, if_neg hi']
        exact .some (hd .incorrectCmd) (fun h => by cases h)
    · rw [if_neg h2, if_neg h2]
      exact .none
  | findPrm =>
    obtain ⟨hcmd, hstatus, hstr⟩ := h.findPrm hf
    have hd : SameDispatch c s t :=
      ⟨h.output, hstatus, fun _ => ⟨hcmd.indexCmd, hcmd.params, hstr⟩⟩
    dsimp only
    split_ifs
    · exact .some hd (fun h => by cases h)
    · exact .some hd (fun h => by cases h)
    · exact .none
  | prcPrm =>
    obtain ⟨hcmd, hword⟩ := h.prcPrm hf
    have hd := sameDispatch_procParametr h.output hcmd hword
    have hindex : (procParametr c t.terminate).indexParam =
        (procParametr c s.terminate).indexParam := by
      rw [procParametr_indexParam, procParametr_indexParam]
      exact hcmd.indexParam.symm
    dsimp only
    rw [hindex, ← hd.status]
    split_ifs
    · exact .some hd (fun h => by cases h)
    · exact .some hd (fun h => by cases h)
    · exact .none
    · exact .some hd (fun h => by cases h)
    · exact .none

/-- After the same output: on to the same line, or to the next. A dispatch that stays is one of the
name, where an output changes nothing that counts. -/
theorem sameLine_afterOutput {d e : Terminal} (h : SameDispatch c d e) (next : Follow)
    (hstay : next = .stay → SameLine c d e ∧ d.fsmDatPrc = .prcCmd) (o : Option Output) :
    SameLine c (afterOutput d next o) (afterOutput e next o) := by
  have hnext : ∀ d' e' : Terminal, d'.output = e'.output →
      (next = .stay → SameLine c d' e') → SameLine c (next.apply d') (next.apply e') := by
    intro d' e' ho hs
    cases next with
    | findCmd => exact sameLine_findCmd rfl rfl ho
    | startCmd => exact sameLine_startCmd ho
    | stay => exact hs rfl
  cases o with
  | none => exact hnext d e h.output fun hn => (hstay hn).1
  | some o =>
    have ho : d.output ++ [o] = e.output ++ [o] := by rw [h.output]
    by_cases hreset : o.Resets
    · simp only [afterOutput, if_pos hreset]
      exact sameLine_findCmd rfl rfl ho
    · simp only [afterOutput, if_neg hreset]
      refine hnext (d.emit o) (e.emit o) ho ?_
      intro hn
      obtain ⟨hline, hf⟩ := hstay hn
      -- an output changes nothing else
      obtain ⟨hword, hs, ht⟩ := hline.prcCmd hf
      exact sameLine_prcCmd hf (hline.fsm.symm.trans hf) ho ⟨hword.indexDat, hword.data⟩ hs ht

/-- In the command word: a space that dispatches nothing has found the command, and its parameters
follow. The lookup finds the same command, as the words are the same. -/
theorem sameLine_quiet_prcCmd (h : SameLine c s t) (hf : s.fsmDatPrc = .prcCmd) {ch : UInt8}
    (hd : dispatch? c s ch = none) : SameLine c (quiet c s ch) (quiet c t ch) := by
  obtain ⟨hword, hs, ht⟩ := h.prcCmd hf
  have hft : t.fsmDatPrc = .prcCmd := h.fsm.symm.trans hf
  simp only [quiet, hf, hft]
  by_cases h2 : ch = 0x20
  · rw [if_pos h2, if_pos h2]
    have hindex : (lookupCmd c s).indexCmd ≠ none := by
      intro hnone
      simp [dispatch?, hf, h2, hnone, isEol] at hd
    have hnorm := lookupCmd_status hindex
    have hnorm' := lookupCmd_status (c := c) (s := t) (hword.lookupCmd.1 ▸ hindex)
    have hsame := sameDispatch_lookupCmd (c := c) h.output hword hs ht .norm
    obtain ⟨hcmd, hparams, hstr⟩ := hsame.norm rfl
    exact sameLine_findPrm rfl rfl hsame.output ⟨hcmd, rfl, hparams⟩
      (hnorm.trans hnorm'.symm) hstr
  · rw [if_neg h2, if_neg h2]
    exact sameLine_prcCmd hf hft h.output (hword.load ch) hs ht

/-- Between the parameters: any other byte than a space is the first byte of a parameter. -/
theorem sameLine_quiet_findPrm (h : SameLine c s t) (hf : s.fsmDatPrc = .findPrm) (ch : UInt8) :
    SameLine c (quiet c s ch) (quiet c t ch) := by
  obtain ⟨hcmd, hstatus, hstr⟩ := h.findPrm hf
  simp only [quiet, hf, h.fsm.symm.trans hf]
  by_cases h2 : ch = 0x20
  · rw [if_pos h2, if_pos h2]
    exact h
  · rw [if_neg h2, if_neg h2]
    refine sameLine_prcPrm rfl rfl h.output ⟨hcmd.indexCmd, hcmd.indexParam, hcmd.params⟩ ⟨rfl, ?_⟩
    intro j hj
    have hzero : j = 0 := Fin.ext (Nat.lt_one_iff.1 hj)
    rw [hzero]
    show Function.update s.dataPrmCmd 0 ch 0 = Function.update t.dataPrmCmd 0 ch 0
    rw [Function.update_self, Function.update_self]

/-- In a parameter: a space that dispatches nothing has converted it, and the next one follows. The
separator converts the same word in both. -/
theorem sameLine_quiet_prcPrm (h : SameLine c s t) (hf : s.fsmDatPrc = .prcPrm) {ch : UInt8}
    (hd : dispatch? c s ch = none) : SameLine c (quiet c s ch) (quiet c t ch) := by
  obtain ⟨hcmd, hword⟩ := h.prcPrm hf
  have hft : t.fsmDatPrc = .prcPrm := h.fsm.symm.trans hf
  simp only [quiet, hf, hft]
  by_cases h2 : ch = 0x20
  · rw [if_pos h2, if_pos h2]
    have hnorm : (procParametr c s.terminate).statusCmdParam = .norm := by
      by_contra hne
      simp [dispatch?, hf, h2, hne, isEol] at hd
    obtain ⟨hstatus, hsame⟩ := procParametr_same (c := c) hcmd hword
    have hboth := sameDispatch_procParametr (c := c) h.output hcmd hword
    obtain ⟨hindex, hparams, hstr⟩ := hboth.norm hnorm
    refine sameLine_findPrm rfl rfl hboth.output ⟨hindex, ?_, hparams⟩ hstatus hstr
    simp only [(hsame hnorm).indexParam]
  · rw [if_neg h2, if_neg h2]
    exact sameLine_prcPrm hf hft h.output ⟨hcmd.indexCmd, hcmd.indexParam, hcmd.params⟩
      (hword.load ch)

/-- A byte that dispatches nothing keeps the terminals in the same line. -/
theorem sameLine_quiet (h : SameLine c s t) {ch : UInt8} (hd : dispatch? c s ch = none) :
    SameLine c (quiet c s ch) (quiet c t ch) := by
  cases hf : s.fsmDatPrc with
  | findCmd =>
    simp only [quiet, hf, h.fsm.symm.trans hf]
    split_ifs
    · exact sameLine_startCmd h.output
    · exact h
  | prcCmd => exact sameLine_quiet_prcCmd h hf hd
  | findPrm => exact sameLine_quiet_findPrm h hf ch
  | prcPrm => exact sameLine_quiet_prcPrm h hf hd

/-- A step whose handler reads only what the line has given keeps the terminals in the same line.
Both dispatch or both are quiet, by `dispatch?_same`. -/
theorem sameLine_step (h : SameLine c s t) {ch : UInt8} (hown : ReadsOwn c s ch) :
    SameLine c (terminalDataProcessing c s ch) (terminalDataProcessing c t ch) := by
  rw [terminalDataProcessing_eq, terminalDataProcessing_eq]
  have hsame := dispatch?_same h ch
  cases hs : dispatch? c s ch with
  | none =>
    rw [hs] at hsame
    cases ht : dispatch? c t ch with
    | none => exact sameLine_quiet h hs
    | some en =>
      rw [ht] at hsame
      cases hsame
  | some dn =>
    obtain ⟨d, next⟩ := dn
    have hread : HandlerReadsOwn c d := by
      unfold ReadsOwn at hown
      rw [hs] at hown
      exact hown
    rw [hs] at hsame
    cases ht : dispatch? c t ch with
    | none =>
      rw [ht] at hsame
      cases hsame
    | some en =>
      rw [ht] at hsame
      -- both dispatch, and the handler does the same on both
      cases hsame with
      | some hde hstay =>
        show SameLine c (commandProcessing c d next.apply) (commandProcessing c _ next.apply)
        rw [commandProcessing_eq, commandProcessing_eq, ← hde.commandOutput hread]
        exact sameLine_afterOutput hde next hstay _

end Same

/-! ### Lines -/

/-- A command line: `>`, bytes that neither end a line nor start one, and the byte that ends
the line. -/
structure Line where
  body : List UInt8
  last : UInt8
  body_ok : ∀ ch ∈ body, isEol ch = false ∧ ch ≠ 0x3E
  last_ok : isEol last = true ∨ last = 0x3E

/-- The bytes of the line. -/
def Line.bytes (line : Line) : List UInt8 := 0x3E :: line.body ++ [line.last]

/-- The terminal after the bytes `history` since power-up. -/
def afterHistory (c : Console) (history : List UInt8) : Terminal :=
  run (terminalDataProcessing c) Terminal.init history

/-- What the terminal does on the line, after `history`. -/
def lineOutput (c : Console) (history : List UInt8) (line : Line) : List Output :=
  (run (terminalDataProcessing c) { afterHistory c history with output := [] } line.bytes).output

/-- For every table and line: if the handlers that the line calls read no byte of a parameter but
those the line has given, the output of the line is the same after all histories that end between
two lines. The condition is on the table and the line, run from power-up. The two terminals are
related between the lines, and `sameLine_step` goes through the line. -/
theorem line_history_independent (c : Console) (line : Line) (history history' : List UInt8)
    (hown : Along (terminalDataProcessing c) (ReadsOwn c) Terminal.init line.bytes)
    (h : (afterHistory c history).fsmDatPrc = .findCmd)
    (h' : (afterHistory c history').fsmDatPrc = .findCmd) :
    lineOutput c history line = lineOutput c history' line := by
  -- both runs of the line stay beside the one from power-up
  have hbeside : ∀ hist, (afterHistory c hist).fsmDatPrc = .findCmd →
      (run (terminalDataProcessing c) Terminal.init line.bytes).output =
        lineOutput c hist line := by
    intro hist hfind
    have hstart : SameLine c Terminal.init { afterHistory c hist with output := [] } :=
      sameLine_findCmd rfl hfind rfl
    have hstep : ∀ s t ch, SameLine c s t → ReadsOwn c s ch →
        SameLine c (terminalDataProcessing c s ch) (terminalDataProcessing c t ch) :=
      fun _ _ _ hsame hreads => sameLine_step hsame hreads
    exact (run_sim hstep hstart hown).output
  exact (hbeside history h).symm.trans (hbeside history' h')

/-! ### The registered commands -/

section Registered
variable {c : Console} {d : Terminal} {cmd : Cmd}

/-- `strcmp` on a string parameter stays within it. -/
theorem strcmpFrom_uses {i : Fin maxParam} (hflag : (d.arPrm i).flagDef = false) (j : Nat)
    (text : List UInt8) (hlen : j + text.length < (cmd.cmdTypeParametr i).width) :
    (strcmpFrom i j text).Uses (d.read c) (Own d cmd) := by
  induction text generalizing j with
  | nil => exact ⟨⟨hflag, hlen⟩, trivial⟩
  | cons b text ih =>
    have hj : j < (cmd.cmdTypeParametr i).width := by
      rw [List.length_cons] at hlen
      omega
    refine ⟨⟨hflag, hj⟩, ?_⟩
    dsimp only [Prog.bind]
    split_ifs
    · exact ih (j + 1) (by rw [List.length_cons] at hlen; omega)
    · trivial

/-- The comparisons of a handler read the first parameter. -/
theorem selectMode_uses (hflag : (d.arPrm 0).flagDef = false)
    (hstr : cmd.cmdTypeParametr 0 = .string) {modes : List (String × List Effect)}
    (hlen : ∀ mode ∈ modes, (CStr.textBytes mode.1).length < maxSizeData) :
    (selectMode modes).Uses (d.read c) (Own d cmd) := by
  induction modes with
  | nil => trivial
  | cons mode modes ih =>
    have hmode : 0 + (CStr.textBytes mode.1).length < (cmd.cmdTypeParametr 0).width := by
      rw [hstr, Nat.zero_add]
      exact hlen mode List.mem_cons_self
    refine (Prog.uses_bind _ _ _ _).2 ⟨strcmpFrom_uses hflag 0 _ hmode, ?_⟩
    split_ifs
    · trivial
    · exact ih fun m hm => hlen m (List.mem_cons_of_mem mode hm)

/-- A read of a number that the line has given reads the bytes that the line has stored. -/
theorem varU32_uses {i : Fin maxParam} (hflag : (d.arPrm i).flagDef = false)
    (htype : cmd.cmdTypeParametr i = .uint32) : (varU32 i).Uses (d.read c) (Own d cmd) := by
  have hbyte : ∀ j < 4, Own d cmd (.raw i j) := by
    intro j hj
    refine ⟨hflag, ?_⟩
    rw [htype]
    exact hj
  exact ⟨hbyte 0 (by decide), hbyte 1 (by decide), hbyte 2 (by decide), hbyte 3 (by decide),
    trivial⟩

/-- The line has given every parameter that the command declares. -/
def Given (d : Terminal) (cmd : Cmd) : Prop :=
  ∀ i, cmd.cmdTypeParametr i ≠ .none → (d.arPrm i).flagDef = false

instance (d : Terminal) (cmd : Cmd) : Decidable (Given d cmd) := by
  unfold Given
  infer_instance

/-- A registered handler reads nothing but declared parameters. By the command, whose declared
parameters are those that its handler looks at. -/
theorem registered_uses (hcmd : cmd ∈ terminalTable.cmds) (hgiven : Given d cmd) :
    cmd.cmdHandlerCb.Uses (d.read c) (Own d cmd) := by
  have htable : terminalTable.cmds =
      [helpCmd, resetCmd, ledCmd, freertosCmd, qflashCmd, dampCmd, sectorCmd, fatfsCmd] := rfl
  rw [htable] at hcmd
  simp only [List.mem_cons, List.not_mem_nil, or_false] at hcmd
  rcases hcmd with rfl | rfl | rfl | rfl | rfl | rfl | rfl | rfl
  · -- help: one comparison, then the string in the buffer and the table
    have hflag := hgiven 0 (by decide)
    refine (Prog.uses_bind _ _ _ _).2 ⟨strcmpFrom_uses hflag 0 _ (by decide), ?_⟩
    split_ifs
    · exact ⟨trivial, trivial⟩
    · refine ⟨trivial, trivial, ?_⟩
      dsimp only [Prog.bind]
      split <;> trivial
  · trivial
  · exact selectMode_uses (hgiven 0 (by decide)) rfl (by decide)
  · exact selectMode_uses (hgiven 0 (by decide)) rfl (by decide)
  · exact selectMode_uses (hgiven 0 (by decide)) rfl (by decide)
  · have hflag := hgiven 1 (by decide)
    refine ⟨⟨hflag, by decide⟩, ?_⟩
    exact selectMode_uses (hgiven 0 (by decide)) rfl (by simp; decide)
  · have haddress : (varU32 1).Uses (d.read c) (Own d sectorCmd) :=
      varU32_uses (hgiven 1 (by decide)) rfl
    refine (Prog.uses_bind _ _ _ _).2 ⟨haddress, ?_⟩
    exact selectMode_uses (hgiven 0 (by decide)) rfl (by simp; decide)
  · exact selectMode_uses (hgiven 0 (by decide)) rfl (by decide)

end Registered

/-- If the step calls a handler, the line has given all its parameters. -/
def GivesAll (c : Console) (t : Terminal) (ch : UInt8) : Prop :=
  match dispatch? c t ch with
  | some (d, _) => d.statusCmdParam = .norm → ∀ cmd ∈ d.cmd? c, Given d cmd
  | none => True

/-- With the registered commands, a line that gives all parameters of its commands is one whose
handlers read only what it has given. The handler that is called is a registered one, and the line
has given all that its command declares. -/
theorem readsOwn_of_given {c : Console} (hc : c.table = terminalTable) {t : Terminal}
    {ch : UInt8} (h : GivesAll c t ch) : ReadsOwn c t ch := by
  unfold GivesAll at h
  unfold ReadsOwn
  cases hd : dispatch? c t ch with
  | none => trivial
  | some dn =>
    rw [hd] at h
    intro hnorm cmd hcmd
    refine registered_uses ?_ (h hnorm cmd hcmd)
    rw [← hc]
    obtain ⟨i, -, hi⟩ := Option.bind_eq_some_iff.1 hcmd
    exact List.mem_of_getElem? hi

/-- The output of such a line does not depend on earlier lines. -/
theorem given_line_history_independent {c : Console} (hc : c.table = terminalTable) (line : Line)
    (history history' : List UInt8)
    (hgiven : Along (terminalDataProcessing c) (GivesAll c) Terminal.init line.bytes)
    (h : (afterHistory c history).fsmDatPrc = .findCmd)
    (h' : (afterHistory c history').fsmDatPrc = .findCmd) :
    lineOutput c history line = lineOutput c history' line := by
  have hown := along_mono (fun _ _ => readsOwn_of_given hc) hgiven
  exact line_history_independent c line history history' hown h h'

/-! ### A parameter that was left out -/

/-- The terminal of the firmware. -/
def console : Console where
  table := terminalTable
  sscanfLa := fun _ => none

/-- `>led on`, ended by a carriage return. -/
def ledOn : Line where
  body := CStr.textBytes "led on"
  last := 0x0D
  body_ok := by decide +kernel
  last_ok := by decide

/-- `>sector erase`, without an address. -/
def sectorErase : Line where
  body := CStr.textBytes "sector erase"
  last := 0x0D
  body_ok := by decide +kernel
  last_ok := by decide

/-- The line `>led on`, after `>led off` and after power-up. -/
theorem line_history_independent_ledOn :
    lineOutput console (CStr.textBytes ">led off\r") ledOn = lineOutput console [] ledOn :=
  line_history_independent console ledOn _ _ (by decide) (by decide)
    (by decide)

/-- `>sector erase` erases at the address of the line before. -/
theorem sector_address_left_over :
    ¬ ∀ (c : Console) (line : Line) (history history' : List UInt8),
      (afterHistory c history).fsmDatPrc = .findCmd →
      (afterHistory c history').fsmDatPrc = .findCmd →
      lineOutput c history line = lineOutput c history' line := by
  intro h
  have heq := h console sectorErase (CStr.textBytes ">sector view 4096\r")
    (CStr.textBytes ">sector view 8192\r") (by decide) (by decide)
  revert heq
  decide

end NucleoH743.CmdTrmnl
