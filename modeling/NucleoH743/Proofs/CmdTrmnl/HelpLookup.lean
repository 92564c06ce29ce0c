import NucleoH743.Proofs.Flash.CommandQueue

/-!
# `Proofs.CmdTrmnl.HelpLookup`: the name that help looks up

`help_cmd_handler` compares its parameter with `all` and passes it to `print_inform_cmd`, which
searches for the string in `data_prm_cmd` instead. The two are the same from the conversion of the
parameter until the next token starts: the other slots of the command have no type, so only a token
that starts with a NUL gets past them, and it leaves the buffer empty.

`HelpInv` is what holds between bytes, and `buffer_at_help` what the buffer holds when the handler
is called.

Two different names print the same only if the table has neither, for the entry of a name begins
with the name (`informEffects_eq_iff`). So the handler is wrong exactly where the string in the
buffer is not the parameter and one of the two is registered. By `HelpInv` the only other string
that the buffer can hold is the empty one.

The witness of the defect is the line `>help led` with a NUL as a second token: help prints that
there is no such command, although `led` is one.

- `help_right_iff`: along a run help prints the entry of its parameter iff, wherever it is called
  behind a further token, neither the parameter nor the empty string is the name of a command.
-/

set_option autoImplicit false

namespace NucleoH743.CmdTrmnl

open EventRun (Along along_append along_congr run)
open Flash (unionStr strcmpFrom_eval)

/-! ### The handler -/

/-- The entry of the first command with the name, or the message that there is none. -/
def informEffects (texts : List CmdText) (name : List UInt8) : List Effect :=
  match (scanCmd texts name).bind fun i => texts[i]? with
  | none => [.printf "Invalid parameter\r\n"]
  | some text =>
    [.printf "\r\n", .printf (" command reference " ++ text.cmdName ++ "\r\n\r\n"),
      .printf ("  " ++ text.cmdInform ++ "\r\n\r\n")]

/-- The texts of the registered commands. -/
def Console.texts (c : Console) : List CmdText := c.table.cmds.map Cmd.toCmdText

/-- What the handler prints for a parameter other than `all`. The comparison with `all` fails, so
the handler searches for the name. -/
theorem helpCmdHandler_eval {c : Console} {d : Terminal}
    (hall : unionStr (d.arPrm 0) ≠ CStr.textBytes "all") :
    helpCmdHandler.eval (d.read c) = informEffects c.texts (CStr.ofBuf d.dataPrmCmd) := by
  have hcmp : (varChIs "all").eval (d.read c) = false := by
    have hnul : 0 ∉ CStr.textBytes "all" := by decide
    have heval := strcmpFrom_eval c d 0 hnul 0 maxSizeData (by decide)
    rw [← List.range_eq_range'] at heval
    exact heval.trans (decide_eq_false hall)
  have hinform : printInformCmd.eval (d.read c) =
      informEffects c.texts (CStr.ofBuf d.dataPrmCmd) := by
    show (match (scanCmd c.texts (CStr.ofBuf d.dataPrmCmd)).bind fun i => c.texts[i]? with
      | none => Prog.ret _
      | some text => Prog.ret _ : Handler).eval (d.read c) = _
    unfold informEffects
    cases (scanCmd c.texts (CStr.ofBuf d.dataPrmCmd)).bind fun i => c.texts[i]? with
    | none => rfl
    | some text => rfl
  show ((varChIs "all") >>= fun b => ite (b = true) _ printInformCmd).eval _ = _
  rw [Prog.eval_bind, hcmp, if_neg Bool.false_ne_true, hinform]

/-- No command has the name. -/
def Unregistered (texts : List CmdText) (name : List UInt8) : Prop :=
  ∀ text ∈ texts, CStr.textBytes text.cmdName ≠ name

/-- `scan_cmd` finds nothing iff no command has the name. -/
theorem scanCmd_eq_none_iff (texts : List CmdText) (name : List UInt8) :
    scanCmd texts name = none ↔ Unregistered texts name := by
  rw [scanCmd, List.findIdx?_eq_none_iff]
  unfold Unregistered
  simp only [decide_eq_false_iff_not]
  exact forall₂_congr fun text _ => not_congr eq_comm

/-- The entry of a registered name is that of a command with this name. -/
theorem informEffects_cases (texts : List CmdText) (name : List UInt8) :
    (Unregistered texts name ∧ informEffects texts name = [.printf "Invalid parameter\r\n"]) ∨
      ∃ text ∈ texts, CStr.textBytes text.cmdName = name ∧ informEffects texts name =
        [.printf "\r\n", .printf (" command reference " ++ text.cmdName ++ "\r\n\r\n"),
          .printf ("  " ++ text.cmdInform ++ "\r\n\r\n")] := by
  unfold informEffects
  cases hscan : scanCmd texts name with
  | none => exact .inl ⟨(scanCmd_eq_none_iff texts name).mp hscan, rfl⟩
  | some i =>
    rw [scanCmd, List.findIdx?_eq_some_iff_getElem] at hscan
    obtain ⟨hi, hname, -⟩ := hscan
    refine .inr ⟨texts[i], List.getElem_mem hi, (of_decide_eq_true hname).symm, ?_⟩
    rw [Option.bind_some, List.getElem?_eq_getElem hi]

/-- Two different names print the same only if neither is registered. The text of an entry begins
with its name, so equal texts have equal names, and a list of one message is no entry. -/
theorem informEffects_eq_iff (texts : List CmdText) {name name' : List UInt8} (h : name ≠ name') :
    informEffects texts name = informEffects texts name' ↔
      Unregistered texts name ∧ Unregistered texts name' := by
  rcases informEffects_cases texts name with ⟨hno, heq⟩ | ⟨text, hmem, hname, heq⟩
  · rcases informEffects_cases texts name' with ⟨hno', heq'⟩ | ⟨text', hmem', hname', heq'⟩
    · rw [heq, heq']
      exact iff_of_true rfl ⟨hno, hno'⟩
    · rw [heq, heq']
      exact iff_of_false (fun hlist => absurd (congrArg List.length hlist) (by simp))
        fun hboth => hboth.2 text' hmem' hname'
  · refine iff_of_false (fun hlist => ?_) fun hboth => hboth.1 text hmem hname
    rcases informEffects_cases texts name' with ⟨hno', heq'⟩ | ⟨text', hmem', hname', heq'⟩
    · rw [heq, heq'] at hlist
      exact absurd (congrArg List.length hlist) (by simp)
    · -- the entries begin with the names of their commands
      rw [heq, heq'] at hlist
      simp only [List.cons.injEq, Effect.printf.injEq, true_and] at hlist
      have htail := congrArg String.toList hlist.1
      simp only [String.toList_append, List.append_assoc] at htail
      have hnames := List.append_cancel_right (List.append_cancel_left htail)
      rw [← hname, ← hname', String.toList_inj.1 hnames] at h
      exact h rfl

/-! ### The buffer -/

/-- The string that a parameter has after the conversion of a string. The conversion fills the union
up with NULs, and the string ends at the first of them. -/
theorem unionStr_store {p : CmdParametr} {str : List UInt8} (hnul : 0 ∉ str)
    (hlen : str.length < maxSizeData) :
    unionStr (p.store ((str ++ List.replicate maxSizeData 0).take (maxSizeData - 1) ++ [0])) =
      str := by
  have hfill : (str ++ List.replicate maxSizeData 0).take (maxSizeData - 1) ++ [0] =
      str ++ List.replicate (maxSizeData - 1 - str.length + 1) 0 := by
    rw [List.take_append, List.take_of_length_le (Nat.le_sub_one_of_lt hlen), List.take_replicate,
      Nat.min_eq_left (by omega), List.append_assoc, List.replicate_succ']
  rw [hfill]
  have hbytes : (List.range maxSizeData).map
      (p.store (str ++ List.replicate (maxSizeData - 1 - str.length + 1) 0)).raw =
        str ++ List.replicate (maxSizeData - 1 - str.length + 1) 0 := by
    have hlength : (str ++ List.replicate (maxSizeData - 1 - str.length + 1) 0).length =
        maxSizeData := by
      rw [List.length_append, List.length_replicate]
      omega
    refine List.ext_getElem (by rw [List.length_map, List.length_range, hlength]) ?_
    intro j hj hj'
    rw [List.getElem_map, List.getElem_range]
    show List.getD _ j _ = _
    rw [List.getD_eq_getElem?_getD, List.getElem?_eq_getElem hj']
    rfl
  rw [unionStr, hbytes, CStr.ofBytes_zeros hnul]

/-- The string in the buffer is empty iff its first byte is a NUL. -/
theorem ofBuf_eq_nil_iff (buf : Fin maxSizeData → UInt8) : CStr.ofBuf buf = [] ↔ buf 0 = 0 := by
  rw [CStr.ofBuf, List.ofFn_succ, CStr.ofBytes, List.takeWhile_cons]
  by_cases hzero : buf 0 = 0
  · simp [hzero]
  · simp [hzero]

section Conversion
variable {c : Console} {buf : Fin maxSizeData → UInt8} {p : CmdParametr}

/-- A string that is given is the one in the buffer, and not empty. -/
theorem getParametrCmd_string {i : Fin maxSizeData} (hnul : buf i = 0)
    (hgiven : (getParametrCmd c buf .string p).2.flagDef = false) :
    unionStr (getParametrCmd c buf .string p).2 ≠ [] ∧
      CStr.ofBuf buf = unionStr (getParametrCmd c buf .string p).2 := by
  by_cases hempty : buf 0 = 0
  · simp [getParametrCmd, hempty] at hgiven
  · have hstr : unionStr (getParametrCmd c buf .string p).2 = CStr.ofBuf buf := by
      unfold getParametrCmd
      rw [if_neg hempty]
      exact unionStr_store (CStr.zero_notMem_ofBytes _) (CStr.length_ofBuf_lt hnul)
    rw [hstr]
    exact ⟨mt (ofBuf_eq_nil_iff buf).mp hempty, rfl⟩

/-- A slot without a type accepts nothing but an empty string. -/
theorem getParametrCmd_none (hnorm : (getParametrCmd c buf .none p).1 = .norm) :
    CStr.ofBuf buf = [] := by
  rw [ofBuf_eq_nil_iff]
  by_contra hempty
  simp [getParametrCmd, hempty] at hnorm

end Conversion

/-- What the conversion of a token of the help command leaves: the first slot gets the string of the
buffer, and behind it only an empty string is accepted. The first slot is a string, and all others
have no type. -/
theorem procParametr_help {c : Console} {t : Terminal} (hcmd : t.cmd? c = some helpCmd) :
    (t.indexParam = 0 → ((procParametr c t.terminate).arPrm 0).flagDef = false →
      unionStr ((procParametr c t.terminate).arPrm 0) ≠ [] ∧
        CStr.ofBuf t.terminate.dataPrmCmd = unionStr ((procParametr c t.terminate).arPrm 0)) ∧
    (t.indexParam ≠ 0 → (procParametr c t.terminate).arPrm 0 = t.arPrm 0 ∧
      ((procParametr c t.terminate).statusCmdParam = .norm →
        CStr.ofBuf t.terminate.dataPrmCmd = [])) := by
  -- the terminator is behind the token in the buffer
  have hnul : t.terminate.dataPrmCmd t.indexDat = 0 := by
    show Function.update t.dataPrmCmd t.indexDat 0 t.indexDat = 0
    rw [Function.update_self]
  have hproc : procParametr c t.terminate =
      { t.terminate with
        statusCmdParam := (getParametrCmd c t.terminate.dataPrmCmd
          (helpCmd.cmdTypeParametr t.indexParam) (t.arPrm t.indexParam)).1
        arPrm := Function.update t.arPrm t.indexParam (getParametrCmd c t.terminate.dataPrmCmd
          (helpCmd.cmdTypeParametr t.indexParam) (t.arPrm t.indexParam)).2 } := by
    have hcmd' : t.terminate.cmd? c = some helpCmd := hcmd
    rw [procParametr, hcmd']
    rfl
  rw [hproc]
  constructor
  · intro hzero
    dsimp only
    rw [hzero, Function.update_self]
    exact getParametrCmd_string hnul
  · -- `help` has one parameter, the type of the others is none
    intro hne
    have htype : helpCmd.cmdTypeParametr t.indexParam = .none := by
      have hall : ∀ m : Fin maxParam, m ≠ 0 → helpCmd.cmdTypeParametr m = .none := by decide
      exact hall _ hne
    dsimp only
    rw [Function.update_of_ne (Ne.symm hne), htype]
    exact ⟨rfl, getParametrCmd_none⟩

/-! ### Between the bytes -/

/-- The buffer and the first parameter of the help command. Before the parameter nothing is given.
Until the next token starts the buffer holds the parameter, and behind that one nothing. -/
structure HelpInv (c : Console) (t : Terminal) : Prop where
  prcCmd : t.fsmDatPrc = .prcCmd → NoneGiven t
  findPrm : t.fsmDatPrc = .findPrm → t.cmd? c = some helpCmd → (t.arPrm 0).flagDef = false →
    t.indexParam ≠ 0 ∧ unionStr (t.arPrm 0) ≠ [] ∧
      CStr.ofBuf t.dataPrmCmd = if t.indexParam = 1 then unionStr (t.arPrm 0) else []
  prcPrm : t.fsmDatPrc = .prcPrm → t.cmd? c = some helpCmd → (t.arPrm 0).flagDef = false →
    t.indexParam ≠ 0 → unionStr (t.arPrm 0) ≠ []

section Invariant
variable {c : Console} {t : Terminal}

/-- Between the lines the invariant asks for nothing. -/
theorem helpInv_findCmd (h : t.fsmDatPrc = .findCmd) : HelpInv c t := by
  constructor
  · intro hf
    cases h.symm.trans hf
  · intro hf
    cases h.symm.trans hf
  · intro hf
    cases h.symm.trans hf

/-- In the command word it asks that no parameter is given. -/
theorem helpInv_prcCmd (h : t.fsmDatPrc = .prcCmd) (hnone : NoneGiven t) : HelpInv c t := by
  constructor
  · exact fun _ => hnone
  · intro hf
    cases h.symm.trans hf
  · intro hf
    cases h.symm.trans hf

/-- The conversion of a parameter leaves the current command alone. -/
@[simp] theorem procParametr_cmd? (c : Console) (t : Terminal) :
    (procParametr c t).cmd? c = t.cmd? c := by
  unfold procParametr
  cases hcmd : t.cmd? c with
  | none => exact hcmd
  | some cmd => exact hcmd

/-- The separator after a token of the help command. Which slot it is decides what the buffer
holds. -/
theorem HelpInv.convert (h : HelpInv c t) (hf : t.fsmDatPrc = .prcPrm)
    (hcmd : t.cmd? c = some helpCmd)
    (hnorm : (procParametr c t.terminate).statusCmdParam = .norm)
    (hgiven : ((procParametr c t.terminate).arPrm 0).flagDef = false) :
    unionStr ((procParametr c t.terminate).arPrm 0) ≠ [] ∧
      CStr.ofBuf (procParametr c t.terminate).dataPrmCmd =
        if t.indexParam = 0 then unionStr ((procParametr c t.terminate).arPrm 0) else [] := by
  obtain ⟨hfirst, hlater⟩ := procParametr_help (c := c) hcmd
  rw [procParametr_dataPrmCmd]
  by_cases hzero : t.indexParam = 0
  · rw [if_pos hzero]
    exact hfirst hzero hgiven
  · obtain ⟨hsame, hbuf⟩ := hlater hzero
    rw [if_neg hzero]
    rw [hsame] at hgiven ⊢
    exact ⟨h.prcPrm hf hcmd hgiven hzero, hbuf hnorm⟩

/-- A space behind a token is quiet only if it leads to the next slot. -/
theorem dispatch?_token_space (hf : t.fsmDatPrc = .prcPrm) (hd : dispatch? c t 0x20 = none) :
    (procParametr c t.terminate).indexParam.val < maxParam - 1 ∧
      (procParametr c t.terminate).statusCmdParam = .norm := by
  by_contra hno
  simp only [dispatch?, hf] at hd
  rw [if_neg (by decide), if_neg (by decide), if_pos trivial, if_neg hno] at hd
  cases hd

/-- A step that dispatches nothing. By the state of the machine: a token starts, a token goes on, or
its separator converts it. -/
theorem helpInv_quiet (h : HelpInv c t) {ch : UInt8} (hd : dispatch? c t ch = none) :
    HelpInv c (quiet c t ch) := by
  unfold quiet
  cases hf : t.fsmDatPrc with
  | findCmd =>
    dsimp only
    split_ifs
    · exact helpInv_prcCmd rfl fun _ => rfl
    · exact helpInv_findCmd hf
  | prcCmd =>
    have hnone := h.prcCmd hf
    dsimp only
    split_ifs
    · -- the first slot comes next
      constructor
      · intro hf'
        cases hf'
      · intro _ _ hgiven
        have hflag : ((lookupCmd c t).arPrm 0).flagDef = false := hgiven
        rw [lookupCmd_arPrm, hnone 0] at hflag
        cases hflag
      · intro hf'
        cases hf'
    · exact helpInv_prcCmd hf hnone
  | findPrm =>
    dsimp only
    split_ifs
    · exact h
    · constructor
      · intro hf'
        cases hf'
      · intro hf'
        cases hf'
      · intro _ hcmd hgiven _
        exact (h.findPrm hf hcmd hgiven).2.1
  | prcPrm =>
    dsimp only
    by_cases hspace : ch = 0x20
    · subst hspace
      obtain ⟨hlt, hnorm⟩ := dispatch?_token_space hf hd
      rw [if_pos rfl, dif_pos hlt]
      constructor
      · intro hf'
        cases hf'
      · intro _ hcmd hgiven
        have hcmd' : t.cmd? c = some helpCmd := (procParametr_cmd? c t.terminate).symm.trans hcmd
        obtain ⟨hne, hbuf⟩ := h.convert hf hcmd' hnorm hgiven
        have hidx : (procParametr c t.terminate).indexParam = t.indexParam :=
          procParametr_indexParam c t.terminate
        refine ⟨fun hz => Nat.succ_ne_zero _ (congrArg Fin.val hz), hne, hbuf.trans ?_⟩
        -- the next slot is the second one iff this was the first one
        have hiff : (⟨(procParametr c t.terminate).indexParam + 1, by omega⟩ : Fin maxParam) = 1 ↔
            t.indexParam = 0 := by
          rw [← hidx, Fin.ext_iff, Fin.ext_iff]
          exact Nat.succ_inj
        exact if_congr hiff.symm rfl rfl
      · intro hf'
        cases hf'
    · rw [if_neg hspace]
      constructor
      · intro hf'
        cases hf.symm.trans hf'
      · intro hf'
        cases hf.symm.trans hf'
      · exact fun _ => h.prcPrm hf

/-- A dispatch that stays is the space behind the name of a command without parameters. What follows
a dispatch is the search for a line, a new line, or the name of the command once more, and in none
of them a parameter is loaded. -/
theorem helpInv_dispatch (h : HelpInv c t) {ch : UInt8} {d : Terminal} {next : Follow}
    (hd : dispatch? c t ch = some (d, next)) (o : Option Output) :
    HelpInv c (afterOutput d next o) := by
  have hnext : ∀ u : Terminal, u.fsmDatPrc = d.fsmDatPrc → u.arPrm = d.arPrm →
      HelpInv c (next.apply u) := by
    intro u hfsm harprm
    cases next with
    | findCmd => exact helpInv_findCmd rfl
    | startCmd => exact helpInv_prcCmd rfl fun _ => rfl
    | stay =>
      obtain ⟨hf, -, -, rfl⟩ := dispatch?_stay hd
      refine helpInv_prcCmd (hfsm.trans ((lookupCmd_fsmDatPrc c t).trans hf)) fun i => ?_
      show (u.arPrm i).flagDef = true
      rw [harprm]
      show ((lookupCmd c t).arPrm i).flagDef = true
      rw [lookupCmd_arPrm]
      exact h.prcCmd hf i
  cases o with
  | none => exact hnext d rfl rfl
  | some o =>
    unfold afterOutput
    dsimp only
    split_ifs
    · exact helpInv_findCmd rfl
    · exact hnext (d.emit o) rfl rfl

/-- Every byte keeps the invariant. -/
theorem helpInv_step (h : HelpInv c t) (ch : UInt8) :
    HelpInv c (terminalDataProcessing c t ch) := by
  rw [terminalDataProcessing_eq]
  cases hd : dispatch? c t ch with
  | none => exact helpInv_quiet h hd
  | some dn =>
    obtain ⟨d, next⟩ := dn
    show HelpInv c (commandProcessing c d next.apply)
    rw [commandProcessing_eq]
    exact helpInv_dispatch h hd _

end Invariant

/-! ### The calls of help -/

/-- The step on `ch` calls the handler of the help command in `d`, for a line that has given the
parameter, which is not `all`. -/
structure CallsHelp (c : Console) (t : Terminal) (ch : UInt8) (d : Terminal) : Prop where
  dispatched : ∃ next, dispatch? c t ch = some (d, next)
  norm : d.statusCmdParam = .norm
  cmd : d.cmd? c = some helpCmd
  given : (d.arPrm 0).flagDef = false
  notAll : unionStr (d.arPrm 0) ≠ CStr.textBytes "all"

/-- The step prints the entry of the parameter, or that there is none, if it calls help. -/
def HelpRight (c : Console) (t : Terminal) (ch : UInt8) : Prop :=
  ∀ d, CallsHelp c t ch d → ∃ i, (terminalDataProcessing c t ch).output =
    t.output ++ [.call i (informEffects c.texts (unionStr (d.arPrm 0)))]

/-- The parameter is the last token of the line so far. -/
def NameLast (t : Terminal) : Prop :=
  t.fsmDatPrc = .prcPrm ∧ t.indexParam = 0 ∨ t.fsmDatPrc = .findPrm ∧ t.indexParam = 1

/-- If the step calls help, no token has followed the parameter, or neither the parameter nor the
empty string is the name of a command. -/
def HelpKept (c : Console) (t : Terminal) (ch : UInt8) : Prop :=
  ∀ d, CallsHelp c t ch d →
    NameLast t ∨ Unregistered c.texts (unionStr (t.arPrm 0)) ∧ Unregistered c.texts []

section Calls
variable {c : Console} {t d : Terminal} {ch : UInt8}

/-- A dispatch at the end of the name leaves the parameters alone. -/
theorem dispatch?_prcCmd_arPrm (ht : t.fsmDatPrc = .prcCmd) {next : Follow}
    (h : dispatch? c t ch = some (d, next)) : d.arPrm = t.arPrm := by
  have hrej : ∀ u : Terminal, (rejectUnknown u).arPrm = u.arPrm := by
    intro u
    unfold rejectUnknown
    split_ifs <;> rfl
  simp only [dispatch?, ht] at h
  split_ifs at h <;> cases h <;> simp [hrej]

/-- Where help is called, the buffer holds the parameter or nothing. By the state in which the line
ends: in the name nothing is given, between the parameters the invariant tells what the buffer
holds, and in a token its conversion does. -/
theorem buffer_at_help (h : HelpInv c t) (hcall : CallsHelp c t ch d) :
    unionStr (d.arPrm 0) ≠ [] ∧
      (NameLast t ∧ CStr.ofBuf d.dataPrmCmd = unionStr (d.arPrm 0) ∨
        ¬ NameLast t ∧ d.arPrm 0 = t.arPrm 0 ∧ CStr.ofBuf d.dataPrmCmd = []) := by
  obtain ⟨⟨next, hd⟩, hnorm, hcmd, hgiven, -⟩ := hcall
  cases hf : t.fsmDatPrc with
  | findCmd => simp [dispatch?, hf] at hd
  | prcCmd =>
    -- nothing has been given at the end of the name
    rw [dispatch?_prcCmd_arPrm hf hd, h.prcCmd hf 0] at hgiven
    cases hgiven
  | findPrm =>
    obtain rfl := dispatch?_findPrm_eq hf hd
    obtain ⟨hslot, hne, hbuf⟩ := h.findPrm hf hcmd hgiven
    have hlast : NameLast d ↔ d.indexParam = 1 := by simp [NameLast, hf]
    refine ⟨hne, ?_⟩
    by_cases hone : d.indexParam = 1
    · rw [if_pos hone] at hbuf
      exact .inl ⟨hlast.mpr hone, hbuf⟩
    · rw [if_neg hone] at hbuf
      exact .inr ⟨mt hlast.mp hone, rfl, hbuf⟩
  | prcPrm =>
    obtain rfl := dispatch?_prcPrm_eq hf hd
    have hcmd' : t.cmd? c = some helpCmd := (procParametr_cmd? c t.terminate).symm.trans hcmd
    obtain ⟨hne, hbuf⟩ := h.convert hf hcmd' hnorm hgiven
    have hlast : NameLast t ↔ t.indexParam = 0 := by simp [NameLast, hf]
    refine ⟨hne, ?_⟩
    by_cases hzero : t.indexParam = 0
    · rw [if_pos hzero] at hbuf
      exact .inl ⟨hlast.mpr hzero, hbuf⟩
    · rw [if_neg hzero] at hbuf
      exact .inr ⟨mt hlast.mp hzero, ((procParametr_help hcmd').2 hzero).1, hbuf⟩

/-- What the step prints where help is called. By whether a further token has followed. -/
theorem output_at_help (hcall : CallsHelp c t ch d) :
    ∃ i, (terminalDataProcessing c t ch).output =
      t.output ++ [.call i (informEffects c.texts (CStr.ofBuf d.dataPrmCmd))] := by
  obtain ⟨⟨next, hd⟩, hnorm, hcmd, hgiven, hall⟩ := hcall
  have hcmd' := hcmd
  unfold Terminal.cmd? at hcmd'
  obtain ⟨i, hidx, -⟩ := Option.bind_eq_some_iff.mp hcmd'
  have hout : commandOutput c d =
      some (.call i (informEffects c.texts (CStr.ofBuf d.dataPrmCmd))) := by
    simp only [commandOutput, hnorm, hidx, hcmd]
    rw [← helpCmdHandler_eval hall]
    rfl
  refine ⟨i, ?_⟩
  have hstep := step_output c t ch
  rw [hd, Option.map_some, Option.toList_some, List.filterMap_cons, hout] at hstep
  exact hstep

/-- At every call of the handler, what it prints is right iff the two strings that it mixes up name
the same entry: by the invariant the handler reads the parameter itself, or behind a further token
an empty string. -/
theorem helpRight_iff (h : HelpInv c t) (ch : UInt8) : HelpRight c t ch ↔ HelpKept c t ch := by
  refine forall₂_congr fun d hcall => ?_
  obtain ⟨i, hout⟩ := output_at_help hcall
  obtain ⟨hne, hbuf⟩ := buffer_at_help h hcall
  have hsame : (∃ i, (terminalDataProcessing c t ch).output =
      t.output ++ [.call i (informEffects c.texts (unionStr (d.arPrm 0)))]) ↔
        informEffects c.texts (unionStr (d.arPrm 0)) =
          informEffects c.texts (CStr.ofBuf d.dataPrmCmd) := by
    rw [hout]
    constructor
    · rintro ⟨j, heq⟩
      have hlast := List.append_cancel_left heq
      simp only [List.cons.injEq, Output.call.injEq, and_true] at hlast
      exact hlast.2.symm
    · intro heq
      exact ⟨i, by rw [heq]⟩
  rw [hsame]
  rcases hbuf with ⟨hlast, hbuf⟩ | ⟨hlast, hparam, hbuf⟩
  · rw [hbuf]
    exact iff_of_true rfl (.inl hlast)
  · rw [hbuf, informEffects_eq_iff c.texts hne, hparam]
    exact (or_iff_right hlast).symm

end Calls

/-- For every table and all bytes since power-up: wherever the handler of the help command is
called for a parameter that is given and is not `all`, it prints the entry of the first command
with that name, or that there is none, iff wherever it is called so behind a further token neither
the parameter nor the empty string is the name of a command. -/
theorem help_right_iff (c : Console) (bytes : List UInt8) :
    Along (terminalDataProcessing c) (HelpRight c) Terminal.init bytes ↔
      Along (terminalDataProcessing c) (HelpKept c) Terminal.init bytes := by
  have hinit : HelpInv c Terminal.init := helpInv_findCmd rfl
  have hstep : ∀ t ch, HelpInv c t → HelpRight c t ch → HelpInv c (terminalDataProcessing c t ch) :=
    fun _ ch h _ => helpInv_step h ch
  have hiff : ∀ t ch, HelpInv c t → (HelpRight c t ch ↔ HelpKept c t ch) :=
    fun _ ch h => helpRight_iff h ch
  exact along_congr hstep hiff hinit bytes

/-- The terminal before the end of the line `>help led` with a NUL as a second token. -/
def helpLedNul : Terminal :=
  run (terminalDataProcessing console) Terminal.init (CStr.textBytes ">help led " ++ [0])

/-- The carriage return of that line calls the handler of the help command. -/
theorem callsHelp_ledNul :
    CallsHelp console helpLedNul 0x0D (procParametr console helpLedNul.terminate) where
  dispatched := ⟨.findCmd, by
    have hfsm : helpLedNul.fsmDatPrc = .prcPrm := by decide
    simp only [dispatch?, hfsm]
    rw [if_neg (by decide), if_pos (by decide)]⟩
  norm := by decide
  cmd := by
    have hidx : (procParametr console helpLedNul.terminate).indexCmd = some 0 := by decide
    rw [Terminal.cmd?, hidx]
    rfl
  given := by decide
  notAll := by decide

/-- Help prints that there is no such command. -/
theorem help_misled :
    ¬ Along (terminalDataProcessing console) (HelpRight console) Terminal.init
      (CStr.textBytes ">help led " ++ [0] ++ [0x0D]) := by
  intro h
  rw [along_append] at h
  obtain ⟨i, hright⟩ := h.2.1 _ callsHelp_ledNul
  have hbefore : helpLedNul.output = [] := by decide
  have hafter : (terminalDataProcessing console helpLedNul 0x0D).output =
      [.call 0 [.printf "Invalid parameter\r\n"]] := by decide
  have heffects : informEffects console.texts
      (unionStr ((procParametr console helpLedNul.terminate).arPrm 0)) ≠
        [.printf "Invalid parameter\r\n"] := by decide
  have hcall := hafter.symm.trans hright
  rw [show (run (terminalDataProcessing console) Terminal.init _).output = [] from hbefore] at hcall
  simp only [List.nil_append, List.cons.injEq, Output.call.injEq, and_true] at hcall
  exact heffects hcall.2.symm

end NucleoH743.CmdTrmnl
