import NucleoH743.Flash.Task
import NucleoH743.Proofs.CmdTrmnl.Delivery

/-!
# `Proofs.Flash.CommandQueue`: which commands reach the flash task

`send_cmd_box` does not wait for room in the queue and does not look at the result, and the handler
that calls it prints nothing. A command is lost while the queue does not exist, and while ten boxes
wait behind an operation. A command whose line leaves out a parameter runs with what an earlier
line has left in it.

The proof follows a command through three stages. The handler that the terminal calls on a byte
prints an error or sends one box (`handler_cases`), and whether the box is the operation that the
line has entered depends on the parameters that the line gives itself. `send_cmd_box` puts the box
behind the others, or drops it. And the task takes the boxes in their order, one at a time.

The invariant `InOrder` says that the boxes that were executed, the one in work and those in the
queue are together the operations that were entered. A step that loses a command breaks it for good,
since what was entered is never taken back; any other step keeps it.

- `handler_cases`: a handler prints its error, or sends a box with the operation of its parameters.
- `byte_cases`: what a byte of the terminal does to the flash task.
- `commands_delivered_iff`: along a run the boxes that are executed and those that wait are the
  commands as they were entered, in order, iff no step loses one.
-/

set_option autoImplicit false

namespace NucleoH743.Flash

open EventRun (Along along_congr run)
open CmdTrmnl

/-! ### Texts -/

/-- The value beside the first equal text. -/
def lookupMode {α : Type} (modes : List (String × α)) (mode : List UInt8) : Option α :=
  (modes.find? fun m => CStr.textBytes m.1 = mode).map Prod.snd

/-- To look a mode up and to map its value is to look it up among the mapped values. -/
theorem lookupMode_map {α β : Type} (f : α → β) (modes : List (String × α)) (mode : List UInt8) :
    lookupMode (modes.map fun m => (m.1, f m.2)) mode = (lookupMode modes mode).map f := by
  rw [lookupMode, lookupMode, List.find?_map, Option.map_map, Option.map_map]
  rfl

/-- The string in the union of a parameter. -/
def unionStr (p : CmdParametr) : List UInt8 := CStr.ofBytes ((List.range maxSizeData).map p.raw)

/-- The number in the union of a parameter. -/
def unionU32 (p : CmdParametr) : UInt32 :=
  ((p.raw 0).toNat + 2 ^ 8 * (p.raw 1).toNat + 2 ^ 16 * (p.raw 2).toNat +
    2 ^ 24 * (p.raw 3).toNat).toUInt32

section Strcmp
variable (c : Console) (d : Terminal)

/-- `strcmp` with a text compares the string from byte `j` on, if the union is longer than it. -/
theorem strcmpFrom_eval (i : Fin maxParam) {text : List UInt8} (hnul : 0 ∉ text) (j n : Nat)
    (hlen : text.length < n) : (strcmpFrom i j text).eval (d.read c) =
      decide (CStr.ofBytes ((List.range' j n).map (d.arPrm i).raw) = text) := by
  obtain ⟨m, rfl⟩ : ∃ m, n = m + 1 := ⟨n - 1, by omega⟩
  induction text generalizing j m with
  | nil =>
    show decide ((d.arPrm i).raw j = 0) = _
    by_cases hzero : (d.arPrm i).raw j = 0
    · simp [CStr.ofBytes, List.range'_succ, hzero]
    · simp [CStr.ofBytes, List.range'_succ, hzero]
  | cons b text ih =>
    have hb : b ≠ 0 := fun h => hnul (h ▸ List.mem_cons_self)
    rw [List.length_cons] at hlen
    show (ite ((d.arPrm i).raw j = b) (strcmpFrom i (j + 1) text) (return false)).eval _ = _
    rw [List.range'_succ, List.map_cons]
    by_cases heq : (d.arPrm i).raw j = b
    · -- the first byte is equal, and no NUL
      obtain ⟨k, rfl⟩ : ∃ k, m = k + 1 := ⟨m - 1, by omega⟩
      rw [if_pos heq, ih (fun h => hnul (List.mem_cons_of_mem _ h)) (j + 1) k (by omega)]
      simp [CStr.ofBytes, heq, hb]
    · rw [if_neg heq]
      by_cases hzero : (d.arPrm i).raw j = 0
      · simp [CStr.ofBytes, hzero]
      · simp [CStr.ofBytes, hzero, heq]

/-- The comparisons of a handler look the string of the first parameter up. The texts are compared
one after the other with `strcmp`, and the first that is equal decides. The texts fit the union and
hold no NUL, so nothing behind the string is looked at. -/
theorem selectMode_eval (modes : List (String × List Effect))
    (htexts : ∀ m ∈ modes, 0 ∉ CStr.textBytes m.1 ∧ (CStr.textBytes m.1).length < maxSizeData) :
    (selectMode modes).eval (d.read c) =
      (lookupMode modes (unionStr (d.arPrm 0))).getD [.printf "Invalid parameter\r\n"] := by
  induction modes with
  | nil => rfl
  | cons m modes ih =>
    obtain ⟨hnul, hlen⟩ := htexts m List.mem_cons_self
    have hcmp : (strcmpFrom 0 0 (CStr.textBytes m.1)).eval (d.read c) =
        decide (unionStr (d.arPrm 0) = CStr.textBytes m.1) := by
      rw [strcmpFrom_eval c d 0 hnul 0 maxSizeData hlen, ← List.range_eq_range']
      rfl
    show ((strcmpFrom 0 0 (CStr.textBytes m.1)) >>= fun b =>
      ite (b = true) (return m.2) (selectMode modes)).eval _ = _
    rw [Prog.eval_bind, hcmp]
    -- the first text, or the ones behind it
    by_cases heq : unionStr (d.arPrm 0) = CStr.textBytes m.1
    · have hfind : lookupMode (m :: modes) (unionStr (d.arPrm 0)) = some m.2 := by
        simp [lookupMode, heq]
      rw [hfind, if_pos (decide_eq_true heq)]
      rfl
    · have hfind : lookupMode (m :: modes) (unionStr (d.arPrm 0)) =
          lookupMode modes (unionStr (d.arPrm 0)) := by
        simp [lookupMode, Ne.symm heq]
      rw [hfind, if_neg (by simpa using heq)]
      exact ih fun m' hm' => htexts m' (List.mem_cons_of_mem _ hm')

end Strcmp

/-! ### What a line means -/

/-- The operation of a command with its mode, and for `sector` with its address. -/
def meaning (cmdName : String) (mode : List UInt8) (address : Option UInt32) : Option FlashOp :=
  if cmdName = "qflash" then
    lookupMode [("erase", .cmdChipErase), ("status", .cmdChipStatus)] mode
  else if cmdName = "damp" then
    lookupMode [("fill", .fillDamp .fill), ("rnd", .fillDamp .rnd), ("inc", .fillDamp .inc),
      ("dec", .fillDamp .dec), ("view", .viewDamp)] mode
  else if cmdName = "sector" then
    address.bind fun a =>
      lookupMode [("erase", .cmdEraseSector a), ("wr", .cmdWriteSector a),
        ("rd", .cmdReadSector a), ("cmp", .cmdCompareSector a), ("view", .cmdViewSector a)] mode
  else if cmdName = "fatfs" then
    lookupMode [("format", .cmdFmkfs), ("status", .cmdStatus), ("param", .cmdParam),
      ("mount", .cmdFmount), ("wr", .cmdFwrite), ("rd", .cmdFread)] mode
  else none

/-- The operation that a line enters with the command: from the parameters that it gives itself. -/
def enteredOp (cmdName : String) (d : Terminal) : Option FlashOp :=
  if (d.arPrm 0).flagDef then none
  else
    meaning cmdName (unionStr (d.arPrm 0))
      (if (d.arPrm 1).flagDef then none else some (unionU32 (d.arPrm 1)))

/-- The line gives the mode, and for `sector` the address. -/
def Gives (cmdName : String) (d : Terminal) : Prop :=
  (d.arPrm 0).flagDef = false ∧ (cmdName = "sector" → (d.arPrm 1).flagDef = false)

instance (cmdName : String) (d : Terminal) : Decidable (Gives cmdName d) :=
  inferInstanceAs (Decidable (_ ∧ _))

/-- The commands of `cmd_qspi_flash.c`. -/
def flashCmds : List Cmd := [qflashCmd, dampCmd, sectorCmd, fatfsCmd]

/-- The modes of a handler with their boxes, and the operations of these boxes: the text is the same
in both tables. -/
theorem lookupMode_boxes {boxes : List (String × CmdBox)} {ops : List (String × FlashOp)}
    (h : ops.map (fun m => (m.1, some m.2)) = boxes.map fun m => (m.1, parsingCmdBox m.2))
    (mode : List UInt8) :
    (lookupMode ops mode).map some = (lookupMode boxes mode).map parsingCmdBox := by
  have hops := lookupMode_map some ops mode
  rw [h] at hops
  rw [← hops]
  exact lookupMode_map parsingCmdBox boxes mode

/-- A handler that compares the texts of `boxes` prints an error, or sends the box with the
operation of its text. -/
theorem selectMode_boxes (c : Console) (d : Terminal) (boxes : List (String × CmdBox))
    (ops : List (String × FlashOp))
    (h : ops.map (fun m => (m.1, some m.2)) = boxes.map fun m => (m.1, parsingCmdBox m.2))
    (htexts : ∀ m ∈ boxes, 0 ∉ CStr.textBytes m.1 ∧ (CStr.textBytes m.1).length < maxSizeData) :
    let effects := (selectMode (boxes.map fun m => (m.1, [.sendCmdBox m.2]))).eval (d.read c)
    effects = [.printf "Invalid parameter\r\n"] ∨
      ∃ box op, effects = [.sendCmdBox box] ∧ parsingCmdBox box = some op ∧
        lookupMode ops (unionStr (d.arPrm 0)) = some op := by
  have hsel := selectMode_eval c d (boxes.map fun m => (m.1, [.sendCmdBox m.2])) (by
    intro m hm
    obtain ⟨m', hm', rfl⟩ := List.mem_map.1 hm
    exact htexts m' hm')
  have hboxes := lookupMode_boxes h (unionStr (d.arPrm 0))
  rw [lookupMode_map (fun box => [Effect.sendCmdBox box])] at hsel
  dsimp only
  rw [hsel]
  -- the text is not among the modes, or its box is sent
  cases hbox : lookupMode boxes (unionStr (d.arPrm 0)) with
  | none => exact .inl rfl
  | some box =>
    rw [hbox] at hboxes
    obtain ⟨op, hop, hparse⟩ := Option.map_eq_some_iff.1 hboxes
    exact .inr ⟨box, op, rfl, hparse.symm, hop⟩

/-- The entered operation is the one of the parameters in the terminal, if the line gives them. -/
theorem enteredOp_eq {cmdName : String} {d : Terminal} {op : FlashOp}
    (hsome : meaning cmdName (unionStr (d.arPrm 0)) (some (unionU32 (d.arPrm 1))) = some op)
    (hnone : meaning cmdName (unionStr (d.arPrm 0)) none =
      if cmdName = "sector" then none else some op) :
    enteredOp cmdName d = if Gives cmdName d then some op else none := by
  by_cases hmode : (d.arPrm 0).flagDef = true
  -- without the mode the line means nothing
  · have hnot : ¬ Gives cmdName d := fun h => absurd h.1 (by simp [hmode])
    rw [enteredOp, if_pos hmode, if_neg hnot]
  have hmode' : (d.arPrm 0).flagDef = false := by simpa using hmode
  by_cases haddress : (d.arPrm 1).flagDef = true
  · -- only `sector` misses the address
    have hiff : Gives cmdName d ↔ cmdName ≠ "sector" := by simp [Gives, hmode', haddress]
    rw [enteredOp, if_neg hmode, if_pos haddress, hnone]
    by_cases hname : cmdName = "sector"
    · rw [if_pos hname, if_neg (fun h => hiff.1 h hname)]
    · rw [if_neg hname, if_pos (hiff.2 hname)]
  · have hgives : Gives cmdName d := ⟨hmode', fun _ => by simpa using haddress⟩
    rw [enteredOp, if_neg hmode, if_neg haddress, hsome, if_pos hgives]

/-- What a handler of the four commands does: it prints an error, or it sends a box that
`parsing_cmd_box` executes. The operation is the entered one if the line gives its parameters. -/
theorem handler_cases (c : Console) (d : Terminal) {cmd : Cmd} (hcmd : cmd ∈ flashCmds) :
    cmd.cmdHandlerCb.eval (d.read c) = [.printf "Invalid parameter\r\n"] ∨
      ∃ box op, cmd.cmdHandlerCb.eval (d.read c) = [.sendCmdBox box] ∧
        parsingCmdBox box = some op ∧
        enteredOp cmd.cmdName d = if Gives cmd.cmdName d then some op else none := by
  simp only [flashCmds, List.mem_cons, List.not_mem_nil, or_false] at hcmd
  -- the four commands of the flash, in the order of the list
  rcases hcmd with rfl | rfl | rfl | rfl
  · rcases selectMode_boxes c d [("erase", .chip .erase), ("status", .chip .status)]
      [("erase", .cmdChipErase), ("status", .cmdChipStatus)] rfl (by decide) with
      herror | ⟨box, op, heffects, hparse, hop⟩
    · exact .inl herror
    · exact .inr ⟨box, op, heffects, hparse, enteredOp_eq hop hop⟩
  · -- the code goes into the box, and `parsing_cmd_box` does not look at it
    rcases selectMode_boxes c d
      [("fill", .damp .fill ((d.arPrm 1).raw 0)), ("rnd", .damp .rnd ((d.arPrm 1).raw 0)),
        ("inc", .damp .inc ((d.arPrm 1).raw 0)), ("dec", .damp .dec ((d.arPrm 1).raw 0)),
        ("view", .damp .view ((d.arPrm 1).raw 0))]
      [("fill", .fillDamp .fill), ("rnd", .fillDamp .rnd), ("inc", .fillDamp .inc),
        ("dec", .fillDamp .dec), ("view", .viewDamp)] rfl (by simp; decide) with
      herror | ⟨box, op, heffects, hparse, hop⟩
    · exact .inl herror
    · exact .inr ⟨box, op, heffects, hparse, enteredOp_eq hop hop⟩
  · rcases selectMode_boxes c d
      [("erase", .sector .erase (unionU32 (d.arPrm 1))),
        ("wr", .sector .write (unionU32 (d.arPrm 1))), ("rd", .sector .read (unionU32 (d.arPrm 1))),
        ("cmp", .sector .compare (unionU32 (d.arPrm 1))),
        ("view", .sector .view (unionU32 (d.arPrm 1)))]
      [("erase", .cmdEraseSector (unionU32 (d.arPrm 1))),
        ("wr", .cmdWriteSector (unionU32 (d.arPrm 1))),
        ("rd", .cmdReadSector (unionU32 (d.arPrm 1))),
        ("cmp", .cmdCompareSector (unionU32 (d.arPrm 1))),
        ("view", .cmdViewSector (unionU32 (d.arPrm 1)))] rfl (by simp; decide) with
      herror | ⟨box, op, heffects, hparse, hop⟩
    · exact .inl herror
    · exact .inr ⟨box, op, heffects, hparse, enteredOp_eq hop rfl⟩
  · rcases selectMode_boxes c d
      [("format", .fatfs .format), ("status", .fatfs .status), ("param", .fatfs .param),
        ("mount", .fatfs .mount), ("wr", .fatfs .write), ("rd", .fatfs .read)]
      [("format", .cmdFmkfs), ("status", .cmdStatus), ("param", .cmdParam),
        ("mount", .cmdFmount), ("wr", .cmdFwrite), ("rd", .cmdFread)] rfl (by decide) with
      herror | ⟨box, op, heffects, hparse, hop⟩
    · exact .inl herror
    · exact .inr ⟨box, op, heffects, hparse, enteredOp_eq hop hop⟩

/-! ### A byte of the terminal -/

/-- The firmware's table. -/
def firmware (sscanfLa : List UInt8 → Option UInt64) : Console := ⟨terminalTable, sscanfLa⟩

section Byte
variable (c : Console)

/-- The command whose handler the terminal calls on the byte, and the terminal with its
parameters. -/
def called? (t : Terminal) (ch : UInt8) : Option (Cmd × Terminal) :=
  (dispatch? c t ch).bind fun dn =>
    if dn.1.statusCmdParam = .norm then (dn.1.cmd? c).map fun cmd => (cmd, dn.1) else none

/-- The effect prints a text. -/
def isPrintf : Effect → Bool
  | .printf _ => true
  | .sendCmdBox _ | .report _ | .systemReset => false

/-- The command is one of the four, and its handler prints no error. -/
def Accepts (cmd : Cmd) (d : Terminal) : Prop :=
  cmd.cmdName ∈ ["qflash", "damp", "sector", "fatfs"] ∧
    (cmd.cmdHandlerCb.eval (d.read c)).all (!isPrintf ·)

instance (cmd : Cmd) (d : Terminal) : Decidable (Accepts c cmd d) :=
  inferInstanceAs (Decidable (_ ∧ _))

/-- The effects of the output of a call. They are those of the handler if the status is `STAT_NORM`,
and printing otherwise. -/
theorem commandOutput_effects (d : Terminal) :
    (commandOutput c d).toList.flatMap outputEffects =
      ((if d.statusCmdParam = .norm then d.cmd? c else none).map fun cmd =>
        cmd.cmdHandlerCb.eval (d.read c)).getD [] := by
  by_cases hnorm : d.statusCmdParam = .norm
  · cases hcmd : d.cmd? c with
    -- no command has the index, so nothing is called
    | none =>
      have hout : commandOutput c d = none := by
        simp only [commandOutput, hnorm, hcmd]
        cases d.indexCmd <;> rfl
      rw [hout, if_pos hnorm]
      rfl
    | some cmd =>
      obtain ⟨i, hi, -⟩ := Option.bind_eq_some_iff.1 hcmd
      have hout : commandOutput c d = some (.call i (cmd.cmdHandlerCb.eval (d.read c))) := by
        simp only [commandOutput, hnorm, hi, hcmd]
      rw [hout, if_pos hnorm]
      simp [outputEffects]
  · obtain ⟨text, hout⟩ := commandOutput_error (c := c) hnorm
    rw [hout, if_neg hnorm]
    rfl

/-- A byte performs the effects of the handler that it calls. Whether it calls one is decided by the
terminal alone, and the queue does not influence it. -/
theorem byte_qFlash (s : Tasks) (ch : UInt8) :
    (s.byte c ch).qFlash = (((called? c s.terminal ch).map fun x =>
      x.1.cmdHandlerCb.eval (x.2.read c)).getD []).foldl QFlash.perform s.qFlash := by
  have hout := run_output c s.terminal [ch]
  show (((run (terminalDataProcessing c) s.terminal [ch]).output.drop
    s.terminal.output.length).flatMap outputEffects).foldl QFlash.perform s.qFlash = _
  rw [hout, List.drop_left]
  unfold called?
  -- a byte dispatches at most one command
  cases hd : dispatch? c s.terminal ch with
  | none => simp [dispatches, hd]
  | some dn =>
    have heffects := commandOutput_effects c dn.1
    have hlist : (dispatches c s.terminal [ch]).filterMap (commandOutput c) =
        (commandOutput c dn.1).toList := by
      simp only [dispatches, hd, Option.map_some, Option.toList_some, List.append_nil]
      cases ho : commandOutput c dn.1 with
      | none => simp [ho]
      | some o => simp [ho]
    rw [hlist, heffects, Option.bind_some]
    by_cases hnorm : dn.1.statusCmdParam = .norm
    · rw [if_pos hnorm, if_pos hnorm, Option.map_map]
      rfl
    · rw [if_neg hnorm, if_neg hnorm]
      rfl

/-- Effects that only print. -/
def Inert (effects : List Effect) : Prop := ∀ (q : QFlash), effects.foldl QFlash.perform q = q

/-- A handler without effects does nothing to the queue. -/
theorem inert_nil : Inert [] := fun _ => rfl

/-- A text that is printed does nothing to the queue. -/
theorem inert_printf {text : String} {effects : List Effect} (h : Inert effects) :
    Inert (.printf text :: effects) := h

/-- Neither does a report of the terminal. -/
theorem inert_report {r : CmdTrmnl.Report} {effects : List Effect} (h : Inert effects) :
    Inert (.report r :: effects) := h

/-- A handler that only compares texts does what is beside one of them. -/
theorem selectMode_inert (d : Terminal) (modes : List (String × List Effect))
    (h : ∀ m ∈ modes, Inert m.2) : Inert ((selectMode modes).eval (d.read c)) := by
  induction modes with
  | nil => exact inert_printf inert_nil
  | cons m modes ih =>
    show Inert ((varChIs m.1 >>= fun b => ite (b = true) (return m.2) (selectMode modes)).eval _)
    rw [Prog.eval_bind]
    split_ifs
    · exact h m List.mem_cons_self
    · exact ih fun m' hm' => h m' (List.mem_cons_of_mem _ hm')

/-- `help` only prints, for every command word that it is given. -/
theorem help_inert (d : Terminal) : Inert (helpCmdHandler.eval (d.read c)) := by
  show Inert ((varChIs "all" >>= fun b => ite (b = true) _ printInformCmd).eval _)
  rw [Prog.eval_bind]
  split_ifs
  · show Inert ((c.table.cmds.map Cmd.toCmdText).map printDescripCmd)
    intro q
    induction c.table.cmds with
    | nil => rfl
    | cons cmd cmds ih => exact ih
  · dsimp only [printInformCmd, Bind.bind, Prog.bind, Prog.call, Prog.eval]
    split
    · exact inert_printf inert_nil
    · exact inert_printf (inert_printf (inert_printf inert_nil))

/-- What a registered command does to the flash task: nothing, a reset, or one box. Four of the
eight commands send a box or print an error. Of the others only `reset` reaches the flash task, and
it empties the queue. -/
theorem registered_cases (d : Terminal) {cmd : Cmd} (hcmd : cmd ∈ terminalTable.cmds)
    (q : QFlash) :
    (¬ Accepts c cmd d ∧ cmd.cmdName ≠ "reset" ∧
      (cmd.cmdHandlerCb.eval (d.read c)).foldl QFlash.perform q = q) ∨
    (¬ Accepts c cmd d ∧ cmd.cmdName = "reset" ∧
      (cmd.cmdHandlerCb.eval (d.read c)).foldl QFlash.perform q = .reset q.executed) ∨
    ∃ box op, Accepts c cmd d ∧ cmd.cmdName ≠ "reset" ∧ parsingCmdBox box = some op ∧
      enteredOp cmd.cmdName d = (if Gives cmd.cmdName d then some op else none) ∧
      (cmd.cmdHandlerCb.eval (d.read c)).foldl QFlash.perform q = q.sendCmdBox box := by
  by_cases hflash : cmd ∈ flashCmds
  -- the four commands of the flash task send a box, or print an error
  · have hname : cmd.cmdName ∈ ["qflash", "damp", "sector", "fatfs"] := by
      simp only [flashCmds, List.mem_cons, List.not_mem_nil, or_false] at hflash
      rcases hflash with rfl | rfl | rfl | rfl <;> decide
    have hreset : cmd.cmdName ≠ "reset" := fun h => absurd (h ▸ hname) (by decide)
    rcases handler_cases c d hflash with herror | ⟨box, op, heffects, hparse, hentered⟩
    · refine .inl ⟨fun h => ?_, hreset, ?_⟩
      · have hall := h.2
        rw [herror] at hall
        exact absurd hall (by decide)
      · rw [herror]
        rfl
    · refine .inr (.inr ⟨box, op, ⟨hname, ?_⟩, hreset, hparse, hentered, ?_⟩)
      · rw [heffects]
        rfl
      · rw [heffects]
        rfl
  -- of the other four only `reset` reaches the flash task
  · have htable : terminalTable.cmds =
        [helpCmd, resetCmd, ledCmd, freertosCmd, qflashCmd, dampCmd, sectorCmd, fatfsCmd] := rfl
    rw [htable] at hcmd
    have hrest : cmd = helpCmd ∨ cmd = resetCmd ∨ cmd = ledCmd ∨ cmd = freertosCmd := by
      simp only [flashCmds, List.mem_cons, List.not_mem_nil, or_false, not_or] at hcmd hflash
      tauto
    rcases hrest with rfl | rfl | rfl | rfl
    · exact .inl ⟨fun h => absurd h.1 (by decide), by decide, help_inert c d q⟩
    · exact .inr (.inl ⟨fun h => absurd h.1 (by decide), rfl, rfl⟩)
    · have hinert := selectMode_inert c d [("on", [.printf "LED is on\r\n"]),
        ("off", [.printf "LED is off\r\n"])] (by
          simp only [List.forall_mem_cons, List.not_mem_nil, false_implies, implies_true, and_true]
          exact ⟨inert_printf inert_nil, inert_printf inert_nil⟩)
      exact .inl ⟨fun h => absurd h.1 (by decide), by decide, hinert q⟩
    · have hinert := selectMode_inert c d [("time", [.report .dataTimeWork]),
        ("heap", [.report .freeHeap]), ("all", [.report .dataTimeWork, .report .freeHeap,
          .report .numberTask, .report .titleTask, .report .varTask])] (by
          simp only [List.forall_mem_cons, List.not_mem_nil, false_implies, implies_true, and_true]
          exact ⟨inert_report inert_nil, inert_report inert_nil, inert_report (inert_report
            (inert_report (inert_report (inert_report inert_nil))))⟩)
      exact .inl ⟨fun h => absurd h.1 (by decide), by decide, hinert q⟩

end Byte

/-! ### The boxes of the flash task -/

namespace QFlash

/-- The boxes that have not been executed, oldest first. -/
def waiting (q : QFlash) : List CmdBox :=
  (match q.pc with
    | .parsing box => [box]
    | .notStarted | .wait => []) ++ q.xCmdQueue.getD []

/-- The queue exists and is not full. -/
def HasRoom (q : QFlash) : Prop := ∃ boxes ∈ q.xCmdQueue, boxes.length < cmdQueueLength

instance (q : QFlash) : Decidable q.HasRoom :=
  decidable_of_iff (q.xCmdQueue.any fun boxes => decide (boxes.length < cmdQueueLength)) <| by
    rw [HasRoom, Option.any_eq_true]
    simp

/-- Every box, oldest first. -/
def boxes (q : QFlash) : List CmdBox := q.executed ++ q.waiting

/-- There is no queue before the task. -/
def Started (q : QFlash) : Prop := q.pc = .notStarted → q.xCmdQueue = none

section Calls
variable (q : QFlash)

/-- The start of the task creates the queue, which is empty. -/
theorem boxes_start (created : Bool) : (q.start created).boxes = q.boxes := by
  obtain ⟨queue, pc, executed⟩ := q
  cases pc with
  | notStarted =>
    cases queue with
    | none => cases created <;> rfl
    | some boxes => rfl
  | wait => rfl
  | parsing box => rfl

/-- A box that is received is in the task. -/
theorem boxes_qFlashCntrl : q.qFlashCntrl.boxes = q.boxes := by
  obtain ⟨queue, pc, executed⟩ := q
  cases pc with
  | notStarted => rfl
  | parsing box => rfl
  | wait =>
    cases queue with
    | none => rfl
    | some boxes => cases boxes <;> rfl

/-- A box that has been parsed has moved from the waiting ones to the executed ones, so all of them
are as before. -/
theorem boxes_parsed : q.parsed.boxes = q.boxes := by
  obtain ⟨queue, pc, executed⟩ := q
  cases pc with
  | notStarted => rfl
  | wait => rfl
  | parsing box => exact List.append_assoc executed [box] _

/-- With room in the queue a box comes behind all others. -/
theorem boxes_sendCmdBox {q : QFlash} (h : q.HasRoom) (box : CmdBox) :
    (q.sendCmdBox box).boxes = q.boxes ++ [box] := by
  obtain ⟨boxes, hqueue, hlen⟩ := h
  have hsend : q.sendCmdBox box = { q with xCmdQueue := some (boxes ++ [box]) } := by
    unfold sendCmdBox
    rw [hqueue]
    exact if_pos hlen
  rw [hsend, QFlash.boxes, QFlash.boxes, waiting, waiting, hqueue]
  simp only [Option.getD_some, List.append_assoc]

/-- Without room the box is lost. -/
theorem sendCmdBox_lost {q : QFlash} (h : ¬ q.HasRoom) (box : CmdBox) : q.sendCmdBox box = q := by
  unfold sendCmdBox
  cases hqueue : q.xCmdQueue with
  | none => rfl
  | some boxes => exact if_neg fun hlen => h ⟨boxes, hqueue, hlen⟩

/-- A reset leaves the executed boxes, and those that waited are lost. -/
theorem boxes_reset : (reset q.executed).boxes = q.executed := List.append_nil _

/-! There is no queue before the task starts. -/

/-- After a reset the task has not started, and there is no queue. -/
theorem started_reset (executed : List CmdBox) : (reset executed).Started := fun _ => rfl

variable {q}

/-- The start of the task creates the queue and the task together. -/
theorem Started.start (h : q.Started) (created : Bool) : (q.start created).Started := by
  obtain ⟨queue, pc, executed⟩ := q
  cases pc with
  | notStarted =>
    cases queue with
    | none => exact fun hpc => QFlashPc.noConfusion hpc
    | some boxes => exact fun hpc => QFlashPc.noConfusion hpc
  | wait => exact h
  | parsing box => exact h

/-- A round of the task leaves it started, if it was. -/
theorem Started.qFlashCntrl (h : q.Started) : q.qFlashCntrl.Started := by
  obtain ⟨queue, pc, executed⟩ := q
  cases pc with
  | notStarted => exact h
  | parsing box => exact h
  | wait =>
    cases queue with
    | none => exact h
    | some boxes =>
      cases boxes with
      | nil => exact h
      | cons box boxes => exact fun hpc => QFlashPc.noConfusion hpc

/-- So does a box that has been executed. -/
theorem Started.parsed (h : q.Started) : q.parsed.Started := by
  obtain ⟨queue, pc, executed⟩ := q
  cases pc with
  | notStarted => exact h
  | wait => exact h
  | parsing box => exact fun hpc => QFlashPc.noConfusion hpc

/-- A box that is sent before the task is there is dropped: there is still no queue. -/
theorem Started.sendCmdBox (h : q.Started) (box : CmdBox) : (q.sendCmdBox box).Started := by
  by_cases hroom : q.HasRoom
  · obtain ⟨boxes, hqueue, -⟩ := hroom
    intro hpc
    have hpc' : q.pc = .notStarted := by
      rw [← hpc, QFlash.sendCmdBox, hqueue]
      dsimp only
      split_ifs <;> rfl
    rw [h hpc'] at hqueue
    cases hqueue
  · rw [sendCmdBox_lost hroom]
    exact h

/-- So it is for every effect of a handler. -/
theorem Started.perform (h : q.Started) (effects : List Effect) :
    (effects.foldl QFlash.perform q).Started := by
  induction effects generalizing q with
  | nil => exact h
  | cons effect effects ih =>
    cases effect with
    | printf text => exact ih h
    | sendCmdBox box => exact ih (h.sendCmdBox box)
    | report r => exact ih h
    | systemReset => exact ih (started_reset q.executed)

end Calls

/-! ### The rest of the work -/

/-- `parsing_cmd_box` returns, and then it does so after each of `n` periods. -/
def drain (n : Nat) : List TaskEvent := .parsed :: (List.replicate n [.wake, .parsed]).flatten

/-- What the periods do to a task that waits. -/
theorem run_periods (c : Console) (s : Tasks) {boxes : List CmdBox}
    (hpc : s.qFlash.pc = .wait) (hqueue : s.qFlash.xCmdQueue = some boxes) :
    (run (Tasks.step c) s (List.replicate boxes.length [.wake, .parsed]).flatten).qFlash.executed =
      s.qFlash.executed ++ boxes := by
  obtain ⟨terminal, queue, pc, executed⟩ := s
  obtain rfl : pc = .wait := hpc
  obtain rfl : queue = some boxes := hqueue
  induction boxes generalizing executed with
  | nil => exact (List.append_nil _).symm
  | cons box boxes ih =>
    -- one period takes the first box
    have hrest := ih (executed ++ [box])
    rw [List.append_assoc] at hrest
    exact hrest

/-- As many periods as there are boxes in the queue leave none that has not been executed. By where
the task stands. The box that it holds is executed first, and then one in each period. -/
theorem run_drain (c : Console) (s : Tasks) (h : s.qFlash.Started) :
    (run (Tasks.step c) s (drain (s.qFlash.xCmdQueue.getD []).length)).qFlash.executed =
      s.qFlash.boxes := by
  obtain ⟨terminal, queue, pc, executed⟩ := s
  cases pc with
  | notStarted =>
    obtain rfl : queue = none := h rfl
    exact (List.append_nil _).symm
  | wait =>
    cases queue with
    | none => exact (List.append_nil _).symm
    | some boxes => exact run_periods c ⟨terminal, some boxes, .wait, executed⟩ rfl rfl
  -- the box in hand is executed first, then those of the queue
  | parsing box =>
    have hbox : executed ++ [box] ++ queue.getD [] = executed ++ ([box] ++ queue.getD []) :=
      List.append_assoc ..
    refine Eq.trans ?_ hbox
    cases queue with
    | none => exact (List.append_nil _).symm
    | some boxes => exact run_periods c ⟨terminal, some boxes, .wait, executed ++ [box]⟩ rfl rfl

end QFlash

/-! ### Runs -/

/-- Both tasks, and the operations of the commands that were entered and accepted. A command whose
line leaves out its mode or address has entered no operation. -/
structure Session where
  tasks : Tasks
  entered : List (Option FlashOp)

section Session
variable (c : Console)

/-- The command that the step accepts. -/
def accepted? (s : Tasks) : TaskEvent → Option (Cmd × Terminal)
  | .byte ch => (called? c s.terminal ch).filter fun x => Accepts c x.1 x.2
  | .start _ | .wake | .parsed => none

namespace Session

def init : Session := ⟨Tasks.init, []⟩

def step (s : Session) (e : TaskEvent) : Session where
  tasks := s.tasks.step c e
  entered := s.entered ++
    ((accepted? c s.tasks e).map fun x => enteredOp x.1.cmdName x.2).toList

/-- What is owed to the commands. -/
structure Delivered (s : Session) : Prop where
  /-- each was entered with its mode and address -/
  given : none ∉ s.entered
  /-- what is executed and what waits are the commands, once each and in order -/
  inOrder : s.tasks.qFlash.boxes.map parsingCmdBox = s.entered
  /-- the flash task executes all of them -/
  drained : (run (Tasks.step c) s.tasks
    (QFlash.drain (s.tasks.qFlash.xCmdQueue.getD []).length)).qFlash.executed.map parsingCmdBox =
      s.entered

/-- The step loses a command: one that is accepted without room for its box or without its
parameters, or one that waits during a reset. -/
def Loses (s : Session) : TaskEvent → Prop
  | .byte ch =>
    ∃ x ∈ called? c s.tasks.terminal ch,
      (Accepts c x.1 x.2 ∧ ¬ (Gives x.1.cmdName x.2 ∧ s.tasks.qFlash.HasRoom)) ∨
      (x.1.cmdName = "reset" ∧ s.tasks.qFlash.waiting ≠ [])
  | .start _ | .wake | .parsed => False

end Session

end Session

/-! ### One step -/

/-- The boxes of the flash task are the commands that were entered. -/
structure InOrder (q : QFlash) (entered : List (Option FlashOp)) : Prop where
  given : none ∉ entered
  inOrder : q.boxes.map parsingCmdBox = entered
  started : q.Started

namespace InOrder

variable {q : QFlash} {entered : List (Option FlashOp)}

/-- At the start no command was entered and no box is there. -/
theorem init : InOrder Tasks.init.qFlash Session.init.entered :=
  ⟨List.not_mem_nil, rfl, QFlash.started_reset []⟩

/-- A step that enters nothing leaves the boxes as they are. -/
theorem quiet {q' : QFlash} (h : InOrder q entered) (hboxes : q'.boxes = q.boxes)
    (hstarted : q'.Started) : InOrder q' (entered ++ []) := by
  rw [List.append_nil]
  exact ⟨h.given, (congrArg _ hboxes).trans h.inOrder, hstarted⟩

/-- A box that finds room is one more command. -/
theorem send (h : InOrder q entered) (hroom : q.HasRoom) {box : CmdBox} {op : FlashOp}
    (hparse : parsingCmdBox box = some op) : InOrder (q.sendCmdBox box) (entered ++ [some op]) where
  given := by
    intro hmem
    rcases List.mem_append.1 hmem with hold | hnew
    · exact h.given hold
    · exact absurd (List.mem_singleton.1 hnew) (Option.some_ne_none op).symm
  inOrder := by
    rw [QFlash.boxes_sendCmdBox hroom, List.map_append, h.inOrder, List.map_singleton, hparse]
  started := h.started.sendCmdBox box

/-- A command without its box is missing. -/
theorem not_lost (h : InOrder q entered) (op : Option FlashOp) : ¬ InOrder q (entered ++ [op]) := by
  intro hnew
  have hlen := congrArg List.length (h.inOrder.symm.trans hnew.inOrder)
  rw [List.length_append, List.length_singleton] at hlen
  omega

/-- A reset takes the boxes that wait. -/
theorem reset_iff (h : InOrder q entered) :
    InOrder (.reset q.executed) entered ↔ q.waiting = [] := by
  constructor
  · intro hreset
    have horder := hreset.inOrder.trans h.inOrder.symm
    rw [QFlash.boxes_reset, QFlash.boxes, List.map_append, List.self_eq_append_right] at horder
    exact List.map_eq_nil_iff.1 horder
  · intro hwaiting
    refine ⟨h.given, ?_, QFlash.started_reset _⟩
    rw [QFlash.boxes_reset, ← h.inOrder, QFlash.boxes, hwaiting, List.append_nil]

end InOrder

section Session
variable (c : Console)

/-- The terminal calls handlers of its table only. -/
theorem called_mem {t : Terminal} {ch : UInt8} {x : Cmd × Terminal} (h : called? c t ch = some x) :
    x.1 ∈ c.table.cmds := by
  obtain ⟨dn, -, hcmd⟩ := Option.bind_eq_some_iff.1 h
  split_ifs at hcmd
  obtain ⟨cmd, hentry, rfl⟩ := Option.map_eq_some_iff.1 hcmd
  obtain ⟨i, -, hi⟩ := Option.bind_eq_some_iff.1 hentry
  exact List.mem_of_getElem? hi

namespace Session

/-- Nothing is owed iff the boxes, in their order, are the operations of the commands that were
entered. -/
theorem delivered_iff {s : Session} (h : s.tasks.qFlash.Started) :
    s.Delivered c ↔ InOrder s.tasks.qFlash s.entered := by
  constructor
  · rintro ⟨hgiven, horder, -⟩
    exact ⟨hgiven, horder, h⟩
  · rintro ⟨hgiven, horder, -⟩
    refine ⟨hgiven, horder, ?_⟩
    rw [QFlash.run_drain c s.tasks h]
    exact horder

/-- The task starts before there is a queue, whatever the step is. -/
theorem started_step {s : Session} (h : s.tasks.qFlash.Started) (e : TaskEvent) :
    (s.step c e).tasks.qFlash.Started := by
  cases e with
  | byte ch =>
    show (s.tasks.byte c ch).qFlash.Started
    rw [byte_qFlash]
    exact h.perform _
  | start created => exact h.start created
  | wake => exact h.qFlashCntrl
  | parsed => exact h.parsed

variable (sscanfLa : List UInt8 → Option UInt64)

/-- A byte keeps the commands in order iff it loses none. A byte that calls no handler changes
neither side. Where one is called, the cases of `registered_cases` are compared with what was
entered. -/
theorem inOrder_byte_iff {s : Session} (h : InOrder s.tasks.qFlash s.entered) (ch : UInt8) :
    InOrder (s.step (firmware sscanfLa) (.byte ch)).tasks.qFlash
        (s.step (firmware sscanfLa) (.byte ch)).entered ↔
      ¬ s.Loses (firmware sscanfLa) (.byte ch) := by
  show InOrder (s.tasks.byte _ ch).qFlash
    (s.entered ++ (((called? (firmware sscanfLa) s.tasks.terminal ch).filter fun x =>
      Accepts (firmware sscanfLa) x.1 x.2).map fun x => enteredOp x.1.cmdName x.2).toList) ↔
    ¬ ∃ x ∈ called? (firmware sscanfLa) s.tasks.terminal ch,
      (Accepts (firmware sscanfLa) x.1 x.2 ∧
        ¬ (Gives x.1.cmdName x.2 ∧ s.tasks.qFlash.HasRoom)) ∨
      (x.1.cmdName = "reset" ∧ s.tasks.qFlash.waiting ≠ [])
  rw [byte_qFlash]
  cases hcalled : called? (firmware sscanfLa) s.tasks.terminal ch with
  | none =>
    -- no handler is called
    exact iff_of_true (h.quiet rfl h.started) (by simp)
  | some x =>
    simp only [Option.mem_some, exists_eq_left', Option.map_some, Option.getD_some]
    rcases registered_cases (firmware sscanfLa) x.2 (called_mem _ hcalled) s.tasks.qFlash with
      ⟨hacc, hname, heq⟩ | ⟨hacc, hname, heq⟩ | ⟨box, op, hacc, hname, hparse, hentered, heq⟩
    · rw [heq, Option.filter_some_neg (by simpa using hacc)]
      exact iff_of_true (h.quiet rfl h.started) (by simp [hacc, hname])
    · -- a reset
      rw [heq, Option.filter_some_neg (by simpa using hacc)]
      have hreset := h.reset_iff
      simpa [hacc, hname] using hreset
    · rw [heq, Option.filter_some_pos (by simpa using hacc)]
      simp only [Option.map_some, Option.toList_some, hentered]
      have hloses : (Accepts (firmware sscanfLa) x.1 x.2 ∧
          ¬ (Gives x.1.cmdName x.2 ∧ s.tasks.qFlash.HasRoom)) ∨
          (x.1.cmdName = "reset" ∧ s.tasks.qFlash.waiting ≠ []) ↔
          ¬ (Gives x.1.cmdName x.2 ∧ s.tasks.qFlash.HasRoom) := by
        simp [hacc, hname]
      rw [hloses, not_not]
      by_cases hgives : Gives x.1.cmdName x.2
      · rw [if_pos hgives]
        by_cases hroom : s.tasks.qFlash.HasRoom
        · exact iff_of_true (h.send hroom hparse) ⟨hgives, hroom⟩
        · rw [QFlash.sendCmdBox_lost hroom]
          exact iff_of_false (h.not_lost _) fun hboth => hroom hboth.2
      · rw [if_neg hgives]
        refine iff_of_false (fun hnew => ?_) fun hboth => hgives hboth.1
        exact hnew.given (List.mem_append_right _ List.mem_cons_self)

/-- A step keeps the commands in order iff it loses none. By the event: a byte may lose one, and
what the task does takes the boxes in their order. -/
theorem inOrder_step_iff {s : Session} (h : InOrder s.tasks.qFlash s.entered) (e : TaskEvent) :
    InOrder (s.step (firmware sscanfLa) e).tasks.qFlash (s.step (firmware sscanfLa) e).entered ↔
      ¬ s.Loses (firmware sscanfLa) e := by
  cases e with
  | byte ch => exact inOrder_byte_iff sscanfLa h ch
  -- the steps of the task move a box from the queue to the executed ones, or none
  | start created =>
    have hboxes := s.tasks.qFlash.boxes_start created
    exact iff_of_true (h.quiet hboxes (h.started.start created)) id
  | wake =>
    have hboxes := s.tasks.qFlash.boxes_qFlashCntrl
    exact iff_of_true (h.quiet hboxes h.started.qFlashCntrl) id
  | parsed =>
    have hboxes := s.tasks.qFlash.boxes_parsed
    exact iff_of_true (h.quiet hboxes h.started.parsed) id

/-- Along a run the commands are executed once each, in order and as they were entered, iff no step
loses one. The steps are the bytes of the terminal and those of the flash task, in any order. A step
loses a command where the queue has no room for its box or the line has not given its parameters,
and a reset loses those that wait. -/
theorem commands_delivered_iff (es : List TaskEvent) :
    Along (step (firmware sscanfLa)) (fun s e => Delivered (firmware sscanfLa)
        (s.step (firmware sscanfLa) e)) init es ↔
      Along (step (firmware sscanfLa)) (fun s e => ¬ s.Loses (firmware sscanfLa) e) init es := by
  have hiff : ∀ (s : Session) (e : TaskEvent), InOrder s.tasks.qFlash s.entered →
      (Delivered (firmware sscanfLa) (s.step (firmware sscanfLa) e) ↔
        ¬ s.Loses (firmware sscanfLa) e) := fun s e h =>
    (delivered_iff _ (started_step _ h.started e)).trans (inOrder_step_iff sscanfLa h e)
  have hstep : ∀ (s : Session) (e : TaskEvent), InOrder s.tasks.qFlash s.entered →
      Delivered (firmware sscanfLa) (s.step (firmware sscanfLa) e) →
      InOrder (s.step (firmware sscanfLa) e).tasks.qFlash
        (s.step (firmware sscanfLa) e).entered := fun s e h =>
    (delivered_iff _ (started_step _ h.started e)).1
  -- the order that a step keeps is the invariant for the next one
  exact along_congr hstep hiff InOrder.init es

/-- The bytes of a text come in. -/
def typed (text : String) : List TaskEvent := (CStr.textBytes text).map .byte

/-- Eleven commands during an erase of the chip: the last one is not executed. -/
theorem command_lost : ¬ ∀ (sscanfLa : List UInt8 → Option UInt64) (es : List TaskEvent),
    Along (step (firmware sscanfLa)) (fun s e => Delivered (firmware sscanfLa)
      (s.step (firmware sscanfLa) e)) init es := by
  intro h
  have hlast := (EventRun.along_append _ _ _ (.start true :: typed ">qflash erase\r" ++ .wake ::
    (List.replicate 11 (typed ">qflash status\r")).flatten) [.wake]).1 (h (fun _ => none) _)
  exact absurd hlast.2.1.inOrder (by decide +kernel)

end Session

end Session

end NucleoH743.Flash
