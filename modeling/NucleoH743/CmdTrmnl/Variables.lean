import NucleoH743.CmdTrmnl.Process

/-!
# `CmdTrmnl.Variables`: the command terminal on its bytes

The state machine of `cmd_process.c` once more, on the variables as the code has them: the
indices are bytes, 255 stands for a command that was not found, and the arrays are memory that
an index can leave. Each access whose index is computed is noted, and so is each use of
`data_prm_cmd` as a string.

A string that has no NUL in its buffer, and a command behind the end of the table, are beyond
the model; the notes show that the terminal never comes there.

There are two models of one machine because each hides what the other shows. In `CmdTrmnl.Process`
an index is a number below the size of its array, so no access can be out of bounds, and the
properties of the lines are stated without a word on bounds. Here an index is a byte that wraps, and
whether it stays in bounds is the question.

The definitions go function by function with those of `CmdTrmnl.Process`. That both are the same
machine, and that all noted accesses are in bounds, is proved in `Proofs.CmdTrmnl.Safety`.
-/

set_option autoImplicit false

namespace NucleoH743.CmdTrmnl.Raw

/-- What is noted. -/
inductive Access where
  /-- a store in `data_prm_cmd[i]` -/
  | dataPrmCmd (i : Nat)
  /-- `ar_prm[i]` -/
  | arPrm (i : Nat)
  /-- `array_cmd[i]` -/
  | arrayCmd (i : Nat)
  /-- `array_cmd[i]->cmd_type_parametr[j]` -/
  | cmdTypeParametr (i j : Nat)
  /-- `data_prm_cmd` is scanned or converted, with these bytes in it -/
  | string (bytes : Nat → UInt8)
  /-- the handler of command `i` is called -/
  | handler (i : Nat)

/-- The variables of the terminal, what it has done, and its accesses, oldest first. -/
structure Terminal where
  fsmDatPrc : FsmDatPrc
  indexDat : UInt8
  indexParam : UInt8
  indexCmd : UInt8
  numCmdParam : UInt8
  statusCmdParam : StatCmd
  dataPrmCmd : Nat → UInt8
  arPrm : Nat → CmdParametr
  output : List Output
  accesses : List Access

namespace Terminal

/-- The terminal after power-up. -/
def init : Terminal where
  fsmDatPrc := .findCmd
  indexDat := 0
  indexParam := 0
  indexCmd := 0
  numCmdParam := 0
  statusCmdParam := .norm
  dataPrmCmd := fun _ => 0
  arPrm := fun _ => { flagDef := false, raw := fun _ => 0 }
  output := []
  accesses := []

/-- Note an access. -/
def note (t : Terminal) (a : Access) : Terminal := { t with accesses := t.accesses ++ [a] }

/-- Add to the output. -/
def emit (t : Terminal) (o : Output) : Terminal := { t with output := t.output ++ [o] }

/-- `data_prm_cmd[i] = ch` -/
def store (t : Terminal) (i : UInt8) (ch : UInt8) : Terminal :=
  { t.note (.dataPrmCmd i.toNat) with
    dataPrmCmd := Function.update t.dataPrmCmd i.toNat ch }

/-- The buffer of `data_prm_cmd`. -/
def buf (t : Terminal) (j : Fin maxSizeData) : UInt8 := t.dataPrmCmd j

/-- `data_prm_cmd` is used as a string. -/
def useString (t : Terminal) : Terminal := t.note (.string t.dataPrmCmd)

/-- Store a byte at `index_dat`, which stops at the end of the buffer. -/
def load (t : Terminal) (ch : UInt8) : Terminal :=
  { t.store t.indexDat ch with
    indexDat := if t.indexDat.toNat < maxSizeData - 1 then t.indexDat + 1 else t.indexDat }

/-- `data_prm_cmd[index_dat] = 0` -/
def terminate (t : Terminal) : Terminal := t.store t.indexDat 0

end Terminal

section Step
variable (c : Console) (t : Terminal) (ch : UInt8)

/-- The loop of `scan_cmd` from command `i` on. -/
def scanLoop : List Cmd → UInt8 → Terminal → UInt8 × Terminal
  | [], _, t => (255, t)
  | cmd :: cmds, i, t =>
    let t := (t.note (.arrayCmd i.toNat)).useString
    if CStr.ofBuf t.buf = CStr.textBytes cmd.cmdName then (i, { t with statusCmdParam := .norm })
    else scanLoop cmds (i + 1) t

/-- `scan_cmd` -/
def scanCmd : UInt8 × Terminal := scanLoop c.table.cmds 0 t

/-- `array_cmd[index]`, noted. -/
def cmdAt (index : UInt8) : Option Cmd × Terminal :=
  (c.table.cmds[index.toNat]?, t.note (.arrayCmd index.toNat))

/-- `cmd_type_parametr[i]` of the command `index`, noted. -/
def typeAt (index : UInt8) (cmd : Cmd) (i : UInt8) : TypeCmdPrmtr × Terminal :=
  (if h : i.toNat < maxParam then cmd.cmdTypeParametr ⟨i.toNat, h⟩ else .none,
    t.note (.cmdTypeParametr index.toNat i.toNat))

/-- The loop of `get_num_cmd_param`, for at most `turns` rounds from parameter `i` on. -/
def numLoop (index : UInt8) (cmd : Cmd) : (turns : Nat) → UInt8 → Terminal → UInt8 × Terminal
  | 0, i, t => (i, t)
  | turns + 1, i, t =>
    let (type, t) := typeAt t index cmd i
    if type = .none then (i, t) else numLoop index cmd turns (i + 1) t

/-- `get_num_cmd_param` -/
def getNumCmdParam (index : UInt8) : UInt8 × Terminal :=
  match cmdAt c t index with
  | (some cmd, t) => numLoop index cmd maxParam 0 t
  | (none, t) => (0, t)

/-- What a handler reads. -/
def read : (r : Rd) → Terminal → r.Res × Terminal
  | .raw i j, t => ((t.arPrm i).raw j, t.note (.arPrm i))
  | .flagDef i, t => ((t.arPrm i).flagDef, t.note (.arPrm i))
  | .dataPrmCmd, t => (CStr.ofBuf t.buf, t.useString)
  | .arrayCmd, t => (c.table.cmds.map Cmd.toCmdText, t)

/-- `preset_cmd` -/
def presetCmd : Terminal :=
  { t with
    statusCmdParam := .cmdNotLoaded
    arPrm := fun i => if i < maxParam then { t.arPrm i with flagDef := true } else t.arPrm i
    indexDat := 0
    accesses := t.accesses ++ (List.range maxParam).map .arPrm }

/-- `command_processing`. `next` is what the caller does when it returns. -/
def commandProcessing (next : Terminal → Terminal) : Terminal :=
  match t.statusCmdParam with
  | .norm =>
    match cmdAt c (t.note (.handler t.indexCmd.toNat)) t.indexCmd with
    | (some cmd, t) =>
      let (effects, t) := cmd.cmdHandlerCb.run (read c) t
      if .systemReset ∈ effects then
        { Terminal.init with
          output := t.output ++ [.call t.indexCmd.toNat effects]
          accesses := t.accesses }
      else next (t.emit (.call t.indexCmd.toNat effects))
    | (none, t) => next t
  | .incorrectParam => next (t.emit (.printf "Неккоректные данные  \r\n\r\n"))
  | .overflow => next (t.emit (.printf "Переполнение  \r\n\r\n"))
  | .dataIsEmpty => next (t.emit (.printf "Данные отсутствуют  \r\n\r\n"))
  | .cmdNotLoaded => next (t.emit (.printf "Команда не загружена  \r\n\r\n"))
  | .incorrectCmd => next (t.emit (.printf "Неккоректная команда  \r\n\r\n"))

/-- Back to the search for a line. -/
def findCmd : Terminal := { t with fsmDatPrc := .findCmd }

/-- Start a new line. -/
def startCmd : Terminal := presetCmd { t with fsmDatPrc := .prcCmd }

/-- `proc_parametr` -/
def procParametr : Terminal :=
  if t.indexCmd ≠ 255 then
    match cmdAt c t t.indexCmd with
    | (some cmd, t) =>
      let (type, t) := typeAt t t.indexCmd cmd t.indexParam
      let t := (t.note (.arPrm t.indexParam.toNat)).useString
      let (status, p) := getParametrCmd c t.buf type (t.arPrm t.indexParam.toNat)
      { t with
        statusCmdParam := status
        arPrm := Function.update t.arPrm t.indexParam.toNat p }
    | (none, t) => t
  else { t with statusCmdParam := .incorrectCmd }

/-- The end of the command word. -/
def lookupCmd : Terminal :=
  let (i, t) := scanCmd c t.terminate
  let t := { t with indexCmd := i }
  if t.indexCmd ≠ 255 then
    let (n, t) := getNumCmdParam c t t.indexCmd
    { t with numCmdParam := n }
  else { t with numCmdParam := 0 }

/-- A command that is not in the table. -/
def rejectUnknown : Terminal :=
  if t.indexCmd = 255 then { t with statusCmdParam := .incorrectCmd } else t

/-- `case PRC_CMD` -/
def prcCmd : Terminal :=
  if ch = 0x20 ∨ isEol ch ∨ ch = 0x3E then
    let t := lookupCmd c t
    if ch = 0x3E then commandProcessing c (rejectUnknown t) startCmd
    else if isEol ch then commandProcessing c (rejectUnknown t) findCmd
    else if t.indexCmd ≠ 255 then
      if t.numCmdParam > 0 then { t with indexParam := 0, fsmDatPrc := .findPrm }
      else commandProcessing c { t with statusCmdParam := .norm } id
    else commandProcessing c { t with statusCmdParam := .incorrectCmd } findCmd
  else t.load ch

/-- `case FIND_PRM` -/
def findPrm : Terminal :=
  if ch = 0x20 then t
  else if isEol ch then commandProcessing c t findCmd
  else if ch = 0x3E then commandProcessing c t startCmd
  else { t.store 0 ch with indexDat := 1, fsmDatPrc := .prcPrm }

/-- `case PRC_PRM` -/
def prcPrm : Terminal :=
  if ch = 0x20 then
    let t := procParametr c t.terminate
    if t.indexParam.toNat < maxParam - 1 ∧ t.statusCmdParam = .norm then
      { t with indexParam := t.indexParam + 1, fsmDatPrc := .findPrm }
    else commandProcessing c t findCmd
  else if isEol ch then commandProcessing c (procParametr c t.terminate) findCmd
  else if ch = 0x3E then commandProcessing c (procParametr c t.terminate) startCmd
  else t.load ch

/-- `terminal_data_processing` -/
def terminalDataProcessing : Terminal :=
  match t.fsmDatPrc with
  | .findCmd => if ch = 0x3E then startCmd t else t
  | .prcCmd => prcCmd c t ch
  | .findPrm => findPrm c t ch
  | .prcPrm => prcPrm c t ch

end Step

/-- The access stays within its array, the string ends within the buffer, and the handler is
that of a registered command. -/
def InBounds (c : Console) : Access → Prop
  | .dataPrmCmd i => i < maxSizeData
  | .arPrm i => i < maxParam
  | .arrayCmd i => i < c.table.cmds.length
  | .cmdTypeParametr i j => i < c.table.cmds.length ∧ j < maxParam
  | .string bytes => ∃ j < maxSizeData, bytes j = 0
  | .handler i => i < c.table.cmds.length

end NucleoH743.CmdTrmnl.Raw
