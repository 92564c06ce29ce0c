import Mathlib.Algebra.Group.Int.Defs
import Mathlib.Algebra.Group.Nat.Defs
import Mathlib.Algebra.GroupWithZero.Nat
import Mathlib.Data.Fin.VecNotation
import Mathlib.Logic.Function.Basic
import NucleoH743.Lib.CStr
import NucleoH743.Lib.Prog

/-!
# `CmdTrmnl.Process`: the command terminal

The command table, the conversion of parameters and the state machine of `cmd_process.c`,
which takes one byte at a time.

A handler gets a pointer to `ar_prm` and reads what it wants through it. The model makes every
read an operation (`Rd`), so a handler is a program over reads that returns its effects. The
union of a parameter is its bytes; a handler that reads a member of the union reads the bytes
of that member.

`scan_cmd` also stores `STAT_NORM`. A handler that calls it runs under `STAT_NORM` already, so
the handlers of the model leave the terminal alone.

The state machine has four states and moves on each byte: `FIND_CMD` waits for the `>` that starts a
line, `PRC_CMD` loads the name of the command, `FIND_PRM` and `PRC_PRM` do the same for each
parameter, and the byte that ends the line calls `command_processing`. What the terminal prints and
which handlers it calls is its `output`, oldest first.

The conversions are those of `sscanf` with `%lu` and `%li`: the value saturates, a minus sign is
accepted for an unsigned type, and `%li` takes a leading `0` as octal. `%la` is a parameter of the
model (`Console`), as no command of the firmware uses the type.

The table, its texts and the handlers come with the `Console`, so that every theorem is about any
table that fits the array. `CmdTrmnl.Handlers` has the table of the firmware, and
`CmdTrmnl.Variables` has the same machine on the bytes that the code works on.
-/

set_option autoImplicit false

namespace NucleoH743.CmdTrmnl

/-- `MAX_PARAM` -/
abbrev maxParam : Nat := 5

/-- `MAX_SIZE_DATA` -/
abbrev maxSizeData : Nat := 30

instance neZero_maxParam : NeZero maxParam := ⟨Nat.succ_ne_zero 4⟩

instance neZero_maxSizeData : NeZero maxSizeData := ⟨Nat.succ_ne_zero 29⟩

/-- `MAX_SIZE_NUM_CMD` -/
def maxSizeNumCmd : Nat := 20

/-- `fsm_dat_prc_e` -/
inductive FsmDatPrc where
  | findCmd | prcCmd | findPrm | prcPrm
  deriving DecidableEq, Repr

/-- `stat_cmd_e` -/
inductive StatCmd where
  | norm | incorrectParam | overflow | dataIsEmpty | cmdNotLoaded | incorrectCmd
  deriving DecidableEq, Repr

/-- `type_cmd_prmtr_e` -/
inductive TypeCmdPrmtr where
  | none | uint8 | int8 | uint16 | int16 | uint32 | int32 | uint64 | int64 | float | double
  | char | string
  deriving DecidableEq, Repr

/-- `cmd_parametr_t` -/
structure CmdParametr where
  flagDef : Bool
  /-- the bytes of the union, least significant first -/
  raw : Nat → UInt8

/-- Overwrite the first bytes of the union. -/
def CmdParametr.store (p : CmdParametr) (bytes : List UInt8) : CmdParametr :=
  { p with raw := fun j => bytes.getD j (p.raw j) }

/-! ### Handlers -/

/-- `id_mode_qflash_e` -/
inductive IdMode where
  | status | param | format | mount | write | read | view | compare | fill | rnd | inc | dec
  | erase
  deriving DecidableEq, Repr

/-- `cmd_box_qflash_t`: the id and the member of the union that the flash task reads under
that id. -/
inductive CmdBox where
  | chip (idMode : IdMode)
  | sector (idMode : IdMode) (address : UInt32)
  | fatfs (idMode : IdMode)
  | damp (idMode : IdMode) (codeFill : UInt8)
  deriving DecidableEq, Repr

/-- What `freertos_cmd_handler` prints about the scheduler. -/
inductive Report where
  | dataTimeWork | freeHeap | numberTask | titleTask | varTask
  deriving DecidableEq, Repr

/-- What a handler does. -/
inductive Effect where
  | printf (text : String)
  /-- `send_cmd_box` -/
  | sendCmdBox (box : CmdBox)
  | report (r : Report)
  /-- `NVIC_SystemReset`, which does not return -/
  | systemReset
  deriving DecidableEq, Repr

/-- What `command_processing` does. -/
inductive Output where
  /-- the call of the handler of command `index`, with what it does -/
  | call (index : Nat) (effects : List Effect)
  | printf (text : String)
  deriving DecidableEq, Repr

/-- The texts of a command. -/
structure CmdText where
  cmdName : String
  cmdDescrip : String
  cmdInform : String

/-- What a handler can read. -/
inductive Rd where
  /-- byte `j` of the union of parameter `i` -/
  | raw (i : Fin maxParam) (j : Nat)
  /-- the flag of parameter `i` -/
  | flagDef (i : Fin maxParam)
  /-- the string in `data_prm_cmd` -/
  | dataPrmCmd
  /-- the texts in `array_cmd` -/
  | arrayCmd

/-- What a read gives. -/
def Rd.Res : Rd → Type
  | raw _ _ => UInt8
  | flagDef _ => Bool
  | dataPrmCmd => List UInt8
  | arrayCmd => List CmdText

/-- A command handler: it reads, and returns its effects, oldest first. -/
abbrev Handler := Prog Rd Rd.Res (List Effect)

/-- `cmd_t` -/
structure Cmd extends CmdText where
  cmdTypeParametr : Fin maxParam → TypeCmdPrmtr
  cmdHandlerCb : Handler

/-- `array_cmd` and `max_num_cmd`: the registered commands. -/
structure CmdTable where
  cmds : List Cmd
  le : cmds.length ≤ maxSizeNumCmd

/-- The empty table fits. -/
theorem length_noCmds_le : ([] : List Cmd).length ≤ maxSizeNumCmd := by decide

/-- `add_terminal_cmd`. The flag tells that the table was full. -/
def addTerminalCmd (table : CmdTable) (cmd : Cmd) : CmdTable × Bool :=
  if h : table.cmds.length < maxSizeNumCmd then
    ({ cmds := table.cmds ++ [cmd], le := by rw [List.length_append]; exact h }, false)
  else (table, true)

/-- The terminal's surroundings: the command table, and the `%la` conversion of `sscanf`, which
gives the bits of a double. -/
structure Console where
  table : CmdTable
  sscanfLa : List UInt8 → Option UInt64

/-! ### Conversion -/

/-- `isspace` -/
def isspace (c : UInt8) : Bool := c = 32 ∨ (9 ≤ c ∧ c ≤ 13)

/-- The value of a digit in bases up to 16. -/
def digit (c : UInt8) : Option Nat :=
  if 48 ≤ c ∧ c ≤ 57 then some (c.toNat - 48)
  else if 97 ≤ c ∧ c ≤ 102 then some (c.toNat - 87)
  else if 65 ≤ c ∧ c ≤ 70 then some (c.toNat - 55)
  else none

/-- The digits of base `base` that start a string. -/
def digits (base : Nat) : List UInt8 → List Nat
  | [] => []
  | c :: cs =>
    match digit c with
    | some d => if d < base then d :: digits base cs else []
    | none => []

/-- The number that the digits at the start of a string write, if there are any. -/
def number (base : Nat) (str : List UInt8) : Option Nat :=
  match digits base str with
  | [] => none
  | ds => some (ds.foldl (fun v d => v * base + d) 0)

/-- The sign that starts a string, and what follows it. -/
def sign : List UInt8 → Bool × List UInt8
  | 45 :: cs => (true, cs)
  | 43 :: cs => (false, cs)
  | cs => (false, cs)

/-- `sscanf(str, "%lu", &v)`: decimal, as `strtoul` converts it. -/
def sscanfLu (str : List UInt8) : Option Nat :=
  let (neg, rest) := sign (str.dropWhile isspace)
  match number 10 rest with
  | none => none
  | some v =>
    if 2 ^ 32 ≤ v then some (2 ^ 32 - 1)
    else if neg then some ((2 ^ 32 - v) % 2 ^ 32)
    else some v

/-- The digits that `%i` accepts: hexadecimal after `0x`, octal after `0`, else decimal. -/
def numberI : List UInt8 → Option Nat
  | 48 :: 120 :: cs => number 16 cs
  | 48 :: 88 :: cs => number 16 cs
  | 48 :: cs => number 8 (48 :: cs)
  | cs => number 10 cs

/-- `sscanf(str, "%li", &v)`, as `strtol` converts it. -/
def sscanfLi (str : List UInt8) : Option Int :=
  let (neg, rest) := sign (str.dropWhile isspace)
  match numberI rest with
  | none => none
  | some v => some (if neg then max (-(v : Int)) (-2 ^ 31) else min (v : Int) (2 ^ 31 - 1))

/-- The `n` low bytes of a number, least significant first. -/
def leBytes (n v : Nat) : List UInt8 := (List.range n).map fun i => (v / 256 ^ i % 256).toUInt8

/-- The bytes of a signed number in two's complement. -/
def leBytesInt (n : Nat) (v : Int) : List UInt8 := leBytes n (v % 2 ^ (8 * n)).toNat

/-- The conversion to an unsigned type of `n` bytes. -/
def convertUint (n : Nat) (str : List UInt8) (p : CmdParametr) : StatCmd × CmdParametr :=
  match sscanfLu str with
  | some v => if v < 256 ^ n then (.norm, p.store (leBytes n v)) else (.overflow, p)
  | none => (.incorrectParam, p)

/-- The conversion to a signed type of `n` bytes. -/
def convertInt (n : Nat) (str : List UInt8) (p : CmdParametr) : StatCmd × CmdParametr :=
  match sscanfLi str with
  | some v =>
    if v < 2 ^ (8 * n - 1) ∧ -2 ^ (8 * n - 1) ≤ v then (.norm, p.store (leBytesInt n v))
    else (.overflow, p)
  | none => (.incorrectParam, p)

/-- `get_parametr_cmd` -/
def getParametrCmd (c : Console) (dataPrmCmd : Fin maxSizeData → UInt8) (type : TypeCmdPrmtr)
    (parametr : CmdParametr) : StatCmd × CmdParametr :=
  let str := CStr.ofBuf dataPrmCmd
  let p := { parametr with flagDef := false }
  if dataPrmCmd 0 = 0 then (.norm, { p with flagDef := true })
  else
    match type with
    | .uint8 => convertUint 1 str p
    | .uint16 => convertUint 2 str p
    | .uint32 => convertUint 4 str p
    | .int8 => convertInt 1 str p
    | .int16 => convertInt 2 str p
    | .int32 => convertInt 4 str p
    | .double =>
      match c.sscanfLa str with
      | some bits => (.norm, p.store (leBytes 8 bits.toNat))
      | none => (.incorrectParam, p)
    | .char =>
      if dataPrmCmd 1 = 0 then (.norm, p.store [dataPrmCmd 0]) else (.overflow, p)
    | .string =>
      -- `strncpy` fills up with NULs
      (.norm, p.store ((str ++ List.replicate maxSizeData 0).take (maxSizeData - 1) ++ [0]))
    | .none | .uint64 | .int64 | .float => (.incorrectParam, p)

/-! ### The state machine -/

/-- The variables of the terminal, and what it has done. -/
structure Terminal where
  fsmDatPrc : FsmDatPrc
  indexDat : Fin maxSizeData
  indexParam : Fin maxParam
  /-- `index_cmd`; the value 255 is `none` -/
  indexCmd : Option Nat
  numCmdParam : Nat
  statusCmdParam : StatCmd
  dataPrmCmd : Fin maxSizeData → UInt8
  arPrm : Fin maxParam → CmdParametr
  /-- oldest output first -/
  output : List Output

namespace Terminal

/-- The terminal after power-up: the C variables start at zero. -/
def init : Terminal where
  fsmDatPrc := .findCmd
  indexDat := 0
  indexParam := 0
  indexCmd := some 0
  numCmdParam := 0
  statusCmdParam := .norm
  dataPrmCmd := fun _ => 0
  arPrm := fun _ => { flagDef := false, raw := fun _ => 0 }
  output := []

/-- Add to the output. -/
def emit (t : Terminal) (o : Output) : Terminal := { t with output := t.output ++ [o] }

/-- What the reads of a handler give. -/
def read (c : Console) (t : Terminal) : (r : Rd) → r.Res
  | .raw i j => (t.arPrm i).raw j
  | .flagDef i => (t.arPrm i).flagDef
  | .dataPrmCmd => CStr.ofBuf t.dataPrmCmd
  | .arrayCmd => c.table.cmds.map Cmd.toCmdText

/-- The current command, `array_cmd[index_cmd]`. -/
def cmd? (c : Console) (t : Terminal) : Option Cmd := t.indexCmd.bind fun i => c.table.cmds[i]?

/-- Load a byte at `index_dat`, which stops at the end of the buffer. -/
def load (t : Terminal) (ch : UInt8) : Terminal :=
  { t with
    dataPrmCmd := Function.update t.dataPrmCmd t.indexDat ch
    indexDat := if h : t.indexDat.val < maxSizeData - 1 then ⟨t.indexDat + 1, by omega⟩
      else t.indexDat }

/-- `data_prm_cmd[index_dat] = 0` -/
def terminate (t : Terminal) : Terminal :=
  { t with dataPrmCmd := Function.update t.dataPrmCmd t.indexDat 0 }

end Terminal

open Terminal (emit)

/-- The commands whose name is `name`: `scan_cmd` takes the first. -/
def scanCmd (texts : List CmdText) (name : List UInt8) : Option Nat :=
  texts.findIdx? fun text => name = CStr.textBytes text.cmdName

/-- `get_num_cmd_param` -/
def getNumCmdParam (cmd : Cmd) : Nat :=
  ((List.ofFn cmd.cmdTypeParametr).takeWhile (· ≠ .none)).length

/-- `preset_cmd` -/
def presetCmd (t : Terminal) : Terminal :=
  { t with
    statusCmdParam := .cmdNotLoaded
    arPrm := fun i => { t.arPrm i with flagDef := true }
    indexDat := 0 }

section Step
variable (c : Console) (t : Terminal) (ch : UInt8)

/-- `command_processing`. `next` is what the caller does when it returns: the handler of a
reset does not, and the terminal starts over. -/
def commandProcessing (next : Terminal → Terminal) : Terminal :=
  match t.statusCmdParam with
  | .norm =>
    match t.indexCmd, t.cmd? c with
    | some i, some cmd =>
      let effects := cmd.cmdHandlerCb.eval (t.read c)
      if .systemReset ∈ effects then
        { Terminal.init with output := t.output ++ [.call i effects] }
      else next (t.emit (.call i effects))
    | _, _ => next t
  | .incorrectParam => next (t.emit (.printf "Неккоректные данные  \r\n\r\n"))
  | .overflow => next (t.emit (.printf "Переполнение  \r\n\r\n"))
  | .dataIsEmpty => next (t.emit (.printf "Данные отсутствуют  \r\n\r\n"))
  | .cmdNotLoaded => next (t.emit (.printf "Команда не загружена  \r\n\r\n"))
  | .incorrectCmd => next (t.emit (.printf "Неккоректная команда  \r\n\r\n"))

/-- Back to the search for a line. -/
def findCmd : Terminal := { t with fsmDatPrc := .findCmd }

/-- Start a new line. -/
def startCmd : Terminal := presetCmd { t with fsmDatPrc := .prcCmd }

/-- `proc_parametr` -/
def procParametr : Terminal :=
  match t.cmd? c with
  | some cmd =>
    let (status, p) := getParametrCmd c t.dataPrmCmd (cmd.cmdTypeParametr t.indexParam)
      (t.arPrm t.indexParam)
    { t with statusCmdParam := status, arPrm := Function.update t.arPrm t.indexParam p }
  | none => { t with statusCmdParam := .incorrectCmd }

/-- The end of the command word: find the command, and the number of its parameters. -/
def lookupCmd : Terminal :=
  let t := t.terminate
  match scanCmd (c.table.cmds.map Cmd.toCmdText) (CStr.ofBuf t.dataPrmCmd) with
  | some i =>
    { t with
      statusCmdParam := .norm
      indexCmd := some i
      numCmdParam := (c.table.cmds[i]?.map getNumCmdParam).getD 0 }
  | none => { t with indexCmd := none, numCmdParam := 0 }

/-- A command that is not in the table. -/
def rejectUnknown : Terminal :=
  if t.indexCmd = none then { t with statusCmdParam := .incorrectCmd } else t

/-- Carriage return or line feed. -/
def isEol : Bool := ch = 0x0D ∨ ch = 0x0A

/-- `case PRC_CMD` -/
def prcCmd : Terminal :=
  if ch = 0x20 ∨ isEol ch ∨ ch = 0x3E then
    let t := lookupCmd c t
    if ch = 0x3E then commandProcessing c (rejectUnknown t) startCmd
    else if isEol ch then commandProcessing c (rejectUnknown t) findCmd
    else if t.indexCmd ≠ none then
      if t.numCmdParam > 0 then { t with indexParam := 0, fsmDatPrc := .findPrm }
      -- a command without parameters: the state stays `PRC_CMD`
      else commandProcessing c { t with statusCmdParam := .norm } id
    else commandProcessing c { t with statusCmdParam := .incorrectCmd } findCmd
  else t.load ch

/-- `case FIND_PRM` -/
def findPrm : Terminal :=
  if ch = 0x20 then t
  else if isEol ch then commandProcessing c t findCmd
  else if ch = 0x3E then commandProcessing c t startCmd
  else { t with
    dataPrmCmd := Function.update t.dataPrmCmd 0 ch
    indexDat := 1
    fsmDatPrc := .prcPrm }

/-- `case PRC_PRM` -/
def prcPrm : Terminal :=
  if ch = 0x20 then
    let t := procParametr c t.terminate
    if h : t.indexParam.val < maxParam - 1 ∧ t.statusCmdParam = .norm then
      { t with indexParam := ⟨t.indexParam + 1, by omega⟩, fsmDatPrc := .findPrm }
    else commandProcessing c t findCmd
  else if isEol ch then commandProcessing c (procParametr c t.terminate) findCmd
  else if ch = 0x3E then commandProcessing c (procParametr c t.terminate) startCmd
  else t.load ch

/-- `terminal_data_processing` -/
def terminalDataProcessing : Terminal :=
  match t.fsmDatPrc with
  | .findCmd => if ch = 0x3E then startCmd t else t
  | .prcCmd => prcCmd c t ch
  | .findPrm => findPrm c t ch
  | .prcPrm => prcPrm c t ch

end Step

end NucleoH743.CmdTrmnl
