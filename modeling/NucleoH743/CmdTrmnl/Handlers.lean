import NucleoH743.CmdTrmnl.Process

/-!
# `CmdTrmnl.Handlers`: the registered commands

The handlers of `cmd_hlp.c`, `cmd_hdl.c`, `cmd_freertos_cntrl.c` and `cmd_qspi_flash.c`, their
command descriptions, and the table that `terminal_task` registers.

A handler in the source takes the pointer to the parameters and does its work at once. Here it is a
program of reads, which ends with the effects that the reads decide: a text that it prints, a box
for the flash task, a reset, a report of the scheduler. So the same definition says what a handler
reads of the line that called it and what it does.

The comparisons of a handler with its texts come in their order, since the first text that is equal
wins. `strcmp` stops at the first byte that differs, and reads no byte behind it.

The commands stand in the order in which `terminal_task` registers them.
-/

set_option autoImplicit false

namespace NucleoH743.CmdTrmnl

open CStr (textBytes)

/-! ### Reading parameters -/

/-- The reads of `strcmp` on the union of parameter `i` from byte `j`: it stops at the first
byte that differs. -/
def strcmpFrom (i : Fin maxParam) (j : Nat) : List UInt8 → Prog Rd Rd.Res Bool
  | [] => do
    let b : UInt8 ← Prog.call (Rd.raw i j)
    return b = 0
  | c :: cs => do
    let b : UInt8 ← Prog.call (Rd.raw i j)
    if b = c then strcmpFrom i (j + 1) cs else return false

/-- `strcmp(parametr->var_ch, text) == 0` -/
def varChIs (text : String) : Prog Rd Rd.Res Bool := strcmpFrom 0 0 (textBytes text)

/-- `parametr[i].var_u08` -/
def varU08 (i : Fin maxParam) : Prog Rd Rd.Res UInt8 := Prog.call (Rd.raw i 0)

/-- `parametr[i].var_u32` -/
def varU32 (i : Fin maxParam) : Prog Rd Rd.Res UInt32 := do
  let b0 : UInt8 ← Prog.call (Rd.raw i 0)
  let b1 : UInt8 ← Prog.call (Rd.raw i 1)
  let b2 : UInt8 ← Prog.call (Rd.raw i 2)
  let b3 : UInt8 ← Prog.call (Rd.raw i 3)
  return (b0.toNat + 2 ^ 8 * b1.toNat + 2 ^ 16 * b2.toNat + 2 ^ 24 * b3.toNat).toUInt32

/-- The comparisons of a handler, in their order: the effects beside the first text that
equals the first parameter. -/
def selectMode : List (String × List Effect) → Handler
  | [] => return [.printf "Invalid parameter\r\n"]
  | (text, effects) :: modes => do
    if ← varChIs text then return effects else selectMode modes

/-! ### `cmd_hlp.c` -/

/-- `printf("%10s - %s \r\n", ...)` -/
def printDescripCmd (text : CmdText) : Effect :=
  .printf (String.ofList (List.replicate (10 - text.cmdName.length) ' ') ++ text.cmdName ++
    " - " ++ text.cmdDescrip ++ " \r\n")

/-- `print_inform_cmd`. The `scan_cmd` it calls takes no argument: it searches for the string
in `data_prm_cmd`. -/
def printInformCmd : Handler := do
  let name : List UInt8 ← Prog.call Rd.dataPrmCmd
  let texts : List CmdText ← Prog.call Rd.arrayCmd
  match (scanCmd texts name).bind fun i => texts[i]? with
  | none => return [.printf "Invalid parameter\r\n"]
  | some text =>
    return [.printf "\r\n",
      .printf (" command reference " ++ text.cmdName ++ "\r\n\r\n"),
      .printf ("  " ++ text.cmdInform ++ "\r\n\r\n")]

/-- `help_cmd_handler` -/
def helpCmdHandler : Handler := do
  if ← varChIs "all" then
    let texts : List CmdText ← Prog.call Rd.arrayCmd
    return texts.map printDescripCmd
  else printInformCmd

/-! ### `cmd_hdl.c` and `cmd_freertos_cntrl.c` -/

/-- `reset_cmd_handler` -/
def resetCmdHandler : Handler :=
  return [.printf "The microcontroller will restart after 1 second.\r\n", .systemReset]

/-- `led_cmd_handler` -/
def ledCmdHandler : Handler :=
  selectMode [("on", [.printf "LED is on\r\n"]), ("off", [.printf "LED is off\r\n"])]

/-- `freertos_cmd_handler` -/
def freertosCmdHandler : Handler :=
  selectMode [
    ("time", [.report .dataTimeWork]),
    ("heap", [.report .freeHeap]),
    ("all", [.report .dataTimeWork, .report .freeHeap, .report .numberTask, .report .titleTask,
      .report .varTask])]

/-! ### `cmd_qspi_flash.c` -/

/-- `sector_cmd_handler` -/
def sectorCmdHandler : Handler := do
  let address ← varU32 1
  selectMode [
    ("erase", [.sendCmdBox (.sector .erase address)]),
    ("wr", [.sendCmdBox (.sector .write address)]),
    ("rd", [.sendCmdBox (.sector .read address)]),
    ("cmp", [.sendCmdBox (.sector .compare address)]),
    ("view", [.sendCmdBox (.sector .view address)])]

/-- `fatfs_handler` -/
def fatfsHandler : Handler :=
  selectMode [
    ("format", [.sendCmdBox (.fatfs .format)]),
    ("status", [.sendCmdBox (.fatfs .status)]),
    ("param", [.sendCmdBox (.fatfs .param)]),
    ("mount", [.sendCmdBox (.fatfs .mount)]),
    ("wr", [.sendCmdBox (.fatfs .write)]),
    ("rd", [.sendCmdBox (.fatfs .read)])]

/-- `damp_handler` -/
def dampHandler : Handler := do
  let codeFill ← varU08 1
  selectMode [
    ("fill", [.sendCmdBox (.damp .fill codeFill)]),
    ("rnd", [.sendCmdBox (.damp .rnd codeFill)]),
    ("inc", [.sendCmdBox (.damp .inc codeFill)]),
    ("dec", [.sendCmdBox (.damp .dec codeFill)]),
    ("view", [.sendCmdBox (.damp .view codeFill)])]

/-- `qflash_cmd_handler` -/
def qflashCmdHandler : Handler :=
  selectMode [
    ("erase", [.sendCmdBox (.chip .erase)]),
    ("status", [.sendCmdBox (.chip .status)])]

/-! ### The table -/

/-- `help_cmd` -/
def helpCmd : Cmd where
  cmdName := "help"
  cmdTypeParametr := ![.string, .none, .none, .none, .none]
  cmdDescrip := "the command is intended for output to the help terminal"
  cmdInform := "the command is intended to display help information on the screen \r\n  on " ++
    "terminal commands.\r\n  command format: >help <STRING> \r\n   all - a summary of all " ++
    "commands, \r\n   <STRING> - display on the screen full information about the cmd, \r\n   " ++
    "the mennomics of which are indicated in the field STRING."
  cmdHandlerCb := helpCmdHandler

/-- `reset_cmd` -/
def resetCmd : Cmd where
  cmdName := "reset"
  cmdTypeParametr := ![.none, .none, .none, .none, .none]
  cmdDescrip := "controller restart command"
  cmdInform := "the command is intended for soft restarting the microcontroller.\r\n  command " ++
    "format: >reset <NONE> \r\n"
  cmdHandlerCb := resetCmdHandler

/-- `led_cmd` -/
def ledCmd : Cmd where
  cmdName := "led"
  cmdTypeParametr := ![.string, .none, .none, .none, .none]
  cmdDescrip := "LED control command"
  cmdInform := "the command is intended to set the LED operating mode.\r\n  command format: " ++
    ">led <STRING> \r\n   on - LED is on, \r\n   off - LED is off."
  cmdHandlerCb := ledCmdHandler

/-- `freertos_cmd` -/
def freertosCmd : Cmd where
  cmdName := "freertos"
  cmdTypeParametr := ![.string, .none, .none, .none, .none]
  cmdDescrip := "FreeRTOS view control command"
  cmdInform := "the command is designed to view the status of resources FreeRTOS.\r\n  command " ++
    "format: >freertos <STRING> \r\n   time - system uptime. \r\n   heap - size free memory " ++
    "heap. \r\n   all - task list status."
  cmdHandlerCb := freertosCmdHandler

/-- `qflash_cmd` -/
def qflashCmd : Cmd where
  cmdName := "qflash"
  cmdTypeParametr := ![.string, .none, .none, .none, .none]
  cmdDescrip := "Chip flash control command"
  cmdInform := "the command is intended to set the chip flash operating mode.\r\n  command " ++
    "format: >qflash <STRING>\r\n   erase - erase chip, \r\n   status - status chip flash.\r\n"
  cmdHandlerCb := qflashCmdHandler

/-- `damp_cmd` -/
def dampCmd : Cmd where
  cmdName := "damp"
  cmdTypeParametr := ![.string, .uint16, .uint16, .none, .none]
  cmdDescrip := "Damp buffer control command"
  cmdInform := "the command is intended to set the buffer damp operating mode.\r\n  command " ++
    "format: >damp <STRING> <U16> <U16>\r\n   fill - filling with code, \r\n   rnd - filling " ++
    "with random, \r\n   inc - incremental padding, \r\n   dec - decremental padding, \r\n   " ++
    "view - viev damp, \r\n  <U16> - start address 0 - 4095, \r\n  <U16> - start address 0 - " ++
    "4095.\r\n"
  cmdHandlerCb := dampHandler

/-- `sector_cmd` -/
def sectorCmd : Cmd where
  cmdName := "sector"
  cmdTypeParametr := ![.string, .uint32, .none, .none, .none]
  cmdDescrip := "Sector control command"
  cmdInform := "the command to start the operation with a sector.\r\n  command format: >sector " ++
    "<STRING> <U32>\r\n   erase - erase sector, \r\n   wr - write sector, \r\n   rd - read " ++
    "sector, \r\n   cmp - compare sector, \r\n   view - viev sector, \r\n  <U32> - address 0 - " ++
    "16777216.\r\n"
  cmdHandlerCb := sectorCmdHandler

/-- `fatfs_cmd` -/
def fatfsCmd : Cmd where
  cmdName := "fatfs"
  cmdTypeParametr := ![.string, .none, .none, .none, .none]
  cmdDescrip := "FatFs control command"
  cmdInform := "the command is intended to set the FatFS operating mode.\r\n  command format: " ++
    ">fatfs <STRING> \r\n   mount - mount disk, \r\n   format - format disk, \r\n   wr - write " ++
    "file, \r\n   rd - read file.\r\n"
  cmdHandlerCb := fatfsHandler

/-- The table after the registrations of `terminal_task`. -/
def terminalTable : CmdTable :=
  [helpCmd, resetCmd, ledCmd, freertosCmd, qflashCmd, dampCmd, sectorCmd, fatfsCmd].foldl
    (fun table cmd => (addTerminalCmd table cmd).1) { cmds := [], le := length_noCmds_le }

end NucleoH743.CmdTrmnl
