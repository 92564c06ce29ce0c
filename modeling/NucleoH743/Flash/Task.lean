import NucleoH743.CmdTrmnl.Handlers

/-!
# `Flash.Task`: the queue between the terminal and the flash task

`task_qspi_flash.c` and `parsing_cmd_box` of `test_qspi_flash.c`. The terminal task sends the boxes
of its handlers, and `qFlash_Task` takes one box at each period of its timer. The task creates the
queue when it starts.

`xQueueSend` gets a waiting time of 0 and its result is ignored, so a box that finds a full queue is
gone. The task works on one box at a time, which may take as long as an erase; meanwhile the
terminal goes on, so the boxes of a fast operator pile up. `executed` lists the boxes that have been
carried out, and a reset forgets those that wait.

The terminal task is that of `CmdTrmnl.Process` with the handlers of `CmdTrmnl.Handlers`, so the
bytes of the operator are the input of the model.
-/

set_option autoImplicit false

namespace NucleoH743.Flash

open CmdTrmnl (CmdBox IdMode Console Terminal Effect Output terminalDataProcessing)

/-- What `parsing_cmd_box` calls. The functions on a sector take the whole box. -/
inductive FlashOp where
  | cmdChipErase | cmdChipStatus
  | cmdEraseSector (address : UInt32)
  | cmdWriteSector (address : UInt32)
  | cmdReadSector (address : UInt32)
  | cmdCompareSector (address : UInt32)
  | cmdViewSector (address : UInt32)
  | cmdFmkfs | cmdFmount | cmdStatus | cmdParam | cmdFwrite | cmdFread
  /-- `fill_damp`, which gets the mode and not the code of the box -/
  | fillDamp (modeFill : IdMode)
  | viewDamp
  deriving DecidableEq, Repr

/-- `cmd_chip_hndlr` -/
def cmdChipHndlr : IdMode → Option FlashOp
  | .erase => some .cmdChipErase
  | .status => some .cmdChipStatus
  | _ => none

/-- `cmd_sector_hndlr` -/
def cmdSectorHndlr (address : UInt32) : IdMode → Option FlashOp
  | .erase => some (.cmdEraseSector address)
  | .write => some (.cmdWriteSector address)
  | .read => some (.cmdReadSector address)
  | .compare => some (.cmdCompareSector address)
  | .view => some (.cmdViewSector address)
  | _ => none

/-- `cmd_fatfs_hndlr` -/
def cmdFatfsHndlr : IdMode → Option FlashOp
  | .format => some .cmdFmkfs
  | .mount => some .cmdFmount
  | .status => some .cmdStatus
  | .param => some .cmdParam
  | .write => some .cmdFwrite
  | .read => some .cmdFread
  | _ => none

/-- `cmd_damp_hndlr` -/
def cmdDampHndlr : IdMode → Option FlashOp
  | .rnd => some (.fillDamp .rnd)
  | .inc => some (.fillDamp .inc)
  | .dec => some (.fillDamp .dec)
  | .fill => some (.fillDamp .fill)
  | .view => some .viewDamp
  | _ => none

/-- `parsing_cmd_box`; `none` is a `default` branch. -/
def parsingCmdBox : CmdBox → Option FlashOp
  | .chip idMode => cmdChipHndlr idMode
  | .sector idMode address => cmdSectorHndlr address idMode
  | .fatfs idMode => cmdFatfsHndlr idMode
  | .damp idMode _ => cmdDampHndlr idMode

/-! ### The task -/

/-- The length of `xCmdQueue`. -/
def cmdQueueLength : Nat := 10

/-- Where `qFlash_Task` is. -/
inductive QFlashPc where
  | notStarted
  /-- in `xTaskNotifyWait` -/
  | wait
  /-- in `parsing_cmd_box` -/
  | parsing (box : CmdBox)
  deriving DecidableEq, Repr

/-- The queue and the task. -/
structure QFlash where
  /-- oldest box first; `none` is `NULL` -/
  xCmdQueue : Option (List CmdBox)
  pc : QFlashPc
  /-- the boxes for which `parsing_cmd_box` has returned, oldest first -/
  executed : List CmdBox

namespace QFlash

/-- After a reset. The boxes that have been executed stay executed. -/
def reset (executed : List CmdBox) : QFlash := ⟨none, .notStarted, executed⟩

/-- `send_cmd_box`. `xQueueSend` does not wait, and nothing looks at its result. -/
def sendCmdBox (q : QFlash) (box : CmdBox) : QFlash :=
  match q.xCmdQueue with
  | none => q
  | some boxes =>
    if boxes.length < cmdQueueLength then { q with xCmdQueue := some (boxes ++ [box]) } else q

/-- The start of `qFlash_Task`. `created` tells whether `xQueueCreate` has memory. -/
def start (q : QFlash) (created : Bool) : QFlash :=
  match q.pc, q.xCmdQueue with
  | .notStarted, none => { q with xCmdQueue := if created then some [] else none, pc := .wait }
  | .notStarted, some _ => { q with pc := .wait }
  | .wait, _ | .parsing _, _ => q

/-- `qFlashCntrl`, when the period of the timer is over. -/
def qFlashCntrl (q : QFlash) : QFlash :=
  match q.pc, q.xCmdQueue with
  | .wait, some (box :: boxes) => { q with xCmdQueue := some boxes, pc := .parsing box }
  | _, _ => q

/-- `parsing_cmd_box` returns. -/
def parsed (q : QFlash) : QFlash :=
  match q.pc with
  | .parsing box => { q with pc := .wait, executed := q.executed ++ [box] }
  | .notStarted | .wait => q

/-- What a handler's effect does to the flash task. -/
def perform (q : QFlash) : Effect → QFlash
  | .sendCmdBox box => q.sendCmdBox box
  | .systemReset => reset q.executed
  | .printf _ | .report _ => q

end QFlash

/-! ### Both tasks -/

/-- The effects of an output. -/
def outputEffects : Output → List Effect
  | .call _ effects => effects
  | .printf _ => []

/-- The terminal task and the flash task. -/
structure Tasks where
  terminal : Terminal
  qFlash : QFlash

/-- One step of either task. -/
inductive TaskEvent where
  /-- the terminal task handles a byte -/
  | byte (ch : UInt8)
  | start (created : Bool)
  /-- the timer notifies the flash task -/
  | wake
  /-- `parsing_cmd_box` returns -/
  | parsed

namespace Tasks

/-- After power-up. -/
def init : Tasks := ⟨.init, .reset []⟩

/-- `terminal_data_processing`, with what its handlers send. -/
def byte (c : Console) (s : Tasks) (ch : UInt8) : Tasks :=
  let terminal := terminalDataProcessing c s.terminal ch
  let news := terminal.output.drop s.terminal.output.length
  { terminal, qFlash := (news.flatMap outputEffects).foldl QFlash.perform s.qFlash }

/-- One step. -/
def step (c : Console) (s : Tasks) : TaskEvent → Tasks
  | .byte ch => s.byte c ch
  | .start created => { s with qFlash := s.qFlash.start created }
  | .wake => { s with qFlash := s.qFlash.qFlashCntrl }
  | .parsed => { s with qFlash := s.qFlash.parsed }

end Tasks

end NucleoH743.Flash
