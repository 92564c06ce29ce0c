import NucleoH743.FatFs.Api
import NucleoH743.Ftp.Ftpd

/-!
# `Ftp.Calls`: the FatFs calls of the FTP server

The commands of the FTP server that work on the volume, as programs of FatFs calls, without
what they send. The file objects are the local variables of `do_get_filesize` and of
`ftp_process_request`.

`Ftp.Ftpd` computes what a command does to the volume, and all at once. Here the same command is a
program of its FatFs calls, so that another task can come in between two of them. That both agree
where nothing comes in between is proved in `Proofs.Ftp.Calls`.

The arguments are the connection and the command line, and what the network delivers for `STOR` is
part of the command.
-/

set_option autoImplicit false

namespace NucleoH743.Ftp.Calls

open NucleoH743.FatFs

/-- The file objects on the stack of the FTP thread. -/
inductive FileVar where
  /-- `file` of `do_get_filesize` -/
  | sizeFile
  /-- `file` of `ftp_process_request` -/
  | file
  deriving DecidableEq, Repr

/-- The mount of `ftpd_thread`. -/
def ftpdThread : Caller FileVar Unit := Caller.fMount (some .fatfs)

/-- `do_full_list` and `do_simple_list` -/
def listing (path : Path) : Caller FileVar Unit := do
  let _ ← Caller.fOpendir path
  pure ()

/-- `do_get_filesize` -/
def doGetFilesize (filename : Path) : Caller FileVar Int := do
  let rc ← Caller.fOpen .sizeFile filename { faRead := true } false
  if rc = .ok then
    let size ← Caller.fSize .sizeFile
    let _ ← Caller.fClose .sizeFile
    pure (toInt32 size)
  else pure (-1)

/-- The transfer loop of `CMD_RETR`. -/
def retrLoop : Nat → Caller FileVar Unit
  | 0 => pure ()
  | turns + 1 => do
    let (_, sbuf) ← Caller.fRead .file ftpBufferSize
    if 0 < sbuf.length then retrLoop turns else pure ()

/-- `CMD_RETR` from the start of its loop to its `f_close`. Every turn but the last reads at
least one byte. -/
def retrSend : Caller FileVar Unit := do
  let size ← Caller.fSize .file
  retrLoop (size + 1)
  let _ ← Caller.fClose .file
  pure ()

/-- `CMD_RETR` behind the successful `f_open`. -/
def retrTransfer (offset : Nat) (numBytes : Int) : Caller FileVar Unit :=
  if seeks offset numBytes then do
    let _ ← Caller.fLseek .file offset
    retrSend
  else retrSend

/-- `CMD_RETR` -/
def cmdRetr (offset : Nat) (path : Path) : Caller FileVar Unit := do
  let numBytes ← doGetFilesize path
  if numBytes = -1 then pure ()
  else
    let rc ← Caller.fOpen .file path { faRead := true } false
    if rc ≠ .ok then pure () else retrTransfer offset numBytes

/-- The receive loop of `CMD_STOR`. -/
def storLoop : List DataIn → Caller FileVar Unit
  | [] => pure ()
  | d :: ds =>
    match d.recv with
    | some (b :: bs) => do
      let _ ← Caller.fWrite .file (b :: bs) d.room
      storLoop ds
    | some [] | none => do
      let _ ← Caller.fClose .file
      pure ()

/-- `CMD_STOR` -/
def cmdStor (o : Outcome) (path : Path) : Caller FileVar Unit := do
  let rc ← Caller.fOpen .file path { faWrite := true, faOpenAlways := true } o.slot
  if rc ≠ .ok then pure () else storLoop o.recvs

/-- `CMD_SIZE` -/
def cmdSize (path : Path) : Caller FileVar Unit := do
  let _ ← doGetFilesize path
  pure ()

/-- `CMD_MKD` -/
def cmdMkd (o : Outcome) (path : Path) : Caller FileVar Unit := do
  let _ ← Caller.fMkdir path o.slot
  pure ()

/-- `CMD_DELE` and `CMD_RMD` -/
def cmdDele (o : Outcome) (path : Path) : Caller FileVar Unit := do
  let _ ← Caller.fUnlink path o.removable
  pure ()

/-- The `switch` of `ftp_process_request`, for a connection and a command line. -/
def execute (o : Outcome) (conn : Conn) (line : List UInt8) : Caller FileVar Unit :=
  let (path, _) := doFullPath conn.currentdir ((parameterPtr line).getD o.stray)
  match doParseCommand line with
  | .list => listing (trimSlash conn.currentdir)
  | .nlst => listing conn.currentdir
  | .retr => cmdRetr conn.offset path
  | .stor => cmdStor o path
  | .size => cmdSize path
  | .mkd => cmdMkd o path
  | .dele | .rmd => cmdDele o path
  | .user | .pass | .pwd | .type | .pasv | .mdtm | .syst | .cwd | .cdup | .port | .rest | .feat
  | .quit | .unknown => pure ()

end NucleoH743.Ftp.Calls
