import NucleoH743.Ftp.Calls

/-!
# `Ftp.Program`: a request as a program of its calls

`ftp_process_request` with every call that it makes as an operation, whose answer is whatever the
call returns. The functions of a command get the connection and return it. A loop ends after
`turns` turns at the latest: a request that has not come to its end by then returns nothing.

What the program writes into its own buffers is left out: it calls nothing.

There are two models of a request. `Ftp.Ftpd` computes with the volume and the socket table, and
says what a request does to them. Here all calls are operations with any answer, and the model says
what a request does with the answers: which calls it makes, in which order, and what it replies. The
second is the one for a statement on failures, since no state of the world restricts what may fail.

A `turns` argument bounds the loops, as the program of a loop that may go on for ever is not a
finite object; a theorem on a request that comes to its end holds for every bound.
-/

set_option autoImplicit false

namespace NucleoH743.Ftp.Program

open NucleoH743.FatFs
open NucleoH743.Ftp.Calls (FileVar)
open CStr (textBytes)

/-- The calls of a request. -/
inductive FtpOp where
  | malloc
  /-- `do_send_reply` with a reply -/
  | sendReply (sock : Int) (text : List UInt8)
  /-- `do_send_reply` with the line of a directory entry -/
  | sendEntry (sock : Int) (text : List UInt8)
  | socket
  | bind (fd : Int) (port : UInt16)
  | listen (fd : Int)
  | connect (fd : Int) (addr : UInt32) (port : UInt16)
  | accept (fd : Int)
  | select (fd : Int)
  /-- `FD_ISSET` behind `select` -/
  | fdIsset (fd : Int)
  | send (fd : Int) (buf : List UInt8)
  | recv (fd : Int)
  | close (fd : Int)
  | fOpendir (path : Path)
  | fReaddir
  | fOpen (f : FileVar) (path : Path) (mode : Mode)
  | fSize (f : FileVar)
  | fLseek (f : FileVar) (ofs : Nat)
  | fRead (f : FileVar) (btr : Nat)
  | fWrite (f : FileVar) (buff : List UInt8)
  | fClose (f : FileVar)
  | fMkdir (path : Path)
  | fUnlink (path : Path)

/-- What a call returns. A descriptor of `-1` is `none`, and so is the length of a failed `send` or
the data of a failed `recv`. -/
abbrev FtpOp.Res : FtpOp → Type
  | malloc | bind _ _ | listen _ | connect _ _ _ | fdIsset _ => Bool
  /- whether the result is positive -/
  | select _ => Bool
  | sendReply _ _ | sendEntry _ _ | close _ => Unit
  | socket | accept _ | send _ _ => Option Nat
  | recv _ => Option (List UInt8)
  | fOpendir _ | fOpen _ _ _ | fLseek _ _ | fClose _ | fMkdir _ | fUnlink _ => FResult
  | fReaddir => FResult × Filinfo
  | fSize _ => Nat
  | fRead _ _ => FResult × List UInt8
  | fWrite _ _ => FResult × Nat

/-- A part of a request. -/
abbrev Request (α : Type) : Type := Prog FtpOp FtpOp.Res α

/-- One call. -/
def ask (o : FtpOp) : Request o.Res := Prog.call o

/-- The value of a descriptor. -/
def toFd (fd : Option Nat) : Int := (fd.map Int.ofNat).getD (-1)

/-- A reply on the control connection. -/
def reply (conn : Conn) (text : List UInt8) : Request Unit := ask (.sendReply conn.sockfd text)

/-- A command that only replies. -/
def replyOnly (conn : Conn) (text : List UInt8) : Request Conn := do
  reply conn text
  return conn

/-- `do_full_path`: the path, and the connection with its current directory. -/
def fullPath (conn : Conn) (path : List UInt8) : List UInt8 × Conn :=
  ((doFullPath conn.currentdir path).1,
    { conn with currentdir := (doFullPath conn.currentdir path).2 })

/-! ### Listings -/

/-- The loop over a directory, with the line of an entry. It tells whether it came to its end. -/
def listEntries (sock : Int) (line : Filinfo → List UInt8) : Nat → Request Bool
  | 0 => return false
  | turns + 1 => do
    let (rc, fno) ← ask .fReaddir
    if rc ≠ .ok ∨ fno.fname = [] then return true
    else
      ask (.sendEntry sock (line fno))
      listEntries sock line turns

/-- `do_full_list` and `do_simple_list`: the lines of the directory `name`, or the text `error`. -/
def doList (sock : Int) (name : Path) (error : List UInt8) (line : Filinfo → List UInt8)
    (turns : Nat) : Request Bool := do
  let rc ← ask (.fOpendir name)
  if rc ≠ .ok then
    ask (.sendReply sock error)
    return true
  else listEntries sock line turns

/-- The end of `CMD_LIST` and `CMD_NLST`. -/
def endList (conn : Conn) : Request Conn := do
  ask (.close conn.pasvSockfd)
  let conn := { conn with pasvActive := false }
  replyOnly conn (textBytes "226 Transfer complete.\r\n")

/-- `CMD_LIST` and `CMD_NLST` with their listing, for a connection whose current directory the
listing leaves as it is in `listed`. -/
def listing (conn listed : Conn) (list : Request Bool) : Request (Option Conn) := do
  reply conn (textBytes "150 Opening Binary mode connection for file list.\r\n")
  if ← list then
    let conn ← endList listed
    return some conn
  else return none

/-- `CMD_LIST` -/
def cmdList (turns : Nat) (conn : Conn) : Request (Option Conn) :=
  let name := trimSlash conn.currentdir
  listing conn { conn with currentdir := name } <|
    doList conn.pasvSockfd name (textBytes "500 Internal Server Error\r\n") fullLine turns

/-- `CMD_NLST` -/
def cmdNlst (turns : Nat) (conn : Conn) : Request (Option Conn) :=
  listing conn conn <|
    doList conn.pasvSockfd conn.currentdir (textBytes "500 Internal Error\r\n")
      (fun fno => fno.fname ++ textBytes "\r\n") turns

/-! ### Files -/

/-- `do_get_filesize` -/
def doGetFilesize (filename : Path) : Request Int := do
  let rc ← ask (.fOpen .sizeFile filename { faRead := true })
  if rc = .ok then
    let size ← ask (.fSize .sizeFile)
    let _ ← ask (.fClose .sizeFile)
    return toInt32 size
  else return -1

/-- The transfer loop of `CMD_RETR`. It tells whether it came to its end. -/
def retrLoop (conn : Conn) : Nat → Request Bool
  | 0 => return false
  | turns + 1 => do
    let (_, sbuf) ← ask (.fRead .file ftpBufferSize)
    if 0 < sbuf.length then
      let _ ← ask (.send conn.pasvSockfd sbuf)
      retrLoop conn turns
    else return true

/-- `CMD_RETR` behind its loop. -/
def retrEnd (conn : Conn) : Request Conn := do
  reply conn (textBytes "226 Finished.\r\n")
  let _ ← ask (.fClose .file)
  ask (.close conn.pasvSockfd)
  return conn

/-- `CMD_RETR` from its 150 reply on. -/
def retrSend (turns : Nat) (conn : Conn) (path : List UInt8) (numBytes : Int) :
    Request (Option Conn) := do
  reply conn (retrOpening conn.offset numBytes path)
  if ← retrLoop conn turns then
    let conn ← retrEnd conn
    return some conn
  else return none

/-- `CMD_RETR` behind the successful `f_open`. -/
def retrTransfer (turns : Nat) (conn : Conn) (path : List UInt8) (numBytes : Int) :
    Request (Option Conn) :=
  if seeks conn.offset numBytes then do
    let _ ← ask (.fLseek .file conn.offset)
    retrSend turns conn path numBytes
  else retrSend turns conn path numBytes

/-- `CMD_RETR` for a path whose size is known. -/
def retrOpen (turns : Nat) (conn : Conn) (path : List UInt8) (numBytes : Int) :
    Request (Option Conn) :=
  if numBytes = -1 then do
    reply conn (notRegular path)
    return some { conn with offset := 0 }
  else do
    let rc ← ask (.fOpen .file path { faRead := true })
    if rc ≠ .ok then return some conn else retrTransfer turns conn path numBytes

/-- `CMD_RETR` -/
def cmdRetr (turns : Nat) (conn : Conn) (parameter : List UInt8) : Request (Option Conn) := do
  let (path, conn) := fullPath conn parameter
  let numBytes ← doGetFilesize path
  retrOpen turns conn path numBytes

/-- The receive loop of `CMD_STOR`, with `ret`. -/
def storLoop (conn : Conn) : Nat → Request (Option Int)
  | 0 => return none
  | turns + 1 => do
    if ← ask (.select conn.pasvSockfd) then
      match ← ask (.recv conn.pasvSockfd) with
      | some [] => do
        let _ ← ask (.fClose .file)
        reply conn (textBytes "226 Finished.\r\n")
        return some 0
      | some (b :: bs) => do
        let _ ← ask (.fWrite .file (b :: bs))
        storLoop conn turns
      | none => do
        let _ ← ask (.fClose .file)
        return some (-1)
    else return some 0

/-- `CMD_STOR` behind the successful `f_open`. -/
def storTransfer (turns : Nat) (conn : Conn) (path : List UInt8) :
    Request (Option (Int × Conn)) := do
  reply conn
    (textBytes "150 Opening binary mode data connection for " ++ quoted path ++ textBytes ".\r\n")
  match ← storLoop conn turns with
  | some ret => do
    ask (.close conn.pasvSockfd)
    return some (ret, conn)
  | none => return none

/-- `CMD_STOR` -/
def cmdStor (turns : Nat) (conn : Conn) (parameter : List UInt8) :
    Request (Option (Int × Conn)) := do
  let (path, conn) := fullPath conn parameter
  let rc ← ask (.fOpen .file path { faWrite := true, faOpenAlways := true })
  if rc ≠ .ok then
    reply conn (textBytes "550 Cannot open " ++ quoted path ++ textBytes " for writing.\r\n")
    return some (0, conn)
  else storTransfer turns conn path

/-- `CMD_SIZE` -/
def cmdSize (conn : Conn) (parameter : List UInt8) : Request Conn := do
  let (path, conn) := fullPath conn parameter
  let numBytes ← doGetFilesize path
  if numBytes = -1 then replyOnly conn (notRegular path)
  else replyOnly conn (textBytes "213 " ++ formatInt numBytes ++ textBytes "\r\n")

/-! ### Directories -/

/-- `CMD_CWD` -/
def cmdCwd (conn : Conn) (parameter : List UInt8) : Request Conn := do
  let (path, conn) := fullPath conn parameter
  reply conn (changedTo path)
  return { conn with currentdir := path }

/-- `CMD_CDUP` -/
def cmdCdup (conn : Conn) : Request Conn := do
  let conn := { conn with currentdir := doStepDown conn.currentdir }
  replyOnly conn (changedTo conn.currentdir)

/-- `CMD_MKD` -/
def cmdMkd (conn : Conn) (parameter : List UInt8) : Request Conn := do
  let (path, conn) := fullPath conn parameter
  let rc ← ask (.fMkdir path)
  if rc ≠ .ok then
    replyOnly conn (textBytes "550 File " ++ quoted path ++ textBytes " exists.\r\n")
  else replyOnly conn (directoryWas path "created")

/-- `CMD_DELE` -/
def cmdDele (conn : Conn) (parameter : List UInt8) : Request Conn := do
  let (path, conn) := fullPath conn parameter
  let rc ← ask (.fUnlink path)
  if rc = .ok then
    replyOnly conn
      (textBytes "250 file " ++ quoted path ++ textBytes " was successfully deleted.\r\n")
  else replyOnly conn (textBytes "550 Not such file or directory: " ++ path ++ textBytes ".\r\n")

/-- `CMD_RMD` -/
def cmdRmd (conn : Conn) (parameter : List UInt8) : Request Conn := do
  let (path, conn) := fullPath conn parameter
  let rc ← ask (.fUnlink path)
  if rc ≠ .ok then
    replyOnly conn (textBytes "550 Directory " ++ quoted path ++ textBytes " doesn't exist.\r\n")
  else replyOnly conn (directoryWas path "deleted")

/-! ### Data connections -/

/-- `CMD_TYPE` -/
def cmdType (conn : Conn) (parameter : List UInt8) : Request Conn :=
  if parameter = textBytes "I" then replyOnly conn (textBytes "200 Type set to binary.\r\n")
  else replyOnly conn (textBytes "200 Type set to ascii.\r\n")

/-- `CMD_REST` -/
def cmdRest (conn : Conn) (parameter : List UInt8) : Request Conn :=
  if 0 ≤ atoi parameter then
    replyOnly { conn with offset := (atoi parameter).toNat }
      (textBytes "350 Send RETR or STOR to start transfert.\r\n")
  else return conn

/-- `CMD_PORT` with a connection. -/
def portDone (conn : Conn) (port : UInt16) : Request Conn :=
  replyOnly { conn with pasvActive := true, pasvPort := port }
    (textBytes "200 Port Command Successful.\r\n")

/-- `CMD_PORT` with its socket. The second `connect` tries the address of the client. -/
def portConnect (conn : Conn) (fd : Int) (addr : UInt32) (port : UInt16) : Request Conn := do
  let _ ← ask (.bind fd ftpDataPort)
  if ← ask (.connect fd addr port) then portDone conn port
  else if ← ask (.connect fd conn.remote port) then portDone conn port
  else
    reply conn cantOpen
    ask (.close fd)
    return conn

/-- `CMD_PORT`. `stray` is the string at a null pointer. -/
def cmdPort (stray : List UInt8) (conn : Conn) (parameter : List UInt8) : Request Conn := do
  let com := portcom { stray } (strtok (textBytes ".,;()") parameter)
  let fd := toFd (← ask .socket)
  let conn := { conn with pasvSockfd := fd }
  if fd = -1 then
    reply conn cantOpen
    ask (.close fd)
    return { conn with pasvActive := false }
  else
    portConnect conn fd
      ((UInt32.ofInt (com.getD 3 0) <<< 24) ||| (UInt32.ofInt (com.getD 2 0) <<< 16) |||
        (UInt32.ofInt (com.getD 1 0) <<< 8) ||| UInt32.ofInt (com.getD 0 0))
      (UInt16.ofInt (com.getD 4 0 * 256 + com.getD 5 0))

/-- The `do`-block of `CMD_PASV` behind `listen`, with `ret`. -/
def pasvAccept (ipaddr : UInt32) (conn : Conn) (ret : Nat) (sockfd : Int) :
    Request (Nat × Conn) := do
  reply conn (passiveMode { ipaddr })
  let _ ← ask (.select sockfd)
  if ← ask (.fdIsset sockfd) then
    let fd := toFd (← ask (.accept sockfd))
    let conn := { conn with pasvSockfd := fd }
    if fd < 0 then
      reply conn cantOpen
      return (5, conn)
    else
      ask (.close sockfd)
      return (ret, { conn with pasvActive := true })
  else return (6, conn)

/-- The `do`-block of `CMD_PASV` behind `bind`, with `ret`. -/
def pasvListen (ipaddr : UInt32) (conn : Conn) (ret : Nat) (sockfd : Int) :
    Request (Nat × Conn) := do
  if ← ask (.listen sockfd) then pasvAccept ipaddr conn ret sockfd
  else
    reply conn cantOpen
    return (4, conn)

/-- The `do`-block of `CMD_PASV`, with `ret`. -/
def pasvOpen (ipaddr : UInt32) (conn : Conn) : Request (Nat × Conn) := do
  let sockfd := toFd (← ask .socket)
  if sockfd = -1 then
    reply conn cantOpen
    return (1, conn)
  else if ← ask (.bind sockfd ftpPassvPort) then pasvListen ipaddr conn 0 sockfd
  else
    -- without a `break` here, the command goes on with `ret = 3`
    reply conn cantOpen
    pasvListen ipaddr conn 3 sockfd

/-- `CMD_PASV` behind its `do`-block. -/
def pasvEnd (conn : Conn) (ret : Nat) : Request Conn :=
  if ret ≠ 0 then do
    ask (.close conn.pasvSockfd)
    return { conn with pasvActive := false }
  else return conn

/-- `CMD_PASV` -/
def cmdPasv (ipaddr : UInt32) (conn : Conn) : Request Conn := do
  let (ret, conn) ← pasvOpen ipaddr { conn with pasvPort := ftpPassvPort, pasvActive := true }
  pasvEnd conn ret

/-! ### Requests -/

/-- What a request reads beside its line. -/
structure Surroundings where
  /-- the string at a null pointer, or behind the end of the line -/
  stray : List UInt8
  ipaddr : UInt32
  /-- the longest run of a loop -/
  turns : Nat

/-- The end of a command that returns 0. -/
def done (p : Request Conn) : Request (Option (Int × Conn)) := do
  let conn ← p
  return some (0, conn)

/-- The end of a command with a loop that returns 0. -/
def doneIf (p : Request (Option Conn)) : Request (Option (Int × Conn)) := do
  let conn ← p
  return conn.map fun conn => (0, conn)

/-- `CMD_QUIT` -/
def cmdQuit (conn : Conn) : Request (Option (Int × Conn)) := do
  reply conn (textBytes "221 Adios!\r\n")
  return some (-1, conn)

/-- The `switch` of `ftp_process_request`. -/
def execute (x : Surroundings) (conn : Conn) (line : List UInt8) : Request (Option (Int × Conn)) :=
  let parameter := (parameterPtr line).getD x.stray
  match doParseCommand line with
  | .user => done (replyOnly conn (textBytes "331 Password required for " ++
      quoted ((parameterPtr line).getD (textBytes "(null)")) ++ textBytes "\r\n"))
  | .pass => done (replyOnly conn (textBytes "230 Password OK. Current directory is /\r\n"))
  | .list => doneIf (cmdList x.turns conn)
  | .nlst => doneIf (cmdNlst x.turns conn)
  | .type => done (cmdType conn parameter)
  | .retr => doneIf (cmdRetr x.turns conn parameter)
  | .stor => cmdStor x.turns conn parameter
  | .size => done (cmdSize conn parameter)
  | .mdtm => done (replyOnly conn (textBytes "550 \"/\" : not a regular file\r\n"))
  | .syst => done (replyOnly conn (textBytes "215 UNIX Type: L8\r\n"))
  | .pwd => done (replyOnly conn
      (textBytes "257 " ++ quoted conn.currentdir ++ textBytes " is current directory.\r\n"))
  | .cwd => done (cmdCwd conn parameter)
  | .cdup => done (cmdCdup conn)
  | .port => done (cmdPort x.stray conn parameter)
  | .rest => done (cmdRest conn parameter)
  | .mkd => done (cmdMkd conn parameter)
  | .dele => done (cmdDele conn parameter)
  | .rmd => done (cmdRmd conn parameter)
  | .pasv => done (cmdPasv x.ipaddr conn)
  | .feat => done (replyOnly conn (textBytes "211 No-features\r\n"))
  | .quit => cmdQuit conn
  | .unknown => done (replyOnly conn (textBytes "502 Not Implemented yet.\r\n"))

/-- The line of a request. -/
def requestLine (buf : List UInt8) : List UInt8 := CStr.ofBytes (stripEol buf)

/-- `ftp_process_request`: the result and the connection. -/
def ftpProcessRequest (x : Surroundings) (conn : Conn) (buf : List UInt8) :
    Request (Option (Int × Conn)) := do
  if ← ask .malloc then execute x conn (requestLine buf) else return some (-1, conn)

end NucleoH743.Ftp.Program
