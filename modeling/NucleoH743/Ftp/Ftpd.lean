import NucleoH743.Ftp.Cmds
import NucleoH743.Lib.Run

/-!
# `Ftp.Ftpd`: the FTP server

`ftpProcessRequest` is the body of one request, with one definition for each command that has
more than a reply. `step` is the service loop of `ftpd_thread`, cut at its calls: the loop
collects the descriptors for `select`, accepts a connection, or serves one that is ready. A
pass of the loop is a sequence of such steps, so a run of steps in any order covers every
order in which the sessions become ready.

`socket` and `accept` return `-1` or a descriptor that is not in use. Which one, and whether
the calls succeed, is part of the `Outcome` of a request.

`Outcome` says for one request what the calls outside the server answer: whether there is memory and
a socket, what arrives for `STOR` and when that ends, which entries a directory has. A theorem about
all outcomes covers each failure in any combination with the others.

`World` has what the connections share: the volume, the descriptors in use, the listening socket and
`readfds`. What a connection sends, and what it does to its buffers, are its effects in the trace.
-/

set_option autoImplicit false

namespace NucleoH743.Ftp

open NucleoH743.FatFs
open CStr (textBytes)

/-- What one turn of the loop of `STOR` finds after `select` reported data. -/
structure DataIn where
  /-- the result of `recv`: `none` for an error, no bytes for the end of the data -/
  recv : Option (List UInt8)
  /-- the number of bytes that the disk still has clusters for -/
  room : Nat
  deriving DecidableEq, Repr

/-- What the calls outside the server answer during one request. -/
structure Outcome where
  /-- `malloc` finds memory for `sbuf` -/
  malloc : Bool := true
  /-- the descriptor that `socket` returns -/
  socket : Option Nat := none
  bind : Bool := true
  listen : Bool := true
  /-- the client connects to the passive port within three seconds -/
  ready : Bool := true
  /-- the descriptor that `accept` returns -/
  accept : Option Nat := none
  /-- the first and the second `connect` of `PORT` succeed -/
  connect : Bool × Bool := (true, true)
  /-- the data that arrives for `STOR`; after it `select` times out -/
  recvs : List DataIn := []
  /-- the entries that `f_readdir` returns -/
  readdir : List Filinfo := []
  /-- the disk has room for a new directory entry -/
  slot : Bool := true
  /-- the object of `f_unlink` is neither read-only nor a directory with entries -/
  removable : Bool := true
  /-- `ipaddr` -/
  ipaddr : UInt32 := 0
  /-- the string at a null pointer, or behind the end of the line -/
  stray : List UInt8 := []
  deriving DecidableEq, Repr

namespace Req

/-- The descriptor that `socket` or `accept` returns, and the table with it. -/
def newFd (q : Req) (fd : Option Nat) : Int × Req :=
  match fd with
  | none => (-1, q)
  | some fd =>
    if q.sockets fd then (-1, q)
    else (fd, { q with sockets := Function.update q.sockets fd true })

/-- `close(fd)` -/
def close (q : Req) (fd : Int) : Req :=
  { q with sockets := Function.update q.sockets fd false }.emit (.close fd)

/-- The string at `parameter_ptr`. -/
def param (q : Req) (o : Outcome) (parameter : Option (List UInt8)) : List UInt8 × Req :=
  match parameter with
  | some s => (s, q)
  | none => (o.stray, q.emit .nullPtr)

/-- `do_full_path(conn, parameter_ptr, spare_buf, 256)` -/
def paramPath (q : Req) (o : Outcome) (parameter : Option (List UInt8)) : List UInt8 × Req :=
  let (path, q) := q.param o parameter
  q.fullPath path

end Req

/-- The reply to a data connection that cannot be opened. -/
def cantOpen : List UInt8 := textBytes "425 Can't open data connection.\r\n"

/-- A path in quotation marks. -/
def quoted (path : List UInt8) : List UInt8 := textBytes "\"" ++ path ++ textBytes "\""

/-- The reply of `RETR` and `SIZE` to a path that is no file. -/
def notRegular (path : List UInt8) : List UInt8 :=
  textBytes "550 " ++ quoted path ++ textBytes " : not a regular file\r\n"

/-! ### Commands -/

section Commands
variable (o : Outcome) (q : Req)

/-- `CMD_LIST` and `CMD_NLST`, which differ in the listing function. -/
def listing (list : Req → Int → List Filinfo → Req) : Req :=
  let q := q.reply (textBytes "150 Opening Binary mode connection for file list.\r\n")
  let q := list q q.conn.pasvSockfd o.readdir
  let q := q.close q.conn.pasvSockfd
  let q := { q with conn := { q.conn with pasvActive := false } }
  q.reply (textBytes "226 Transfer complete.\r\n")

/-- `CMD_LIST` -/
def cmdList : Req := listing o q doFullList

/-- `CMD_NLST` -/
def cmdNlst : Req := listing o q doSimpleList

variable (parameter : Option (List UInt8))

/-- `CMD_TYPE` -/
def cmdType : Req :=
  let (s, q) := q.param o parameter
  if s = textBytes "I" then q.reply (textBytes "200 Type set to binary.\r\n")
  else q.reply (textBytes "200 Type set to ascii.\r\n")

/-- The transfer loop of `CMD_RETR`. Every turn but the last reads at least one byte, so the
turns are at most one more than the bytes of the file. -/
def retrLoop : Nat → Req → Fil → Req × Fil
  | 0, q, file => (q, file)
  | turns + 1, q, file =>
    let (_, sbuf, file) := fRead q.vol file ftpBufferSize
    if 0 < sbuf.length then
      retrLoop turns (q.emit (.send q.conn.pasvSockfd sbuf sbuf.length)) file
    else (q, file)

/-- The offset of the session lies inside the file. The comparison is one of `size_t`. -/
def seeks (offset : Nat) (numBytes : Int) : Prop :=
  0 < offset ∧ offset < (numBytes % 2 ^ 32).toNat

instance (offset : Nat) (numBytes : Int) : Decidable (seeks offset numBytes) :=
  inferInstanceAs (Decidable (_ ∧ _))

/-- The 150 reply of `CMD_RETR`. -/
def retrOpening (offset : Nat) (numBytes : Int) (path : List UInt8) : List UInt8 :=
  if seeks offset numBytes then
    textBytes "150 Opening binary mode data connection for partial " ++ quoted path ++
      textBytes " (" ++ formatInt (toInt32 ((numBytes % 2 ^ 32).toNat - offset)) ++
      textBytes "/" ++ formatInt numBytes ++ textBytes " bytes).\r\n"
  else
    textBytes "150 Opening binary mode data connection for " ++ quoted path ++ textBytes " (" ++
      formatInt numBytes ++ textBytes " bytes).\r\n"

/-- `CMD_RETR` behind the successful `f_open`. -/
def retrTransfer (path : List UInt8) (numBytes : Int) (file : Fil) : Req :=
  let file := if seeks q.conn.offset numBytes then (fLseek q.vol file q.conn.offset).2 else file
  let q := q.reply (retrOpening q.conn.offset numBytes path)
  let (q, file) := retrLoop (file.data.length + 1) q file
  let q := q.reply (textBytes "226 Finished.\r\n")
  let q := { q with vol := (fClose q.vol file).2.2 }
  q.close q.conn.pasvSockfd

/-- `strcpy(spare_buf, buf + 5)` -/
def copyLine (line : List UInt8) : Req :=
  if line.length < 5 then (q.emit .pastEnd).spare o.stray else q.spare (line.drop 5)

/-- `CMD_RETR` -/
def cmdRetr (line : List UInt8) : Req :=
  let (path, q) := (copyLine o q line).paramPath o parameter
  let (numBytes, vol) := doGetFilesize q.vol path
  let q := { q with vol }
  if numBytes = -1 then
    let q := q.reply (notRegular path)
    { q with conn := { q.conn with offset := 0 } }
  else
    let (rc, file, vol) := fOpen q.vol Fil.null path { faRead := true } false
    let q := { q with vol }
    if rc ≠ .ok then q else retrTransfer q path numBytes file

/-- The receive loop of `CMD_STOR`. -/
def storLoop (q : Req) (file : Fil) : List DataIn → Int × Req
  | [] => (0, q.emit (.select q.conn.pasvSockfd))
  | d :: ds =>
    let q := (q.emit (.select q.conn.pasvSockfd)).emit (.recv q.conn.pasvSockfd)
    match d.recv with
    | some [] =>
      let q := { q with vol := (fClose q.vol file).2.2 }
      (0, q.reply (textBytes "226 Finished.\r\n"))
    | some (b :: bs) =>
      let (_, _, file) := fWrite q.vol file (b :: bs) d.room
      storLoop q file ds
    | none => (-1, { q with vol := (fClose q.vol file).2.2 })

/-- `CMD_STOR`, with `ret` -/
def cmdStor : Int × Req :=
  let (path, q) := q.paramPath o parameter
  let (rc, file, vol) :=
    fOpen q.vol Fil.null path { faWrite := true, faOpenAlways := true } o.slot
  let q := { q with vol }
  if rc ≠ .ok then
    (0, q.reply (textBytes "550 Cannot open " ++ quoted path ++ textBytes " for writing.\r\n"))
  else
    let q := q.reply
      (textBytes "150 Opening binary mode data connection for " ++ quoted path ++ textBytes ".\r\n")
    let (ret, q) := storLoop q file o.recvs
    (ret, q.close q.conn.pasvSockfd)

/-- `CMD_SIZE` -/
def cmdSize : Req :=
  let (path, q) := q.paramPath o parameter
  let (numBytes, vol) := doGetFilesize q.vol path
  let q := { q with vol }
  if numBytes = -1 then q.reply (notRegular path)
  else q.reply (textBytes "213 " ++ formatInt numBytes ++ textBytes "\r\n")

/-- The reply of `CMD_CWD` and `CMD_CDUP`. -/
def changedTo (path : List UInt8) : List UInt8 :=
  textBytes "250 Changed to directory " ++ quoted path ++ textBytes "\r\n"

/-- `CMD_CWD` -/
def cmdCwd : Req :=
  let (path, q) := q.paramPath o parameter
  let q := q.reply (changedTo path)
  { q with conn := { q.conn with currentdir := path } }

/-- `CMD_CDUP` -/
def cmdCdup : Req :=
  let q := q.spare q.conn.currentdir
  let path := doStepDown q.conn.currentdir
  let q := { q with conn := { q.conn with currentdir := path } }
  q.reply (changedTo path)

/-- The six numbers of `CMD_PORT`. A missing token is a null pointer for `atoi`. -/
def portcom (tokens : List (List UInt8)) : List Int :=
  (List.range 6).map fun i => atoi ((tokens[i]?).getD o.stray)

/-- The numbers of `CMD_PORT`, with what the code does to read and print them. -/
def portRead : (Nat → Int) × Req :=
  let (s, q) := q.param o parameter
  let tokens := strtok (textBytes ".,;()") s
  let q := if tokens.length < 6 then q.emit .nullPtr else q
  let com (i : Nat) : Int := (portcom o tokens).getD i 0
  (com, q.spare (formatInt (com 0) ++ textBytes "." ++ formatInt (com 1) ++ textBytes "." ++
    formatInt (com 2) ++ textBytes "." ++ formatInt (com 3)))

/-- `CMD_PORT` with its socket. The second `connect` tries the address of the client. -/
def portConnect (fd : Int) (addr : UInt32) (port : UInt16) : Req :=
  let q := (q.emit (.bind fd ftpDataPort)).emit (.connect fd addr port o.connect.1)
  let q := if o.connect.1 then q else q.emit (.connect fd q.conn.remote port o.connect.2)
  if o.connect.1 || o.connect.2 then
    let q := { q with conn := { q.conn with pasvActive := true, pasvPort := port } }
    q.reply (textBytes "200 Port Command Successful.\r\n")
  else (q.reply cantOpen).close fd

/-- `CMD_PORT` -/
def cmdPort : Req :=
  let (com, q) := portRead o q parameter
  let (fd, q) := q.newFd o.socket
  let q := { q with conn := { q.conn with pasvSockfd := fd } }.emit (.socket fd)
  if fd = -1 then
    let q := (q.reply cantOpen).close fd
    { q with conn := { q.conn with pasvActive := false } }
  else
    let addr := (UInt32.ofInt (com 3) <<< 24) ||| (UInt32.ofInt (com 2) <<< 16) |||
      (UInt32.ofInt (com 1) <<< 8) ||| UInt32.ofInt (com 0)
    portConnect o q fd addr (UInt16.ofInt (com 4 * 256 + com 5))

/-- `CMD_REST` -/
def cmdRest : Req :=
  let (s, q) := q.param o parameter
  if 0 ≤ atoi s then
    let q := { q with conn := { q.conn with offset := (atoi s).toNat } }
    q.reply (textBytes "350 Send RETR or STOR to start transfert.\r\n")
  else q

/-- The reply of `CMD_MKD` and `CMD_RMD` to success. -/
def directoryWas (path : List UInt8) (verb : String) : List UInt8 :=
  textBytes "257 directory " ++ quoted path ++ textBytes " was successfully " ++
    textBytes verb ++ textBytes ".\r\n"

/-- `CMD_MKD` -/
def cmdMkd : Req :=
  let (path, q) := q.paramPath o parameter
  let (rc, vol) := fMkdir q.vol path o.slot
  let q := { q with vol }
  if rc ≠ .ok then q.reply (textBytes "550 File " ++ quoted path ++ textBytes " exists.\r\n")
  else q.reply (directoryWas path "created")

/-- `CMD_DELE` -/
def cmdDele : Req :=
  let (path, q) := q.paramPath o parameter
  let (rc, vol) := fUnlink q.vol path o.removable
  let q := { q with vol }
  if rc = .ok then
    q.reply (textBytes "250 file " ++ quoted path ++ textBytes " was successfully deleted.\r\n")
  else q.reply (textBytes "550 Not such file or directory: " ++ path ++ textBytes ".\r\n")

/-- `CMD_RMD` -/
def cmdRmd : Req :=
  let (path, q) := q.paramPath o parameter
  let (rc, vol) := fUnlink q.vol path o.removable
  let q := { q with vol }
  if rc ≠ .ok then
    q.reply (textBytes "550 Directory " ++ quoted path ++ textBytes " doesn't exist.\r\n")
  else q.reply (directoryWas path "deleted")

/-- The reply of `CMD_PASV`: the address of the server and the passive port. -/
def passiveMode : List UInt8 :=
  let octet (i : UInt32) : List UInt8 := formatInt (o.ipaddr >>> i).toUInt8.toNat
  textBytes "227 Entering passive mode (" ++
    octet 0 ++ textBytes "," ++ octet 8 ++ textBytes "," ++ octet 16 ++ textBytes "," ++
    octet 24 ++ textBytes "," ++ formatInt (ftpPassvPort / 256).toNat ++ textBytes "," ++
    formatInt (ftpPassvPort % 256).toNat ++ textBytes ")\r\n"

/-- The `do`-block of `CMD_PASV` behind `listen`, with `ret`. -/
def pasvAccept (ret : Nat) (sockfd : Int) : Nat × Req :=
  let q := (q.reply (passiveMode o)).emit (.select sockfd)
  if !o.ready then (6, q)
  else
    let (fd, q) := q.newFd o.accept
    let q := { q with conn := { q.conn with pasvSockfd := fd } }.emit (.accept sockfd fd)
    if fd < 0 then (5, q.reply cantOpen)
    else (ret, { q with conn := { q.conn with pasvActive := true } }.close sockfd)

/-- The `do`-block of `CMD_PASV`, with `ret`. -/
def pasvOpen : Nat × Req :=
  let (sockfd, q) := q.newFd o.socket
  let q := q.emit (.socket sockfd)
  if sockfd = -1 then (1, q.reply cantOpen)
  else
    let q := q.emit (.bind sockfd ftpPassvPort)
    -- without a `break` here, the command goes on with `ret = 3`
    let q := if o.bind then q else q.reply cantOpen
    let q := q.emit (.listen sockfd)
    if !o.listen then (4, q.reply cantOpen)
    else pasvAccept o q (if o.bind then 0 else 3) sockfd

/-- `CMD_PASV` -/
def cmdPasv : Req :=
  let q := { q with conn := { q.conn with pasvPort := ftpPassvPort, pasvActive := true } }
  let (ret, q) := pasvOpen o q
  if ret ≠ 0 then
    let q := q.close q.conn.pasvSockfd
    { q with conn := { q.conn with pasvActive := false } }
  else q

end Commands

/-! ### Requests -/

/-- The loop that removes the line end. It stops at the NUL. -/
def stripEol : List UInt8 → List UInt8
  | [] => []
  | b :: bs =>
    if b = 0 then b :: bs
    else (if b = 13 ∨ b = 10 then 0 else b) :: stripEol bs

/-- `parameter_ptr`: what follows the first space. -/
def parameterPtr (line : List UInt8) : Option (List UInt8) :=
  match line.dropWhile (· ≠ 32) with
  | [] => none
  | _ :: rest => some rest

/-- The `switch` of `ftp_process_request`: the command, its result and its effects. -/
def execute (o : Outcome) (q : Req) (line : List UInt8) : Int × Req :=
  let parameter := parameterPtr line
  match doParseCommand line with
  | .user => (0, q.reply (textBytes "331 Password required for " ++
      quoted (parameter.getD (textBytes "(null)")) ++ textBytes "\r\n"))
  | .pass => (0, q.reply (textBytes "230 Password OK. Current directory is /\r\n"))
  | .list => (0, cmdList o q)
  | .nlst => (0, cmdNlst o q)
  | .type => (0, cmdType o q parameter)
  | .retr => (0, cmdRetr o q parameter line)
  | .stor => cmdStor o q parameter
  | .size => (0, cmdSize o q parameter)
  | .mdtm => (0, q.reply (textBytes "550 \"/\" : not a regular file\r\n"))
  | .syst => (0, q.reply (textBytes "215 UNIX Type: L8\r\n"))
  | .pwd => (0, q.reply
      (textBytes "257 " ++ quoted q.conn.currentdir ++ textBytes " is current directory.\r\n"))
  | .cwd => (0, cmdCwd o q parameter)
  | .cdup => (0, cmdCdup q)
  | .port => (0, cmdPort o q parameter)
  | .rest => (0, cmdRest o q parameter)
  | .mkd => (0, cmdMkd o q parameter)
  | .dele => (0, cmdDele o q parameter)
  | .rmd => (0, cmdRmd o q parameter)
  | .pasv => (0, cmdPasv o q)
  | .feat => (0, q.reply (textBytes "211 No-features\r\n"))
  | .quit => (-1, q.reply (textBytes "221 Adios!\r\n"))
  | .unknown => (0, q.reply (textBytes "502 Not Implemented yet.\r\n"))

/-- `ftp_process_request` -/
def ftpProcessRequest (o : Outcome) (q : Req) (buf : List UInt8) : Int × Req :=
  if o.malloc then
    let line := CStr.ofBytes (stripEol buf)
    execute o (q.emit (.requested line)) line
  else (-1, q)

/-! ### The service loop -/

/-- The state of the FTP thread. -/
structure World where
  vol : Volume
  /-- the descriptors in use -/
  sockets : Int → Bool
  /-- the listening socket -/
  sockfd : Int
  /-- `conn_list` -/
  conns : List Conn
  /-- the descriptors set in `readfds` -/
  readfds : List Int
  /-- the address of the next connection structure -/
  nextConn : Nat
  /-- the effects, each with the connection it belongs to, oldest first -/
  trace : List (Nat × Effect)

/-- The fields that `alloc_new_conn` leaves as `malloc` returns them. -/
structure Fresh where
  pasvActive : Bool
  pasvSockfd : Int
  pasvPort : UInt16
  deriving DecidableEq, Repr

/-- What the service loop can do next. -/
inductive Event where
  /-- collect the descriptors and call `select` -/
  | select
  /-- accept the connection of `remote` as descriptor `fd`; `mem` is the memory that `malloc`
  returns -/
  | accept (fd : Option Nat) (remote : UInt32) (mem : Option Fresh)
  /-- serve the connection `id`; `recv` returns `none` for an error and no bytes at the end -/
  | serve (id : Nat) (recv : Option (List UInt8)) (o : Outcome)
  deriving DecidableEq, Repr

namespace World

/-- The thread after `f_mount(&fatfs, "0", 0)`, with its listening socket. -/
def start (v : Volume) (sockfd : Nat) : World where
  vol := fMount v (some .fatfs)
  sockets := Function.update (fun _ => false) sockfd true
  sockfd := sockfd
  conns := []
  readfds := [(sockfd : Int)]
  nextConn := 0
  trace := []

/-- Add the effects of a connection. -/
def record (w : World) (id : Nat) (out : List Effect) : World :=
  { w with trace := w.trace ++ out.map (Prod.mk id) }

/-- `FD_SET(fd, &readfds)` -/
def fdSet (w : World) (fd : Int) : World := { w with readfds := w.readfds.insert fd }

/-- `FD_CLR(fd, &readfds)` -/
def fdClr (w : World) (fd : Int) : World := { w with readfds := w.readfds.filter (· ≠ fd) }

/-- `close(conn->sockfd)` and `destroy_conn(conn)` -/
def dropConn (w : World) (conn : Conn) : World :=
  { w with
    sockets := Function.update w.sockets conn.sockfd false
    conns := w.conns.filter (·.id ≠ conn.id) }.record conn.id [.disconnected conn.sockfd]

/-- The connection with an address. -/
def conn? (w : World) (id : Nat) : Option Conn := w.conns.find? (·.id = id)

end World

/-- The loop before `select`. -/
def selectStep (w : World) : World := w.conns.foldl (fun w conn => w.fdSet conn.sockfd) w

/-- `FTP_WELCOME_MSG` -/
def ftpWelcomeMsg : List UInt8 := textBytes "220 Test FTP server for CC3200 ready.\r\n"

/-- The branch of a new connection. -/
def acceptStep (w : World) (fd : Option Nat) (remote : UInt32) (mem : Option Fresh) : World :=
  match fd.filter fun (n : Nat) => !w.sockets n with
  | none => w
  | some comSocket =>
    let w := ({ w with sockets := Function.update w.sockets comSocket true }.fdSet comSocket).record
      w.nextConn [.accepted comSocket,
        .send comSocket ftpWelcomeMsg ftpWelcomeMsg.length]
    match mem with
    | some m =>
      { w with
        conns := { id := w.nextConn, sockfd := comSocket, remote, pasvActive := m.pasvActive,
                   pasvSockfd := m.pasvSockfd, pasvPort := m.pasvPort,
                   currentdir := [47] } :: w.conns
        nextConn := w.nextConn + 1 }
    -- `alloc_new_conn` writes through the null pointer and makes it the list
    | none => { w.record w.nextConn [.nullPtr] with conns := [], nextConn := w.nextConn + 1 }

/-- One ready connection of the service loop. -/
def serveStep (w : World) (conn : Conn) (recv : Option (List UInt8)) (o : Outcome) : World :=
  match recv with
  | none | some [] => (w.fdClr conn.sockfd).dropConn conn
  | some (b :: bs) =>
    let w := w.record conn.id [.ftpBuf (b :: bs).length]
    let (ret, q) :=
      ftpProcessRequest o { vol := w.vol, sockets := w.sockets, conn } (b :: bs ++ [0])
    let w := { w with
      vol := q.vol
      sockets := q.sockets
      conns := w.conns.map fun (c : Conn) =>
        if c.id = conn.id then q.conn else c }.record conn.id q.out
    if ret = -1 then w.dropConn q.conn else w

/-- One step of the service loop. -/
def step (w : World) : Event → World
  | .select => selectStep w
  | .accept fd remote mem => acceptStep w fd remote mem
  | .serve id recv o =>
    match w.conn? id with
    | some conn => serveStep w conn recv o
    | none => w

end NucleoH743.Ftp
