import Mathlib.Algebra.Group.Int.Defs
import Mathlib.Algebra.Group.Nat.Defs
import NucleoH743.FatFs.Volume
import NucleoH743.Lib.CStr

/-!
# `Ftp.Cmds`: the helpers of the FTP server

The types of `ftpd.h` and the functions of `cmds.c`. A helper works on a `Req`, the state that
one request sees: the volume, the socket table, the connection and the effects so far, oldest
first.

A C string is the list of its bytes before the NUL. What the code writes into `spare_buf`
appears in the effects, so that the bounds of the buffer are a statement about them.

The paths come from the client, and no function here looks at what they are made of: `do_full_path`
glues the argument to the current directory, `do_step_down` cuts at the last slash. The current
directory of a connection is what these two leave in it, and every later request builds its path
upon it.

The listings and replies are texts of any length that go through buffers of a fixed size. The
effects have the whole text, so that a theorem can compare it with the buffer.
-/

set_option autoImplicit false

namespace NucleoH743.Ftp

open NucleoH743.FatFs
open CStr (textBytes)

/-- `ftp_cmd_user` -/
inductive Cmd where
  | user | pass | list | nlst | pwd | type | pasv | retr | stor | size | mdtm | syst | cwd
  | cdup | port | rest | mkd | dele | rmd | feat | quit | unknown
  deriving DecidableEq, Repr

/-- `FTP_DATA_PORT` -/
def ftpDataPort : UInt16 := 20

/-- `FTP_PASSV_PORT` -/
def ftpPassvPort : UInt16 := 10000

/-- `FTP_BUFFER_SIZE` -/
def ftpBufferSize : Nat := 4096

/-- `struct conn`. The field `status` is never used. -/
structure Conn where
  /-- the address of the structure -/
  id : Nat
  sockfd : Int
  /-- `remote.sin_addr` -/
  remote : UInt32
  pasvActive : Bool
  pasvSockfd : Int
  pasvPort : UInt16
  offset : Nat := 0
  currentdir : List UInt8 := []
  deriving DecidableEq, Repr

/-- What the server asks of the network, and what it does to its own memory. -/
inductive Effect where
  /-- the log line of a request -/
  | requested (buf : List UInt8)
  /-- `socket`, with its result -/
  | socket (fd : Int)
  | bind (fd : Int) (port : UInt16)
  | listen (fd : Int)
  | connect (fd : Int) (addr : UInt32) (port : UInt16) (ok : Bool)
  /-- `accept` on a data port, with its result -/
  | accept (listening fd : Int)
  | select (fd : Int)
  | recv (fd : Int)
  /-- `send(fd, buf, size, 0)`, with the bytes that the buffer holds -/
  | send (fd : Int) (buf : List UInt8) (size : Nat)
  | close (fd : Int)
  /-- a string is stored in `spare_buf` -/
  | spareBuf (s : List UInt8)
  /-- a NUL is stored at an index of `ftp_buf` -/
  | ftpBuf (i : Nat)
  /-- a null pointer is followed -/
  | nullPtr
  /-- `buf` is read behind the NUL of the line -/
  | pastEnd
  /-- the service loop accepted the connection -/
  | accepted (fd : Int)
  /-- the service loop closed the connection -/
  | disconnected (fd : Int)
  deriving DecidableEq, Repr

/-- The directory entry that `f_readdir` returns (`FILINFO`). -/
structure Filinfo where
  fname : List UInt8
  fsize : Nat
  fdate : UInt16
  /-- `AM_DIR` of `fattrib` -/
  amDir : Bool
  deriving DecidableEq, Repr

/-- The state that a request works on. -/
structure Req where
  vol : Volume
  /-- the descriptors in use -/
  sockets : Int → Bool
  conn : Conn
  out : List Effect := []

namespace Req

/-- Add an effect. -/
def emit (q : Req) (e : Effect) : Req := { q with out := q.out ++ [e] }

/-- Store a string in `spare_buf`. -/
def spare (q : Req) (s : List UInt8) : Req := q.emit (.spareBuf s)

end Req

/-! ### Texts -/

section Texts

/-- `%d` -/
def formatInt (n : Int) : List UInt8 := textBytes (toString n)

/-- A field of at least `width` characters. -/
def padLeft (width : Nat) (s : List UInt8) : List UInt8 :=
  List.replicate (width - s.length) 32 ++ s

/-- The `int` that the low 32 bits of a number spell. -/
def toInt32 (n : Nat) : Int := Int.bmod n (2 ^ 32)

/-- `isspace` of a byte. -/
def isSpace (b : UInt8) : Bool := b = 32 ∨ (9 ≤ b ∧ b ≤ 13)

/-- The value of the decimal digits at the start of a string. -/
def digits (n : Nat) : List UInt8 → Nat
  | [] => n
  | b :: bs => if 48 ≤ b ∧ b ≤ 57 then digits (10 * n + (b.toNat - 48)) bs else n

/-- `atoi`: blanks, a sign and digits; the value saturates at the bounds of `int`. -/
def atoi (s : List UInt8) : Int :=
  match s.dropWhile isSpace with
  | 45 :: ds => max (-(digits 0 ds : Int)) (-2 ^ 31)
  | 43 :: ds => min (digits 0 ds) (2 ^ 31 - 1)
  | ds => min (digits 0 ds) (2 ^ 31 - 1)

/-- The tokens that `strtok` finds, one call after the other. -/
def strtok (delim s : List UInt8) : List (List UInt8) :=
  (s.splitOnP (delim.contains ·)).filter (· ≠ [])

/-- `months` -/
def months : List String :=
  ["Jan", "Feb", "Mar", "Apr", "May", "Jun", "Jul", "Aug", "Sep", "Oct", "Nov", "Dec", "Ukn"]

end Texts

/-! ### Command names -/

/-- `str_begin_with(src, match) == 0` -/
def strBeginWith : List UInt8 → List UInt8 → Bool
  | _, [] => true
  | [], _ :: _ => false
  | s :: src, m :: mat => if m ≠ s then false else strBeginWith src mat

/-- The names that `do_parse_command` compares with, in its order. -/
def cmdNames : List (String × Cmd) :=
  [("USER", .user), ("PASS", .pass), ("LIST", .list), ("NLST", .nlst), ("PWD", .pwd),
    ("XPWD", .pwd), ("TYPE", .type), ("PASV", .pasv), ("RETR", .retr), ("STOR", .stor),
    ("SIZE", .size), ("MDTM", .mdtm), ("SYST", .syst), ("CWD", .cwd), ("CDUP", .cdup),
    ("PORT", .port), ("REST", .rest), ("MKD", .mkd), ("DELE", .dele), ("RMD", .rmd),
    ("FEAT", .feat), ("QUIT", .quit)]

/-- `do_parse_command` -/
def doParseCommand (buf : List UInt8) : Cmd :=
  ((cmdNames.find? fun n => strBeginWith buf (textBytes n.1)).map Prod.snd).getD .unknown

/-! ### Paths -/

/-- The bytes before the last slash. -/
def cutLastSlash : List UInt8 → Option (List UInt8)
  | [] => none
  | b :: bs =>
    match cutLastSlash bs with
    | some r => some (b :: r)
    | none => if b = 47 then some [] else none

/-- `do_step_down`: cut the path at its last slash behind the first character; without one it
becomes the root. -/
def doStepDown : List UInt8 → List UInt8
  | [] => [47]
  | b :: bs => ((cutLastSlash bs).map (b :: ·)).getD [47]

/-- `do_full_path`: the path in `new_path` and the current directory, which the `..` branch
changes. -/
def doFullPath (currentdir path : List UInt8) : List UInt8 × List UInt8 :=
  if path.head? = some 47 then (path, currentdir)
  else if currentdir = [47] then (path, currentdir)
  else if path.take 2 = [46, 46] then (doStepDown currentdir, doStepDown currentdir)
  else (currentdir ++ 47 :: path, currentdir)

namespace Req

/-- `do_full_path(conn, path, spare_buf, 256)`: the new content of `spare_buf`. -/
def fullPath (q : Req) (path : List UInt8) : List UInt8 × Req :=
  let (new, currentdir) := doFullPath q.conn.currentdir path
  (new, { q with conn := { q.conn with currentdir } }.spare new)

end Req

/-! ### Replies -/

/-- `do_send_reply`: `str` takes 255 characters of the text, and `send` gets the length of
the whole text. -/
def doSendReply (q : Req) (sock : Int) (text : List UInt8) : Req :=
  if text = [] then q else q.emit (.send sock (text.take 255) text.length)

/-- A reply on the control connection. -/
def Req.reply (q : Req) (text : List UInt8) : Req := doSendReply q q.conn.sockfd text

/-- The lines of a listing, each sent on its own. -/
def sendLines (q : Req) (sock : Int) (lines : List (List UInt8)) : Req :=
  lines.foldl (doSendReply · sock) q

/-- The line of `do_full_list` for one directory entry. -/
def fullLine (fno : Filinfo) : List UInt8 :=
  let day := fno.fdate &&& 0x1f
  let mon := ((fno.fdate >>> 5) &&& 0x0f) - 1
  let year := ((fno.fdate >>> 9) &&& 0x3f) + 1980
  -- a month of 0 wraps and falls into the error branch
  let (mon, year) := if mon > 12 then (0, 2000) else (mon, year)
  textBytes (if fno.amDir then "drw-r--r-- 1 root root " else "-rw-r--r-- 1 root root ") ++
    padLeft 9 (formatInt (if fno.amDir then 0 else toInt32 fno.fsize)) ++ textBytes " " ++
    textBytes (months.getD mon.toNat "") ++ textBytes " " ++
    padLeft 2 (formatInt day.toNat) ++ textBytes " " ++
    padLeft 4 (formatInt year.toNat) ++ textBytes " " ++ fno.fname ++ textBytes "\r\n"

/-- The path without a slash in its last position. -/
def trimSlash (name : List UInt8) : List UInt8 :=
  if 1 < name.length ∧ name.getLast? = some 47 then name.dropLast else name

/-- `do_full_list(conn->currentdir, sockfd)`. `readdir` are the entries that `f_readdir`
returns before it fails or the directory ends. -/
def doFullList (q : Req) (sockfd : Int) (readdir : List Filinfo) : Req :=
  let name := trimSlash q.conn.currentdir
  let q := { q with conn := { q.conn with currentdir := name } }
  let (rc, _, vol) := fOpendir q.vol name
  let q := { q with vol }
  if rc ≠ .ok then doSendReply q sockfd (textBytes "500 Internal Server Error\r\n")
  else sendLines q sockfd (readdir.map fullLine)

/-- `do_simple_list(conn->currentdir, sockfd)` -/
def doSimpleList (q : Req) (sockfd : Int) (readdir : List Filinfo) : Req :=
  let (rc, _, vol) := fOpendir q.vol q.conn.currentdir
  let q := { q with vol }
  if rc ≠ .ok then doSendReply q sockfd (textBytes "500 Internal Error\r\n")
  else sendLines q sockfd (readdir.map fun fno => fno.fname ++ textBytes "\r\n")

/-- `do_get_filesize` -/
def doGetFilesize (vol : Volume) (filename : List UInt8) : Int × Volume :=
  let (rc, file, vol) := fOpen vol Fil.null filename { faRead := true } false
  if rc = .ok then
    let (_, _, vol') := fClose vol file
    (toInt32 file.data.length, vol')
  else (-1, vol)

end NucleoH743.Ftp
