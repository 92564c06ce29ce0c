import NucleoH743.Html.Heap
import NucleoH743.Services.System

/-!
# `Services.Memory`: the services and their allocations

The FTP server with its connections, the TFTP server with its control blocks, and the HTTP server
with its files, on one volume. The FTP server takes a block for a connection and one for a
request, the TFTP server one for a session, and the HTTP server one for a file; each allocation
may fail, and a null pointer of the HTTP server is the address 0.

A step of the FTP loop and a callback of `tcpip_thread` are events. `ftpd_thread` may be in the
middle of a request when a callback runs, so the FatFs calls of a request are events as well.

Nothing that a service holds is known to the others, but three things are shared: the volume, which
any service may mount anew, the global file objects of the TFTP server, and the `select` of
`ftpd_thread`, which waits for all its connections at once. A `Session` is one client, and its
`view` is what decides how the service goes on with this client. So a failed allocation of one
client is seen by another if and only if it changes the other's view.

`FtpView` has the volume that a request of the connection will find, and the closed descriptors in
`readfds` (`stale`), since a `select` on one of these fails and lets no connection be served.
-/

set_option autoImplicit false

namespace NucleoH743.Services.Memory

open NucleoH743.FatFs
open NucleoH743.Html (FsFile)
open NucleoH743.Html.Heap (HeapOp)

/-- The three services on the volume. The volumes of `ftp` and `tftp` are those of their last
steps. -/
structure State where
  vol : Volume
  ftp : Ftp.World
  /-- the file objects of the request that `ftpd_thread` is in -/
  ftpFil : Ftp.Calls.FileVar → Fil
  tftp : Tftp.World
  /-- the blocks of the HTTP server -/
  heap : List Nat
  /-- the file objects in these blocks -/
  httpFil : Nat → Fil
  /-- the open files of the HTTP server -/
  files : List FsFile
  /-- how often the HTTP server has written through a null pointer -/
  nullWrites : Nat

/-- What happens. -/
inductive Event where
  /-- a step of the loop of `ftpd_thread` -/
  | ftp (e : Ftp.Event)
  /-- a FatFs call of a request -/
  | ftpCall (c : Call Ftp.Calls.FileVar)
  /-- the end of a request -/
  | ftpReturn
  /-- a datagram for the TFTP server -/
  | tftp (e : Tftp.Event)
  /-- `fs_open_custom`, where `malloc` returns an address -/
  | fsOpen (fileFs : FsFile) (name : List UInt8) (malloc : Nat)
  /-- `fs_read` of the open file at a position -/
  | fsRead (i : Nat) (count : Int)
  /-- `fs_close` of the open file at a position -/
  | fsClose (i : Nat)

/-! ### The HTTP server -/

/-- A call of FatFs on a file object of the HTTP server. -/
def httpCall (c : Call Nat) (s : State) : c.Res × State :=
  let (res, d) := c.handle { vol := s.vol, fil := s.httpFil }
  (res, { s with vol := d.vol, httpFil := d.fil })

/-- The calls of `fs_custom.c`. `memset` writes through the pointer it gets, and `f_open` checks
it. -/
def handle (malloc : Nat) : (o : HeapOp) → State → o.Res × State
  | .malloc, s => (malloc, if malloc = 0 then s else { s with heap := malloc :: s.heap })
  | .free p, s => ((), { s with heap := s.heap.erase p })
  | .fMount, s => (.ok, { s with vol := fMount s.vol (some .filesystem) })
  | .fatFs (.memset file), s =>
    if file = 0 then ((), { s with nullWrites := s.nullWrites + 1 }) else httpCall (.memset file) s
  | .fatFs (.fOpen file path mode slot), s =>
    if file = 0 then (.invalidObject, s) else httpCall (.fOpen file path mode slot) s
  | .fatFs c, s => httpCall c s

/-- `fs_open_custom`. `malloc` does not return a block that is allocated. -/
def fsOpen (s : State) (fileFs : FsFile) (name : List UInt8) (malloc : Nat) : State :=
  if malloc ≠ 0 ∧ malloc ∈ s.heap then s
  else
    let ((opened, file), s) := (Html.Heap.fsOpenCustom fileFs name).run (handle malloc) s
    if opened then { s with files := file :: s.files } else s

/-- `fs_read` -/
def fsRead (s : State) (i : Nat) (count : Int) : State :=
  match s.files[i]? with
  | none => s
  | some file =>
    let ((_, _, file), s) :=
      ((Html.fsRead [] file count).interp Html.Heap.fatFs).run (handle 0) s
    { s with files := s.files.set i file }

/-- `fs_close` -/
def fsClose (s : State) (i : Nat) : State :=
  match s.files[i]? with
  | none => s
  | some file =>
    let (_, s) := (Html.Heap.fsClose file).run (handle 0) s
    { s with files := s.files.eraseIdx i }

/-! ### The system -/

/-- One event. -/
def step (s : State) : Event → State
  | .ftp e =>
    let w := Ftp.step { s.ftp with vol := s.vol } e
    { s with ftp := w, vol := w.vol }
  | .ftpCall c =>
    let (_, d) := c.handle { vol := s.vol, fil := s.ftpFil }
    { s with vol := d.vol, ftpFil := d.fil }
  | .ftpReturn => { s with ftpFil := fun _ => Fil.null }
  | .tftp e =>
    let w := Tftp.step { s.tftp with vol := s.vol } e
    { s with tftp := w, vol := w.vol }
  | .fsOpen fileFs name malloc => fsOpen s fileFs name malloc
  | .fsRead i count => fsRead s i count
  | .fsClose i => fsClose s i

/-- The services after `ftpd_thread` has its listening socket, on a disk with any contents. -/
def init (fmt : Nat) (follow : Path → Follow) (nodes : Entry → Option Node) (sockfd : Nat) :
    State :=
  let ftp := Ftp.World.start (bootVolume fmt follow nodes) sockfd
  { vol := ftp.vol
    ftp
    ftpFil := fun _ => Fil.null
    tftp := Tftp.World.init ftp.vol
    heap := []
    httpFil := fun _ => Fil.null
    files := []
    nullWrites := 0 }

/-! ### Sessions -/

/-- A client of the services. -/
inductive Session where
  /-- an FTP connection, by the address of its structure -/
  | ftp (id : Nat)
  /-- the request that `ftpd_thread` is in -/
  | transfer
  /-- a TFTP session, by its control block -/
  | tftp (upcb : Nat)
  /-- a file of the HTTP server, by the address of its file object -/
  | http (file : Nat)
  deriving DecidableEq, Repr

/-- What an FTP connection has of its own, and what it shares with the rest of the server: the
volume that its requests find, and the `select` that wakes `ftpd_thread` up for it. -/
structure FtpView where
  conn : Ftp.Conn
  /-- which of its sockets are open -/
  open? : List Bool
  /-- `FatFs[0]` -/
  fatFs : Option FsObj
  /-- the closed descriptors in `readfds`, on which `select` fails -/
  stale : List Int

/-- What a session has of its own, or depends on. -/
inductive View where
  | ftp (conn : Option FtpView)
  | transfer (fil : Ftp.Calls.FileVar → Option Fil)
  | tftp (pcb : Option (Option (Tftp.RecvFn × Option Fil)))
  | http (file : Option (FsFile × Option Fil))

/-- The control socket of a connection, and its data socket if it is active. -/
def fds (conn : Ftp.Conn) : List Int :=
  conn.sockfd :: if conn.pasvActive then [conn.pasvSockfd] else []

/-- The file object that a session works on. -/
def fileVar : Tftp.RecvFn → Tftp.FileVar
  | .rrqRecvCallback _ => .fileSD
  | .wrqRecvCallback _ => .fileCR

/-- An open file. An object that `validate` rejects is no open file. -/
def openFile (vol : Volume) (fp : Fil) : Option Fil := if fp.valid vol then some fp else none

/-- The closed descriptors that `ftpd_thread` selects on. -/
def stale (w : Ftp.World) : List Int := w.readfds.filter fun fd => !w.sockets fd

/-- The structure of a session, its sockets, its open files, and for an FTP connection the volume
and the `select` of its server. The other servers mount the volume for every request of their
own. -/
def view (s : State) : Session → View
  | .ftp id =>
    .ftp ((s.ftp.conn? id).map fun conn =>
      { conn, open? := (fds conn).map s.ftp.sockets, fatFs := s.vol.fatFs, stale := stale s.ftp })
  | .transfer => .transfer fun f => openFile s.vol (s.ftpFil f)
  | .tftp upcb =>
    .tftp ((s.tftp.pcbs upcb).map fun recv =>
      recv.map fun r => (r, openFile s.vol (s.tftp.file (fileVar r))))
  | .http file =>
    .http ((s.files.find? fun f => f.pextension = some file).map fun f =>
      (f, openFile s.vol (s.httpFil file)))

/-- How often a null pointer has been followed. -/
def nullDerefs (s : State) : Nat :=
  (s.ftp.trace.countP fun x => x.2 = .nullPtr) + s.nullWrites

end NucleoH743.Services.Memory
