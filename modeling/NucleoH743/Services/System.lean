import NucleoH743.Ftp.Calls
import NucleoH743.Html.FsCustom
import NucleoH743.Lib.Threads
import NucleoH743.Tftp.Calls

/-!
# `Services.System`: three services on one volume

The TFTP and the HTTP server run in `tcpip_thread`, the FTP server in `ftpd_thread`. All three
work on logical drive 0. Each callback and each command is a program of FatFs calls, and the
threads interleave between any two calls.

The arguments of a callback or command are part of the event, whatever they are, so the runs of
the model include those of the firmware. The log lists the calls so far, oldest first.

A thread is at rest or in the middle of a job, which is what is left of a program of FatFs calls. A
step lets one thread start a job, make its next call or finish. FatFs itself is not entered by two
threads at once here: a call is one step, and what happens inside of it is the matter of
`FatFs.Diskio`.

The file objects of the TFTP server are global and survive a callback; those of the FTP server are
local variables and end with their request.
-/

set_option autoImplicit false

namespace NucleoH743.Services

open NucleoH743.FatFs

/-- The services. -/
inductive Service where
  | tftp | http | ftp
  deriving DecidableEq, Repr

/-- The threads that call FatFs. -/
inductive Thread where
  | tcpip | ftpd
  deriving DecidableEq, Repr

/-- The names of the file objects of a service. -/
abbrev FilVar : Service → Type
  | .tftp => Tftp.FileVar
  | .http => Nat
  | .ftp => Ftp.Calls.FileVar

instance : (s : Service) → DecidableEq (FilVar s)
  | .tftp => inferInstanceAs (DecidableEq Tftp.FileVar)
  | .http => inferInstanceAs (DecidableEq Nat)
  | .ftp => inferInstanceAs (DecidableEq Ftp.Calls.FileVar)

/-- What `tcpip_thread` calls. -/
inductive Callback where
  | recvCallbackTftp (o : Tftp.Outcome) (p : Tftp.Pbuf)
  | rrqRecvCallback (args : Tftp.Args)
  | wrqRecvCallback (args : Tftp.Args) (p : Tftp.Pbuf) (o : Tftp.Outcome)
  | fsOpenCustom (file : Nat) (fileFs : Html.FsFile) (name : List UInt8)
  | fsReadCustom (fileFs : Html.FsFile) (count : Int)
  | fsCloseCustom (fileFs : Html.FsFile)

/-- A command of an FTP connection. -/
structure Command where
  o : Ftp.Outcome
  conn : Ftp.Conn
  line : List UInt8

/-- What the threads carry out. -/
abbrev Request : Thread → Type
  | .tcpip => Callback
  | .ftpd => Command

/-- A program of a service. -/
abbrev Job : Type := Threads.Job Service (fun s => Call (FilVar s)) (fun _ => Call.Res)

/-- The program of a callback. -/
def Callback.job : Callback → Job
  | .recvCallbackTftp o p => ⟨.tftp, Tftp.Calls.processTftpRequest o p⟩
  | .rrqRecvCallback args => ⟨.tftp, Tftp.Calls.rrqRecvCallback args⟩
  | .wrqRecvCallback args p o => ⟨.tftp, Tftp.Calls.wrqRecvCallback args p o⟩
  | .fsOpenCustom file fileFs name =>
    ⟨.http, do
      let _ ← Html.fsOpenCustom file fileFs name
      pure ()⟩
  | .fsReadCustom fileFs count =>
    ⟨.http, do
      let _ ← Html.fsReadCustom fileFs count
      pure ()⟩
  | .fsCloseCustom fileFs => ⟨.http, Html.fsCloseCustom fileFs⟩

/-- The program of a command. -/
def Command.job (c : Command) : Job := ⟨.ftp, Ftp.Calls.execute c.o c.conn c.line⟩

/-- The volume with the file objects of all services, and the log. -/
structure Shared where
  vol : Volume
  fil : (s : Service) → FilVar s → Fil
  calls : List ((s : Service) × Call (FilVar s))

/-- What a service sees. -/
def Shared.disk (w : Shared) (s : Service) : Disk (FilVar s) := { vol := w.vol, fil := w.fil s }

/-- The thread makes its requests in the name of a service. -/
def job : (t : Thread) → Request t → Job
  | .tcpip, c => c.job
  | .ftpd, c => c.job

/-- A call of a service. -/
def handle (s : Service) (c : Call (FilVar s)) (w : Shared) : c.Res × Shared :=
  let (res, d) := c.handle (w.disk s)
  (res, { vol := d.vol, fil := Function.update w.fil s d.fil, calls := w.calls ++ [⟨s, c⟩] })

/-- The file objects of the FTP server are local variables. -/
def finish : Service → Shared → Shared
  | .ftp, w => { w with fil := Function.update w.fil .ftp fun _ => Fil.null }
  | .tftp, w | .http, w => w

/-- The threads of the firmware on the volume. -/
def system : Threads.Sys Thread Request Service (fun s => Call (FilVar s)) (fun _ => Call.Res)
    Shared where
  job := job
  handle := handle
  finish := finish

/-- The state of the threads and the volume. -/
abbrev State : Type :=
  Threads.State Thread Service (fun s => Call (FilVar s)) (fun _ => Call.Res) Shared

/-- What can happen next. -/
abbrev Event : Type := Threads.Event Thread Request

/-- The volume at power-on: nothing is mounted. -/
def bootVolume (fmt : Nat) (follow : Path → Follow) (nodes : Entry → Option Node) : Volume where
  fatFs := none
  obj := fun _ => {}
  fsid := 0
  fmt := fmt
  files := fun _ => none
  follow := follow
  nodes := nodes

/-- The threads before `ftpd_thread` mounts the volume. -/
def init (fmt : Nat) (follow : Path → Follow) (nodes : Entry → Option Node) : State where
  running := fun
    | .tcpip => none
    | .ftpd => some ⟨.ftp, Ftp.Calls.ftpdThread⟩
  obj := { vol := bootVolume fmt follow nodes, fil := fun _ _ => Fil.null, calls := [] }

/-- One step of the firmware. -/
def step (s : State) (e : Event) : State := Threads.step system s e

/-- The call that the event makes, with its service. -/
def callOf (s : State) (e : Event) : Option ((s : Service) × Call (FilVar s)) :=
  Threads.operation s e

end NucleoH743.Services
