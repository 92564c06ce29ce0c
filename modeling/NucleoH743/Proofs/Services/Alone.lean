import NucleoH743.Proofs.Ftp.Calls
import NucleoH743.Proofs.Tftp.Calls
import NucleoH743.Services.System

/-!
# `Proofs.Services.Alone`: the threads carry out the servers

When no other thread comes between its calls, a thread does to the volume what the function of
its server does: the interleaved system refines to the servers taken one at a time.

A thread in `Services.System` runs a program, one call at a time, and between two calls any other
thread may run. If none does, the state behind the last call is that of the whole program in one go
(`Threads.run_alone`), and the programs are those of `Ftp.Calls` and `Tftp.Calls`. These were
compared with the functions of the servers before, so the theorems here only put the two together.

They tie the interleaved system to the models of the servers: what is proved of one request there is
what a thread does here while it is not disturbed.

- `datagram_alone`: `tcpip_thread` handles a TFTP datagram.
- `command_alone`: `ftpd_thread` executes an FTP command.
-/

set_option autoImplicit false

namespace NucleoH743.Services

open NucleoH743.FatFs
open EventRun (run)

/-- A call of a service does to its files and the volume what FatFs does. -/
theorem handle_disk (svc : Service) (c : Call (FilVar svc)) (w : Shared) :
    (handle svc c w).1 = (c.handle (w.disk svc)).1 ∧
      (handle svc c w).2.disk svc = (c.handle (w.disk svc)).2 := by
  refine ⟨rfl, ?_⟩
  simp [handle, Shared.disk]

/-- So does a program of calls. -/
theorem run_disk {α : Type} (svc : Service) (p : Caller (FilVar svc) α) (w : Shared) :
    (p.run (handle svc) w).2.disk svc = (p.run Call.handle (w.disk svc)).2 := by
  induction p generalizing w with
  | ret a => rfl
  | op c k ih =>
    obtain ⟨hres, hdisk⟩ := handle_disk svc c w
    rw [Prog.run_op, Prog.run_op, ih, hres, hdisk]

/-- A thread that starts a request and is not interrupted. Its calls run one after the other, and as
many steps as it has calls bring it to its end. -/
theorem request_alone {s : State} {t : Thread} (hidle : s.running t = none) (c : Request t) :
    ∃ n, (run step s (.start t c :: List.replicate n (.exec t))).obj =
      finish (job t c).1 ((job t c).2.run (handle (job t c).1) s.obj).2 := by
  generalize hs₁ : step s (.start t c) = s₁
  have hstart : s₁ = { s with running := Function.update s.running t (some (job t c)) } := by
    rw [← hs₁]
    show Threads.step system s (.start t c) = _
    rw [Threads.step, if_pos (by simp [hidle])]
    rfl
  have hrun : s₁.running t = some ⟨(job t c).1, (job t c).2⟩ := by
    rw [hstart]
    exact Function.update_self ..
  have hobj : s₁.obj = s.obj := by rw [hstart]
  obtain ⟨n, hn⟩ := Threads.run_alone system t (job t c).1 (job t c).2 hrun
  refine ⟨n, ?_⟩
  rw [EventRun.run_cons, hs₁]
  have hfinal := congrArg Threads.State.obj hn
  rw [hobj] at hfinal
  exact hfinal

/-- The callback that a datagram reaches. -/
def callbackOf (w : Tftp.World) : Tftp.Event → Option Callback
  | .request o d => some (.recvCallbackTftp o d.p)
  | .datagram upcb o d =>
    match w.pcbs upcb with
    | some (some (.rrqRecvCallback args)) => some (.rrqRecvCallback args)
    | some (some (.wrqRecvCallback args)) => some (.wrqRecvCallback args d.p o)
    | _ => none

/-- The callback that an event runs makes the calls of the event. By the callback that the control
block has, or by port 69. -/
theorem callbackOf_job {w : Tftp.World} {ev : Tftp.Event} {cb : Callback}
    (h : callbackOf w ev = some cb) : cb.job = ⟨.tftp, Tftp.Calls.step w ev⟩ := by
  cases ev with
  | request o d =>
    cases h
    rfl
  | datagram upcb o d =>
    cases hpcb : w.pcbs upcb with
    | none => simp [callbackOf, hpcb] at h
    | some recv =>
      cases recv with
      | none => simp [callbackOf, hpcb] at h
      | some fn =>
        cases fn with
        | rrqRecvCallback args =>
          obtain rfl : Callback.rrqRecvCallback args = cb := by simpa [callbackOf, hpcb] using h
          simp [Tftp.Calls.step, hpcb, Callback.job]
        | wrqRecvCallback args =>
          obtain rfl : Callback.wrqRecvCallback args d.p o = cb := by
            simpa [callbackOf, hpcb] using h
          simp [Tftp.Calls.step, hpcb, Callback.job]

/-- `tcpip_thread` leaves the volume and the file objects of the TFTP server as the server
does. -/
theorem datagram_alone {s : State} (hidle : s.running .tcpip = none) {w : Tftp.World}
    (hdisk : s.obj.disk .tftp = Tftp.Calls.diskOf w) {ev : Tftp.Event} {cb : Callback}
    (hcb : callbackOf w ev = some cb) :
    ∃ n, (run step s (.start .tcpip cb :: List.replicate n (.exec .tcpip))).obj.disk .tftp =
      Tftp.Calls.diskOf (Tftp.step w ev) := by
  obtain ⟨n, hn⟩ := request_alone hidle cb
  refine ⟨n, ?_⟩
  have hjob : job .tcpip cb = ⟨.tftp, Tftp.Calls.step w ev⟩ := callbackOf_job hcb
  rw [hn, hjob]
  show (((Tftp.Calls.step w ev).run (handle .tftp) s.obj).2).disk .tftp = _
  rw [run_disk, hdisk]
  exact Tftp.Calls.run_step w ev

/-- `ftpd_thread` leaves the volume as the command does. -/
theorem command_alone {s : State} (hidle : s.running .ftpd = none) (o : Ftp.Outcome)
    {q : Ftp.Req} (hvol : q.vol = s.obj.vol) (line : List UInt8) :
    ∃ n, (run step s (.start .ftpd { o, conn := q.conn, line } ::
      List.replicate n (.exec .ftpd))).obj.vol = (Ftp.execute o q line).2.vol := by
  obtain ⟨n, hn⟩ := request_alone hidle (t := .ftpd) { o, conn := q.conn, line }
  refine ⟨n, ?_⟩
  rw [hn]
  have hrun := run_disk .ftp (Ftp.Calls.execute o q.conn line) s.obj
  calc (finish .ftp ((Ftp.Calls.execute o q.conn line).run (handle .ftp) s.obj).2).vol
      = (((Ftp.Calls.execute o q.conn line).run (handle .ftp) s.obj).2.disk .ftp).vol := rfl
    _ = ((Ftp.Calls.execute o q.conn line).run Call.handle (s.obj.disk .ftp)).2.vol := by
      rw [hrun]
    _ = (Ftp.execute o q line).2.vol := Ftp.Calls.run_execute o q line hvol

end NucleoH743.Services
