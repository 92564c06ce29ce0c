import NucleoH743.Proofs.FatFs.Mounts
import NucleoH743.Proofs.Ftp.Calls
import NucleoH743.Proofs.Ftp.Service
import NucleoH743.Proofs.Tftp.Calls
import NucleoH743.Services.Memory

/-!
# `Proofs.Services.Mounted`: what the services mount

Every event of the services is a program of FatFs calls for the volume, and no such program
leaves anything but the registered object mounted.

`MountedRegistered` says that the only filesystem object with a mounted volume is the registered
one. It holds at power-on, where nothing is mounted, and a call of FatFs keeps it: `f_mount` takes
the registration away from one object and gives it to another, and every other call works on the
registered one.

The services reach FatFs through their programs of calls, so it is enough to follow a program for
each event. A step of the FTP loop without a request calls nothing.

- `mounted_step`: the invariant of the volume, for every event.
-/

set_option autoImplicit false

namespace NucleoH743.Services.Memory

open NucleoH743.FatFs
open NucleoH743.Html.Heap (HeapOp)

/-- A step of the FTP loop. -/
theorem mounted_ftp (w : Ftp.World) (e : Ftp.Event) (h : MountedRegistered w.vol) :
    MountedRegistered (Ftp.step w e).vol := by
  cases e with
  | select =>
    obtain ⟨readfds, hsel⟩ := Ftp.selectStep_frame w
    rw [Ftp.step, hsel]
    exact h
  | accept fd remote mem =>
    rw [Ftp.step, Ftp.acceptStep]
    split
    · exact h
    · cases mem <;> exact h
  | serve id recv o =>
    rw [Ftp.step]
    cases w.conn? id with
    | none => exact h
    | some conn =>
      rcases recv with _ | _ | ⟨b, bs⟩
      · exact h
      · exact h
      · show MountedRegistered (Ftp.serveStep w conn (some (b :: bs)) o).vol
        cases ho : o.malloc with
        | false =>
          rw [Ftp.serveStep_noMem w conn b bs ho]
          exact h
        | true =>
          have hrun := Ftp.Calls.run_execute o (w.req conn (Ftp.request (b :: bs)))
            (d := { vol := w.vol, fil := fun _ => Fil.null }) (Ftp.request (b :: bs)) rfl
          have hdisk : MountedRegistered
            ({ vol := w.vol, fil := fun _ => Fil.null } : Disk Ftp.Calls.FileVar).vol := h
          have hexec := hdisk.run (Ftp.Calls.execute o conn (Ftp.request (b :: bs)))
          rw [Ftp.World.req_conn] at hrun
          rw [hrun] at hexec
          rw [Ftp.serveStep_request w conn b bs ho rfl]
          split <;> exact hexec

/-- A call of the HTTP server. A call of FatFs keeps the invariant, and `malloc` and `free` do not
touch the volume. -/
theorem mounted_handle (malloc : Nat) (op : HeapOp) (s : State) (h : MountedRegistered s.vol) :
    MountedRegistered (handle malloc op s).2.vol := by
  have hdisk : MountedRegistered ({ vol := s.vol, fil := s.httpFil } : Disk Nat).vol := h
  have hcall : ∀ c : Call Nat, MountedRegistered (httpCall c s).2.vol := hdisk.call
  cases op with
  | malloc =>
    rw [handle]
    dsimp only
    split <;> exact h
  | free p => exact h
  | fMount => exact h.fMount _
  | fatFs c =>
    cases c with
    | memset file =>
      rw [handle]
      split
      · exact h
      · exact hcall _
    | fOpen file path mode slot =>
      rw [handle]
      split
      · exact h
      · exact hcall _
    | _ => exact hcall _

/-- A program of the HTTP server. -/
theorem mounted_http {α : Type} (malloc : Nat) (p : Html.Heap.HeapProg α) (s : State)
    (h : MountedRegistered s.vol) : MountedRegistered (p.run (handle malloc) s).2.vol := by
  induction p generalizing s with
  | ret a => exact h
  | op c p ih => exact ih _ _ (mounted_handle malloc c s h)

/-- Only the registered object is mounted, whatever happens. By the event. Those of the FTP and HTTP
servers are programs of calls, and a datagram for the TFTP server is one too. -/
theorem mounted_step (s : State) (e : Event) (h : MountedRegistered s.vol) :
    MountedRegistered (step s e).vol := by
  cases e with
  | ftp e => exact mounted_ftp { s.ftp with vol := s.vol } e h
  | ftpCall c =>
    have hdisk : MountedRegistered
      ({ vol := s.vol, fil := s.ftpFil } : Disk Ftp.Calls.FileVar).vol := h
    exact hdisk.call c
  | ftpReturn => exact h
  | tftp e =>
    have hrun := Tftp.Calls.run_step { s.tftp with vol := s.vol } e
    have hdisk : MountedRegistered (Tftp.Calls.diskOf { s.tftp with vol := s.vol }).vol := h
    have hvol := hdisk.run (Tftp.Calls.step { s.tftp with vol := s.vol } e)
    rw [hrun] at hvol
    exact hvol
  | fsOpen fileFs name malloc =>
    rw [step, fsOpen]
    -- an address that is allocated is none that `malloc` returns
    split
    · exact h
    · have hrun := mounted_http malloc (Html.Heap.fsOpenCustom fileFs name) s h
      dsimp only
      split <;> exact hrun
  | fsRead i count =>
    rw [step, fsRead]
    split
    · exact h
    · exact mounted_http 0 _ s h
  | fsClose i =>
    rw [step, fsClose]
    split
    · exact h
    · exact mounted_http 0 _ s h

/-- Nothing but the registered object is mounted at the start. -/
theorem mounted_init (fmt : Nat) (follow : Path → Follow) (nodes : Entry → Option Node)
    (sockfd : Nat) : MountedRegistered (init fmt follow nodes sockfd).vol := by
  have hboot : MountedRegistered (bootVolume fmt follow nodes) := fun fs hty => absurd rfl hty
  exact hboot.fMount _

end NucleoH743.Services.Memory
