import NucleoH743.Proofs.FatFs.Mounts
import NucleoH743.Services.System

/-!
# `Proofs.Services.SharedVolume`: one drive, two filesystem objects

The FTP server mounts its own filesystem object once. The TFTP and HTTP servers mount another
one for every file, and the end of a TFTP session unmounts the drive. `f_mount` makes all open
files invalid, so a service disturbs the others exactly by a mount while they have a file open,
and the FTP server finds no filesystem exactly behind the end of a TFTP session.

The registered object is the argument of the last `f_mount`, whoever made it; `Inv` keeps this along
a run, beside the log of the calls. An open file is valid while its filesystem object is mounted
under the number that the file has noted, and `f_mount` clears the object that it replaces and the
one that it registers. So there is nothing to find out about the files of the others: a mount makes
them invalid, and no other call does.

The condition is on the order of the calls in the log and on what is open, not on what the calls
return. Both properties can fail only at a step that breaks it, and they do fail there, so the
equivalence holds step by step and then along the run.

- `inv_step`: what every call keeps about the registered object.
- `volume_shared_iff`: over every interleaving, the services share the volume iff no service
  mounts or unmounts it under the open files of another one, and the FTP server opens nothing
  behind an unmount.
-/

set_option autoImplicit false

namespace NucleoH743.Services

open NucleoH743.FatFs
open EventRun (run Along along_congr)
open CStr (textBytes)

/-! ### Sharing the volume -/

/-- Drive 0 has a registered object when an FTP command opens a file or directory. -/
def FtpOpensRegistered (s : State) (e : Event) : Prop :=
  ∀ c : Call (FilVar .ftp), callOf s e = some ⟨.ftp, c⟩ → c.opens = true → s.obj.vol.fatFs ≠ none

/-- A service leaves the open files of the other services valid. -/
def KeepsOthers (s : State) (e : Event) : Prop :=
  ∀ svc (c : Call (FilVar svc)), callOf s e = some ⟨svc, c⟩ →
    ∀ other, other ≠ svc → ∀ f : FilVar other, (s.obj.fil other f).valid s.obj.vol = true →
      ((step s e).obj.fil other f).valid (step s e).obj.vol = true

/-- The step keeps both properties of the shared volume. -/
def SharesVolume (s : State) (e : Event) : Prop := FtpOpensRegistered s e ∧ KeepsOthers s e

/-! ### The condition -/

/-- The argument of the last `f_mount` in the log. -/
def lastMount (calls : List ((svc : Service) × Call (FilVar svc))) : Option (Option FsObj) :=
  (calls.filterMap fun c => c.2.mounts).getLast?

/-- An FTP command opens nothing after a cleanup of the TFTP server, until the next mount. -/
def OpensMounted (s : State) (e : Event) : Prop :=
  ∀ c : Call (FilVar .ftp), callOf s e = some ⟨.ftp, c⟩ → c.opens = true →
    lastMount s.obj.calls ≠ some none

/-- A service mounts or unmounts the volume only while no other service has a file open. -/
def MountsAlone (s : State) (e : Event) : Prop :=
  ∀ svc (c : Call (FilVar svc)), callOf s e = some ⟨svc, c⟩ → c.mounts ≠ none →
    ∀ other, other ≠ svc → ∀ f : FilVar other, (s.obj.fil other f).valid s.obj.vol = false

/-- Mounts and opens are in an order that suits all services. -/
def MountFits (s : State) (e : Event) : Prop := OpensMounted s e ∧ MountsAlone s e

/-! ### What every call keeps -/

/-- The last mount is the one of the last call, if it is a mount, or the one before it. -/
theorem lastMount_append (calls : List ((svc : Service) × Call (FilVar svc)))
    (c : (svc : Service) × Call (FilVar svc)) :
    lastMount (calls ++ [c]) = c.2.mounts.or (lastMount calls) := by
  unfold lastMount
  cases hc : c.2.mounts <;> simp [List.filterMap_append, hc]

/-- The services of the two threads. -/
def Serves : Thread → Service → Prop
  | .tcpip, svc => svc ≠ .ftp
  | .ftpd, svc => svc = .ftp

/-- What holds between any two calls. -/
structure Inv (s : State) : Prop where
  /-- the last `f_mount` registered its argument -/
  registered : s.obj.vol.fatFs = (lastMount s.obj.calls).join
  mounted : MountedRegistered s.obj.vol
  serves : Threads.Parties Serves s.running
  /-- the FTP server starts with its mount -/
  started : s.running .ftpd = some ⟨.ftp, Ftp.Calls.ftpdThread⟩ ∨ lastMount s.obj.calls ≠ none

/-- At power-on nothing is registered and nothing is open. -/
theorem inv_init (fmt : Nat) (follow : Path → Follow) (nodes : Entry → Option Node) :
    Inv (init fmt follow nodes) where
  registered := rfl
  mounted fs hty := absurd rfl hty
  serves := by
    rintro (_ | _) j hj
    · cases hj
    · cases hj
      exact rfl
  started := .inl rfl

/-- A thread runs jobs of its own services only. -/
theorem serves_job (t : Thread) (c : Request t) : Serves t (job t c).1 := by
  cases t with
  | tcpip => cases c <;> exact nofun
  | ftpd => exact rfl

/-- The volume and the log after a call. -/
theorem step_call {s : State} {e : Event} {svc : Service} {c : Call (FilVar svc)}
    (h : callOf s e = some ⟨svc, c⟩) :
    (step s e).obj = (handle svc c s.obj).2 := Threads.step_operation system h

/-- An event without a call changes neither the volume nor the log. -/
theorem step_noCall {s : State} {e : Event} (h : callOf s e = none) :
    (step s e).obj.vol = s.obj.vol ∧ (step s e).obj.calls = s.obj.calls := by
  obtain hsame | ⟨svc, hfin⟩ := Threads.step_obj system h
  · exact ⟨congrArg Shared.vol hsame, congrArg Shared.calls hsame⟩
  · have hobj : (step s e).obj = finish svc s.obj := hfin
    rw [hobj]
    cases svc <;> exact ⟨rfl, rfl⟩

/-- Every step keeps the registered object the one of the last mount. By the event: a call of a
thread is one of FatFs for its service, and the end of a request takes the service off its
thread. -/
theorem inv_step {s : State} (h : Inv s) (e : Event) : Inv (step s e) := by
  have hserves : Threads.Parties Serves (step s e).running :=
    Threads.step_parties system serves_job h.serves e
  cases hcall : callOf s e with
  | none =>
    -- a step without a call changes neither the volume nor the log
    obtain ⟨hvol, hlog⟩ := step_noCall hcall
    refine ⟨?_, hvol ▸ h.mounted, hserves, ?_⟩
    · rw [hvol, hlog]
      exact h.registered
    · rw [hlog]
      obtain hrun | hlast := h.started
      · obtain hsame | rfl := Threads.step_running system hrun e
        · exact .inl hsame
        · simp [callOf, Threads.operation, hrun, Ftp.Calls.ftpdThread, Caller.fMount,
            Prog.call] at hcall
      · exact .inr hlast
  | some svcCall =>
    obtain ⟨svc, c⟩ := svcCall
    have hobj := step_call hcall
    have hlog : lastMount (step s e).obj.calls = c.mounts.or (lastMount s.obj.calls) := by
      rw [hobj]
      exact lastMount_append s.obj.calls ⟨svc, c⟩
    cases hm : c.mounts with
    -- a mount is the last one of the log from now on
    | some fs? =>
      obtain rfl : c = .fMount fs? := by cases c <;> cases hm; rfl
      have hvol : (step s e).obj.vol = fMount s.obj.vol fs? := by
        rw [hobj]
        rfl
      refine ⟨?_, ?_, hserves, ?_⟩
      · rw [hvol, hlog]
        rfl
      · rw [hvol]
        exact h.mounted.fMount fs?
      · rw [hlog]
        exact .inr (by simp [Call.mounts])
    | none =>
      -- any other call leaves the registered object alone
      have hkept : Kept s.obj.vol (step s e).obj.vol := by
        rw [hobj]
        exact c.kept (s.obj.disk svc) hm
      rw [hm, Option.none_or] at hlog
      refine ⟨?_, h.mounted.kept hkept, hserves, ?_⟩
      · rw [hkept.fatFs, hlog]
        exact h.registered
      · rw [hlog]
        obtain hrun | hlast := h.started
        · obtain hsame | rfl := Threads.step_running system hrun e
          · exact .inl hsame
          · -- the first call of the FTP server is its mount
            have hfirst : callOf s (.exec .ftpd) = some ⟨.ftp, .fMount (some .fatfs)⟩ := by
              simp [callOf, Threads.operation, hrun, Ftp.Calls.ftpdThread, Caller.fMount,
                Prog.call]
            rw [hfirst] at hcall
            cases hcall
            cases hm
        · exact .inr hlast

/-! ### One step -/

section Step
variable {s : State} {e : Event}

/-- When the FTP server opens something, the volume has been mounted before. -/
theorem mounted_before (h : Inv s) {c : Call (FilVar .ftp)} (hcall : callOf s e = some ⟨.ftp, c⟩)
    (hopens : c.opens = true) : lastMount s.obj.calls ≠ none := by
  obtain hrun | hlast := h.started
  · obtain ⟨t, k, rfl, hrun'⟩ := Threads.operation_eq_some hcall
    have hserve : Serves t .ftp := h.serves t _ hrun'
    cases t with
    | tcpip => exact absurd rfl hserve
    | ftpd =>
      rw [hrun] at hrun'
      cases hrun'
      cases hopens
  · exact hlast

/-- An open of the FTP server finds an object registered iff the last mount has registered one. -/
theorem ftpOpensRegistered_iff (h : Inv s) : FtpOpensRegistered s e ↔ OpensMounted s e := by
  refine forall₃_congr fun c hcall hopens => not_congr ?_
  have hbefore := mounted_before h hcall hopens
  rw [h.registered]
  cases hlast : lastMount s.obj.calls with
  | none => exact absurd hlast hbefore
  | some fs? => simp

/-- A call leaves the files of the others valid iff it is no mount, or no other service has a file
open: a mount makes all files invalid. -/
theorem keepsOthers_iff (h : Inv s) : KeepsOthers s e ↔ MountsAlone s e := by
  refine forall₃_congr fun svc c hcall => ?_
  have hobj := step_call hcall
  have hfil : ∀ other, other ≠ svc → (step s e).obj.fil other = s.obj.fil other := by
    intro other hne
    rw [hobj]
    exact Function.update_of_ne hne _ _
  cases hm : c.mounts with
  | none =>
    -- every other call leaves all valid files valid
    have hkept : Kept s.obj.vol (step s e).obj.vol := by
      rw [hobj]
      exact c.kept (s.obj.disk svc) hm
    refine iff_of_true ?_ fun hne => absurd rfl hne
    intro other hne f hv
    rw [hfil other hne]
    exact hkept.valid hv
  | some fs? =>
    obtain rfl : c = .fMount fs? := by cases c <;> cases hm; rfl
    have hinvalid : ∀ fp : Fil, fp.valid (step s e).obj.vol = false := by
      intro fp
      rw [hobj]
      exact fMount_invalid h.mounted fs? fp
    constructor
    · intro hkeeps _ other hne f
      by_contra hv
      have hvalid := hkeeps other hne f (by simpa using hv)
      rw [hinvalid] at hvalid
      cases hvalid
    · intro halone other hne f hv
      rw [halone nofun other hne f] at hv
      cases hv

/-- A step shares the volume iff it fits. -/
theorem sharesVolume_iff (h : Inv s) : SharesVolume s e ↔ MountFits s e :=
  and_congr (ftpOpensRegistered_iff h) (keepsOthers_iff h)

end Step

/-! ### Every interleaving -/

/-- From power-on, over every interleaving of the services at their FatFs calls: drive 0 has a
filesystem object at every open of the FTP server, and no service makes an open file of another
one invalid, iff no service mounts or unmounts the volume while another one has a file open, and
the FTP server opens nothing between a cleanup of the TFTP server and the next mount. -/
theorem volume_shared_iff (fmt : Nat) (follow : Path → Follow) (nodes : Entry → Option Node)
    (es : List Event) :
    Along step SharesVolume (init fmt follow nodes) es ↔
      Along step MountFits (init fmt follow nodes) es := by
  have hstep : ∀ s e, Inv s → SharesVolume s e → Inv (step s e) := fun _ e h _ => inv_step h e
  have hiff : ∀ s e, Inv s → (SharesVolume s e ↔ MountFits s e) := fun _ _ => sharesVolume_iff
  exact along_congr hstep hiff (inv_init fmt follow nodes) es

/-! ### Two orders that disturb the FTP server -/

/-- A drive with the file `a` of one byte. -/
def oneFile : State :=
  init 1 (fun path => if path = textBytes "/" then .origin else .entry path)
    fun e => if e = textBytes "a" then some (.file [7]) else none

/-- A connection to the FTP server, in the root directory. -/
def rootConn : Ftp.Conn :=
  { id := 0, sockfd := 1, remote := 0, pasvActive := true, pasvSockfd := 2, pasvPort := 0,
    currentdir := textBytes "/" }

/-- A read request for a file. -/
def readRequest (name : String) : Callback :=
  .recvCallbackTftp {} (.single ([0, 1] ++ textBytes name ++ [0] ++ textBytes "octet" ++ [0]))

/-- `ftpd_thread` mounts the volume, and a client asks for `a`, up to the open file. -/
def upToRetr : List Event :=
  [.exec .ftpd, .exec .ftpd, .start .ftpd { o := {}, conn := rootConn, line := textBytes "RETR a" },
    .exec .ftpd, .exec .ftpd, .exec .ftpd, .exec .ftpd, .start .tcpip (readRequest "a")]

/-- A TFTP client asks for a file that does not exist, and an FTP client for the listing. -/
def upToList : List Event :=
  [.exec .ftpd, .exec .ftpd, .start .tcpip (readRequest "b"),
    .exec .tcpip, .exec .tcpip, .exec .tcpip, .exec .tcpip, .exec .tcpip, .exec .tcpip,
    .start .ftpd { o := {}, conn := rootConn, line := textBytes "LIST" }]

/-- A TFTP request takes the file away that the FTP server sends, and after a refused TFTP
request the FTP server finds no filesystem. -/
theorem volume_not_shared :
    ¬ Along step KeepsOthers oneFile (upToRetr ++ [.exec .tcpip]) ∧
      ¬ Along step FtpOpensRegistered oneFile (upToList ++ [.exec .ftpd]) := by
  constructor
  · intro h
    obtain ⟨hlast, -⟩ := (EventRun.along_append _ _ _ _ _).1 h |>.2
    have hcall : callOf (run step oneFile upToRetr) (.exec .tcpip) =
        some ⟨.tftp, .fMount (some .filesystem)⟩ := by decide
    have hopen : ((run step oneFile upToRetr).obj.fil .ftp .file).valid
        (run step oneFile upToRetr).obj.vol = true := by decide
    have hgone : ((step (run step oneFile upToRetr) (.exec .tcpip)).obj.fil .ftp .file).valid
        (step (run step oneFile upToRetr) (.exec .tcpip)).obj.vol = false := by decide
    have hkept := hlast .tftp _ hcall .ftp nofun .file hopen
    rw [hgone] at hkept
    cases hkept
  · intro h
    obtain ⟨hlast, -⟩ := (EventRun.along_append _ _ _ _ _).1 h |>.2
    have hcall : callOf (run step oneFile upToList) (.exec .ftpd) =
        some ⟨.ftp, .fOpendir (textBytes "/")⟩ := by decide
    have hnone : (run step oneFile upToList).obj.vol.fatFs = none := by decide
    exact hlast _ hcall rfl hnone

end NucleoH743.Services
