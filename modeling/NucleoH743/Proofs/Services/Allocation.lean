import NucleoH743.Proofs.Services.Mounted

/-!
# `Proofs.Services.Allocation`: what a failing allocation does

Two of the four allocations are checked too late: `alloc_new_conn` and `fs_open_custom` write
through the pointer that `malloc` returns, and the first of them makes it the list of
connections.

The other two are checked, and still reach other sessions. A failing FTP request closes its
socket and drops its connection, but the descriptor stays in `readfds`: the next `select` of
`ftpd_thread`, on which all connections depend, waits for a closed socket. A failing TFTP request
removes its control block, but it has mounted the volume before, and unmounts it after: the open
files of all other sessions are lost, and so is the volume of the FTP connections, which mount it
only once.

The proof first says what a failing event leaves, one lemma for each allocation, and then compares
the views of the other sessions before and after. What another session sees of a failing FTP
request is the closed descriptor, among its own sockets or in `readfds`; of a failing TFTP request
it is the volume without its work area.

- `accept_failed`, `fsOpen_null`: the two that follow the null pointer.
- `request_contained_iff`, `tftp_contained_iff`: the two that are checked.
- `alloc_contained_iff`: along every history, the failures are contained iff they do no harm.
-/

set_option autoImplicit false

namespace NucleoH743.Services.Memory

open NucleoH743.FatFs
open NucleoH743.Html (FsFile)
open EventRun (Along along_congr)

/-! ### Failing allocations -/

/-- The request reaches `mem_malloc`: the root directory and the file of the session open. -/
def ReachesMalloc (w : Tftp.World) (o : Tftp.Outcome) (d : Tftp.Datagram) : Prop :=
  o.udpNew = true ∧ o.udpBind = true ∧
    (fOpendir (fMount w.vol (some .filesystem)) Tftp.rootPath).1 = .ok ∧
    match Tftp.tftpDecodeOp d.p with
    | .rrq =>
      (fOpen (Tftp.requestVol w) (w.file .fileSD) (Tftp.tftpExtractFilename d.p)
        { faRead := true } o.slot).1 = .ok
    | .wrq =>
      (fOpen (Tftp.requestVol w) (w.file .fileCR) (Tftp.tftpExtractFilename d.p)
        { faCreateAlways := true, faWrite := true } o.slot).1 = .ok
    | _ => False

/-- The event makes an allocation for the session, which fails. -/
inductive AllocFails (s : State) : Event → Session → Prop
  /-- `malloc` of `alloc_new_conn` -/
  | accept {fd : Nat} {remote : UInt32} (hfd : s.ftp.sockets fd = false) :
    AllocFails s (.ftp (.accept (some fd) remote none)) (.ftp s.ftp.nextConn)
  /-- `malloc` of `ftp_process_request` -/
  | request {id : Nat} {conn : Ftp.Conn} (hconn : s.ftp.conn? id = some conn) {b : UInt8}
    {bs : List UInt8} {o : Ftp.Outcome} (hmalloc : o.malloc = false) :
    AllocFails s (.ftp (.serve id (some (b :: bs)) o)) (.ftp id)
  /-- `mem_malloc` of `tftp_process_read` and `tftp_process_write` -/
  | tftp {o : Tftp.Outcome} {d : Tftp.Datagram}
    (hreach : ReachesMalloc { s.tftp with vol := s.vol } o d) (hmalloc : o.memMalloc = false) :
    AllocFails s (.tftp (.request o d)) (.tftp s.tftp.nextPcb)
  /-- `malloc` of `fs_open_custom` -/
  | fsOpen {fileFs : FsFile} {name : List UInt8} : AllocFails s (.fsOpen fileFs name 0) (.http 0)

/-- The request lines that the FTP server has carried out. -/
def lines (trace : List (Nat × Ftp.Effect)) : List (List UInt8) :=
  trace.filterMap fun x =>
    match x.2 with
    | .requested line => some line
    | _ => none

/-- The request is refused: there is no connection, no command, no file, or an error message. -/
def Refused (s s' : State) : Event → Prop
  | .ftp (.accept _ _ _) => s'.ftp.conn? s.ftp.nextConn = none
  | .ftp (.serve _ _ _) => s'.vol = s.vol ∧ lines s'.ftp.trace = lines s.ftp.trace
  | .tftp (.request _ d) => ∃ err, Tftp.Effect.sendto s.tftp.nextPcb d.addr d.port
      (Tftp.tftpErrorPacket err) ∈ s'.tftp.trace.drop s.tftp.trace.length
  | .fsOpen _ _ _ => s'.files = s.files
  | _ => True

/-- The socket or the control block of the request is released. -/
def Released (s s' : State) : Event → Prop
  | .ftp (.accept (some fd) _ _) => s'.ftp.sockets fd = false
  | .ftp (.serve id _ _) =>
    ∀ conn, s.ftp.conn? id = some conn → s'.ftp.sockets conn.sockfd = false
  | .tftp (.request _ _) => s'.tftp.pcbs s.tftp.nextPcb = none
  | _ => True

/-- The failure of the event touches the session `k` only. -/
structure Contained (s : State) (e : Event) (k : Session) : Prop where
  noNull : nullDerefs (step s e) = nullDerefs s
  refused : Refused s (step s e) e
  released : Released s (step s e) e
  connList : (step s e).ftp.conns = s.ftp.conns.filter fun conn => Session.ftp conn.id ≠ k
  others : ∀ k', k' ≠ k → view (step s e) k' = view s k'

/-- A failing allocation of the event is contained. -/
def FailureContained (s : State) (e : Event) : Prop := ∀ k, AllocFails s e k → Contained s e k

/-! ### The condition -/

/-- The session needs the volume as it is: it has an open file, or it is an FTP connection, whose
next request opens one without mounting the volume before. -/
def NeedsVolume (s : State) : Session → Prop
  | .ftp id => s.ftp.conn? id ≠ none ∧ s.vol.fatFs ≠ none
  | .transfer => ∃ f, (s.ftpFil f).valid s.vol = true
  | .tftp upcb => ∃ r, s.tftp.pcbs upcb = some (some r) ∧
      (s.tftp.file (fileVar r)).valid s.vol = true
  | .http file => (∃ f ∈ s.files, f.pextension = some file) ∧
      (s.httpFil file).valid s.vol = true

/-- The failure of an allocation of this kind does no harm. For an FTP request there is no other
connection, or none that has the socket open and the socket is not in `readfds`; or the socket is
closed already. For a TFTP request no other session needs the volume. -/
def Harmless (s : State) (k : Session) : Event → Prop
  | .ftp (.serve id _ _) => ∀ conn, s.ftp.conn? id = some conn → ∀ id' ≠ id, ∀ conn',
      s.ftp.conn? id' = some conn' → conn.sockfd ∈ fds conn' ∨ conn.sockfd ∈ s.ftp.readfds →
      s.ftp.sockets conn.sockfd = false
  | .tftp _ => ∀ k', k' ≠ k → ¬ NeedsVolume s k'
  | _ => False

/-- If an allocation of the event fails, it does no harm. -/
def FailureHarmless (s : State) (e : Event) : Prop := ∀ k, AllocFails s e k → Harmless s k e

/-! ### FTP -/

section Ftp
variable {s : State}

/-- A failing accept follows the null pointer, forgets every connection, and keeps the new socket
open. -/
theorem accept_failed {fd : Nat} (remote : UInt32) (hfd : s.ftp.sockets fd = false) :
    (step s (.ftp (.accept (some fd) remote none))).ftp.trace =
        s.ftp.trace ++ [(s.ftp.nextConn, .accepted fd),
          (s.ftp.nextConn, .send fd Ftp.ftpWelcomeMsg Ftp.ftpWelcomeMsg.length)] ++
          [(s.ftp.nextConn, .nullPtr)] ∧
      (step s (.ftp (.accept (some fd) remote none))).ftp.conns = [] ∧
      (step s (.ftp (.accept (some fd) remote none))).ftp.sockets fd = true := by
  have hfree : (some fd).filter (fun (n : Nat) => !s.ftp.sockets n) = some fd := by
    simp [Option.filter, hfd]
  dsimp only [step, Ftp.step, Ftp.acceptStep]
  rw [hfree]
  exact ⟨rfl, rfl, Function.update_self ..⟩

/-- So the null pointer is followed once more. -/
theorem accept_null {fd : Nat} (remote : UInt32) (hfd : s.ftp.sockets fd = false) :
    nullDerefs (step s (.ftp (.accept (some fd) remote none))) = nullDerefs s + 1 := by
  rw [nullDerefs, (accept_failed remote hfd).1, List.countP_append, List.countP_append, nullDerefs]
  show _ + 0 + 1 + s.nullWrites = _ + s.nullWrites + 1
  omega

/-- What a failing request leaves: its connection is closed and taken out of the list. Its socket
stays in `readfds`, since `FD_CLR` stands on the other branch only. -/
theorem request_dropped {id : Nat} {conn : Ftp.Conn} (hconn : s.ftp.conn? id = some conn)
    (b : UInt8) (bs : List UInt8) {o : Ftp.Outcome} (hmalloc : o.malloc = false) :
    step s (.ftp (.serve id (some (b :: bs)) o)) =
      { s with ftp := { s.ftp with
          vol := s.vol
          sockets := Function.update s.ftp.sockets conn.sockfd false
          conns := s.ftp.conns.filter fun c => c.id ≠ id
          trace := s.ftp.trace ++ [(id, .ftpBuf (b :: bs).length),
            (id, .disconnected conn.sockfd)] } } := by
  obtain ⟨-, rfl⟩ := Ftp.World.conn?_eq hconn
  -- the structure is stored back before it is dropped
  have hconns : (s.ftp.conns.map fun c => if c.id = conn.id then conn else c).filter
      (fun c => c.id ≠ conn.id) = s.ftp.conns.filter fun c => c.id ≠ conn.id := by
    induction s.ftp.conns with
    | nil => rfl
    | cons c cs ih =>
      by_cases hc : c.id = conn.id
      · simpa [hc] using ih
      · simpa [hc] using ih
  have hstep : Ftp.step { s.ftp with vol := s.vol } (.serve conn.id (some (b :: bs)) o) =
      Ftp.serveStep { s.ftp with vol := s.vol } conn (some (b :: bs)) o := by
    have hfind : ({ s.ftp with vol := s.vol } : Ftp.World).conn? conn.id = some conn := hconn
    rw [Ftp.step, hfind]
  have hdrop := hstep.trans (Ftp.serveStep_noMem _ conn b bs hmalloc)
  simp only [step, hdrop]
  simp only [Ftp.World.dropConn, Ftp.World.afterRequest, Ftp.World.record, hconns]
  simp

/-- A connection with another address is still found. -/
theorem conn?_filter (conns : List Ftp.Conn) {id id' : Nat} (hne : id' ≠ id) :
    (conns.filter fun c => c.id ≠ id).find? (fun c => c.id = id') =
      conns.find? fun c => c.id = id' := by
  rw [List.find?_filter]
  congr 1
  funext c
  by_cases hc : c.id = id'
  · simp [hc, hne]
  · simp [hc]

/-- Closing a descriptor is seen by those who have it open. -/
theorem map_update_iff (sockets : Int → Bool) (fd : Int) (l : List Int) :
    l.map (Function.update sockets fd false) = l.map sockets ↔
      (fd ∈ l → sockets fd = false) := by
  rw [List.map_inj_left]
  constructor
  · intro h hmem
    rw [← h fd hmem, Function.update_self]
  · intro h a ha
    by_cases hfd : a = fd
    · subst hfd
      rw [Function.update_self, h ha]
    · rw [Function.update_of_ne hfd]

/-- Closing a descriptor makes it stale where it is selected on. A descriptor that was closed before
is stale already, and one that is not in the set does not count. -/
theorem filter_update_iff (sockets : Int → Bool) (fd : Int) (l : List Int) :
    (l.filter fun a => !Function.update sockets fd false a) = (l.filter fun a => !sockets a) ↔
      (fd ∈ l → sockets fd = false) := by
  constructor
  · intro h hmem
    have hstale : fd ∈ l.filter fun a => !Function.update sockets fd false a :=
      List.mem_filter.2 ⟨hmem, by rw [Function.update_self]; rfl⟩
    rw [h] at hstale
    simpa using (List.mem_filter.1 hstale).2
  · intro h
    refine List.filter_congr fun a ha => ?_
    by_cases hfd : a = fd
    · subst hfd
      rw [Function.update_self, h ha]
    · rw [Function.update_of_ne hfd]

/-- A failing request is contained iff its socket is closed already where another connection has
it open or `select` waits for it on behalf of another connection. -/
theorem request_contained_iff {id : Nat} {conn : Ftp.Conn} (hconn : s.ftp.conn? id = some conn)
    (b : UInt8) (bs : List UInt8) {o : Ftp.Outcome} (hmalloc : o.malloc = false) :
    Contained s (.ftp (.serve id (some (b :: bs)) o)) (.ftp id) ↔
      Harmless s (.ftp id) (.ftp (.serve id (some (b :: bs)) o)) := by
  have hstep := request_dropped hconn b bs hmalloc
  have hviews : (∀ k', k' ≠ Session.ftp id →
      view (step s (.ftp (.serve id (some (b :: bs)) o))) k' = view s k') ↔
        Harmless s (.ftp id) (.ftp (.serve id (some (b :: bs)) o)) := by
    rw [hstep]
    constructor
    · -- an equal view leaves the open and the stale descriptors of the session alone
      intro h conn' hconn' id' hne c hc
      obtain rfl : conn = conn' := Option.some.inj (hconn.symm.trans hconn')
      have hview := h (.ftp id') (by simpa using hne)
      have hfind : (s.ftp.conns.filter fun c => c.id ≠ id).find? (fun c => c.id = id') = some c :=
        (conn?_filter _ hne).trans hc
      simp only [view, Ftp.World.conn?] at hview hc
      rw [hfind, hc] at hview
      simp only [Option.map_some, View.ftp.injEq, Option.some.injEq, FtpView.mk.injEq, true_and]
        at hview
      rintro (hopen | hselect)
      · exact (map_update_iff _ _ _).1 hview.1 hopen
      · exact (filter_update_iff _ _ _).1 hview.2 hselect
    · -- and only a descriptor of its own in the closed socket could change a view
      intro h k' hne
      cases k' with
      | ftp id' =>
        have hne : id' ≠ id := fun heq => hne (congrArg Session.ftp heq)
        have hfind := conn?_filter s.ftp.conns hne
        simp only [view, Ftp.World.conn?]
        rw [hfind]
        cases hc : s.ftp.conns.find? fun c => c.id = id' with
        | none => rfl
        | some c =>
          have hclosed := h conn hconn id' hne c hc
          have hsock := (map_update_iff s.ftp.sockets conn.sockfd (fds c)).2 fun hmem =>
            hclosed (.inl hmem)
          have hstale := (filter_update_iff s.ftp.sockets conn.sockfd s.ftp.readfds).2 fun hmem =>
            hclosed (.inr hmem)
          simp only [Option.map_some, hsock, stale, hstale]
      | transfer | tftp _ | http _ => rfl
  refine ⟨fun h => hviews.1 h.others, fun h => ⟨?_, ?_, ?_, ?_, hviews.2 h⟩⟩
  · rw [hstep]
    simp [nullDerefs, List.countP_append]
  · rw [hstep]
    exact ⟨rfl, by simp [lines]⟩
  · rw [hstep]
    intro conn' hconn'
    obtain rfl : conn = conn' := Option.some.inj (hconn.symm.trans hconn')
    exact Function.update_self ..
  · rw [hstep]
    simp

end Ftp

/-! ### HTTP -/

section Http
variable (s : State) (fileFs : FsFile) (name : List UInt8)

/-- The steps of an open without a file object fail, and write through no null pointer. -/
theorem run_openSteps_null :
    ((Html.Heap.openSteps 0 name).run (handle 0) s).1 = false ∧
      ((Html.Heap.openSteps 0 name).run (handle 0) s).2.ftp = s.ftp ∧
      ((Html.Heap.openSteps 0 name).run (handle 0) s).2.nullWrites = s.nullWrites := by
  -- without the directory the object is not opened, and behind it `f_open` refuses the pointer
  by_cases hdir : (fOpendir (fMount s.vol (some .filesystem)) (CStr.textBytes "/")).1 = .ok
  · simp [Html.Heap.openSteps, Html.Heap.fatFs, handle, httpCall, Call.handle, hdir]
  · simp [Html.Heap.openSteps, Html.Heap.fatFs, handle, httpCall, Call.handle, hdir]

/-- A failing open clears a file object at the null pointer. That is one more null pointer that is
followed, so the failure is not contained. -/
theorem fsOpen_null :
    nullDerefs (step s (.fsOpen fileFs name 0)) = nullDerefs s + 1 := by
  have hsteps := run_openSteps_null { s with nullWrites := s.nullWrites + 1 } name
  have hrun : (Html.Heap.fsOpenCustom fileFs name).run (handle 0) s =
      ((false, fileFs), { ((Html.Heap.openSteps 0 name).run (handle 0)
        { s with nullWrites := s.nullWrites + 1 }).2 with
          heap := (((Html.Heap.openSteps 0 name).run (handle 0)
            { s with nullWrites := s.nullWrites + 1 }).2.heap.erase 0) }) := by
    show ((Html.Heap.openSteps 0 name >>= fun opened => _).run (handle 0)
      { s with nullWrites := s.nullWrites + 1 }) = _
    rw [Prog.run_bind, hsteps.1]
    rfl
  have hstep : step s (.fsOpen fileFs name 0) =
      ((Html.Heap.fsOpenCustom fileFs name).run (handle 0) s).2 := by
    rw [step, fsOpen, if_neg (by simp), hrun]
    rfl
  rw [hstep, hrun, nullDerefs, nullDerefs, hsteps.2.1, hsteps.2.2]
  rfl

end Http

/-! ### TFTP -/

section Tftp
variable {w : Tftp.World} {o : Tftp.Outcome} {d : Tftp.Datagram}

/-- What a failing request leaves behind: the error message is sent, the control block is removed,
and the volume is unmounted. -/
structure RequestFailed (w : Tftp.World) (d : Tftp.Datagram) (w' : Tftp.World) : Prop where
  vol : MountedRegistered w.vol → ∀ fp : Fil, fp.valid w'.vol = false
  fatFs : w'.vol.fatFs = none
  pcbs : w'.pcbs = Function.update w.pcbs w.nextPcb none
  trace : ∃ err, w'.trace = w.trace ++ [.sendto w.nextPcb d.addr d.port (Tftp.tftpErrorPacket err),
    .udpRemove w.nextPcb, .pbufFree]

/-- The end of a request that got no memory. The request has opened its file or not; in both cases
its file object is closed and the volume is unmounted. -/
theorem cleanup_failed (f : Tftp.FileVar) (file : Tftp.FileVar → Fil) {vol : Volume}
    (hkept : MountedRegistered w.vol → MountedRegistered vol) (err : Tftp.TftpErrorcode) :
    RequestFailed w d ((Tftp.tftpCleanup f (Tftp.tftpSendErrorMessage
      { Tftp.requestWorld w with vol, file } w.nextPcb d.addr d.port err) w.nextPcb
        false).emit .pbufFree) where
  vol hv fp := by
    have hclose := (hkept hv).kept (kept_fClose vol (file f))
    exact fMount_invalid hclose none fp
  fatFs := rfl
  pcbs := by
    show Function.update (Function.update w.pcbs w.nextPcb (some none)) w.nextPcb none = _
    rw [Function.update_idem]
  trace := ⟨err, by
    show ((w.trace ++ [_]) ++ [_]) ++ [_] = _
    simp⟩

/-- The volume that a request has mounted. -/
theorem requestVol_kept (hv : MountedRegistered w.vol) : MountedRegistered (Tftp.requestVol w) :=
  (hv.fMount (some .filesystem)).kept (kept_fOpendir _ _)

/-- A read request without memory fails behind its open. -/
theorem processRead_failed (hmalloc : o.memMalloc = false) {name : List UInt8}
    (hopen : (fOpen (Tftp.requestVol w) (w.file .fileSD) name { faRead := true } o.slot).1 = .ok) :
    RequestFailed w d ((Tftp.tftpProcessRead o (Tftp.requestWorld w) w.nextPcb d.addr d.port
      name).emit .pbufFree) := by
  have hkept := kept_fOpen (Tftp.requestVol w) (w.file .fileSD) name { faRead := true } o.slot
  rcases hres : fOpen (Tftp.requestVol w) (w.file .fileSD) name { faRead := true } o.slot
    with ⟨res, fp, vol⟩
  rw [hres] at hopen hkept
  obtain rfl : res = .ok := hopen
  rw [Tftp.tftpProcessRead]
  simp only [show fOpen (Tftp.requestWorld w).vol ((Tftp.requestWorld w).file .fileSD) name
    { faRead := true } o.slot = (.ok, fp, vol) from hres, hmalloc]
  exact cleanup_failed .fileSD _ (fun hv => (requestVol_kept hv).kept hkept) .notDefined

/-- And so does a write request. Its file has been created or emptied before the memory is asked
for. -/
theorem processWrite_failed (hmalloc : o.memMalloc = false) {name : List UInt8}
    (hopen : (fOpen (Tftp.requestVol w) (w.file .fileCR) name
      { faCreateAlways := true, faWrite := true } o.slot).1 = .ok) :
    RequestFailed w d ((Tftp.tftpProcessWrite o (Tftp.requestWorld w) w.nextPcb d.addr d.port
      name).emit .pbufFree) := by
  have hkept := kept_fOpen (Tftp.requestVol w) (w.file .fileCR) name
    { faCreateAlways := true, faWrite := true } o.slot
  rcases hres : fOpen (Tftp.requestVol w) (w.file .fileCR) name
    { faCreateAlways := true, faWrite := true } o.slot with ⟨res, fp, vol⟩
  rw [hres] at hopen hkept
  obtain rfl : res = .ok := hopen
  rw [Tftp.tftpProcessWrite]
  simp only [show fOpen (Tftp.requestWorld w).vol ((Tftp.requestWorld w).file .fileCR) name
    { faCreateAlways := true, faWrite := true } o.slot = (.ok, fp, vol) from hres, hmalloc]
  exact cleanup_failed .fileCR _ (fun hv => (requestVol_kept hv).kept hkept) .notDefined

/-- A request without memory fails. An error message is sent, the control block is removed, and the
volume is unmounted behind the mount of the request. -/
theorem request_failed (hreach : ReachesMalloc w o d) (hmalloc : o.memMalloc = false) :
    RequestFailed w d (Tftp.step w (.request o d)) := by
  obtain ⟨hnew, hbind, hdir, hopen⟩ := hreach
  cases hop : Tftp.tftpDecodeOp d.p with
  | rrq =>
    rw [hop] at hopen
    have hproc : Tftp.step w (.request o d) = (Tftp.tftpProcessRead o (Tftp.requestWorld w)
        w.nextPcb d.addr d.port (Tftp.tftpExtractFilename d.p)).emit .pbufFree := by
      simp [Tftp.step, Tftp.recvCallbackTftp, Tftp.processTftpRequest, hnew, hbind, hop, hdir,
        Tftp.requestWorld, Tftp.requestVol]
    rw [hproc]
    exact processRead_failed hmalloc hopen
  | wrq =>
    rw [hop] at hopen
    have hproc : Tftp.step w (.request o d) = (Tftp.tftpProcessWrite o (Tftp.requestWorld w)
        w.nextPcb d.addr d.port (Tftp.tftpExtractFilename d.p)).emit .pbufFree := by
      simp [Tftp.step, Tftp.recvCallbackTftp, Tftp.processTftpRequest, hnew, hbind, hop, hdir,
        Tftp.requestWorld, Tftp.requestVol]
    rw [hproc]
    exact processWrite_failed hmalloc hopen
  | _ =>
    rw [hop] at hopen
    exact hopen.elim

end Tftp

section TftpContained
variable {s : State} {o : Tftp.Outcome} {d : Tftp.Datagram}

/-- An object that is not valid is no open file. -/
theorem openFile_of_invalid {vol : Volume} {fp : Fil} (h : fp.valid vol = false) :
    openFile vol fp = none := if_neg (by simp [h])

/-- A file object is no open file iff it is not valid. -/
theorem none_eq_openFile_iff {vol : Volume} {fp : Fil} :
    none = openFile vol fp ↔ fp.valid vol = false := by
  simp [openFile]

/-- When the volume is unmounted, a session sees it iff it needs the volume. -/
theorem view_unmounted_iff {s' : State} {k : Session} (hvol : ∀ fp : Fil, fp.valid s'.vol = false)
    (hfatFs : s'.vol.fatFs = none) (hftp : ∀ id, s'.ftp.conn? id = s.ftp.conn? id)
    (hsockets : s'.ftp.sockets = s.ftp.sockets) (hreadfds : s'.ftp.readfds = s.ftp.readfds)
    (hpcbs : ∀ upcb, k = .tftp upcb → s'.tftp.pcbs upcb = s.tftp.pcbs upcb)
    (hfiles : s'.files = s.files) : view s' k = view s k ↔ ¬ NeedsVolume s k := by
  have hnone : ∀ fp : Fil, openFile s'.vol fp = none := fun fp => openFile_of_invalid (hvol fp)
  -- a session is hit if it wants the volume, or if a file of it was open
  cases k with
  | ftp id =>
    simp only [view, NeedsVolume, hftp, hsockets, stale, hreadfds, hfatFs]
    cases s.ftp.conn? id with
    | none => simp
    | some conn => simp [eq_comm]
  | transfer =>
    simp only [view, hnone, NeedsVolume, View.transfer.injEq, funext_iff, not_exists,
      Bool.not_eq_true]
    exact forall_congr' fun f => none_eq_openFile_iff
  | tftp upcb =>
    simp only [view, hnone, NeedsVolume, hpcbs upcb rfl, View.tftp.injEq]
    rcases s.tftp.pcbs upcb with _ | _ | r
    · simp
    · simp
    · simp [none_eq_openFile_iff]
  | http file =>
    simp only [view, hnone, NeedsVolume, hfiles, View.http.injEq]
    cases hfind : s.files.find? fun f => f.pextension = some file with
    | none =>
      have hno : ¬ ∃ f ∈ s.files, f.pextension = some file := by
        rintro ⟨f, hf, hext⟩
        simpa [hext] using List.find?_eq_none.1 hfind f hf
      simp [hno]
    | some f =>
      have hyes : ∃ f ∈ s.files, f.pextension = some file :=
        ⟨f, List.mem_of_find?_eq_some hfind, by simpa using List.find?_some hfind⟩
      simp [hyes, none_eq_openFile_iff]

/-- A failing request is contained iff no other session needs the volume. The unmount takes the
volume from everybody; those who need it see the difference. -/
theorem tftp_contained_iff (hvol : MountedRegistered s.vol)
    (hreach : ReachesMalloc { s.tftp with vol := s.vol } o d) (hmalloc : o.memMalloc = false) :
    Contained s (.tftp (.request o d)) (.tftp s.tftp.nextPcb) ↔
      Harmless s (.tftp s.tftp.nextPcb) (.tftp (.request o d)) := by
  obtain ⟨hfailed, hfatFs, hpcbs, err, htrace⟩ := request_failed hreach hmalloc
  have hviews : ∀ k', k' ≠ Session.tftp s.tftp.nextPcb →
      (view (step s (.tftp (.request o d))) k' = view s k' ↔ ¬ NeedsVolume s k') := by
    intro k' hne
    refine view_unmounted_iff (hfailed hvol) hfatFs (fun _ => rfl) rfl rfl ?_ rfl
    rintro upcb rfl
    have hupcb : upcb ≠ s.tftp.nextPcb := fun heq => hne (congrArg Session.tftp heq)
    show (Tftp.step _ (.request o d)).pcbs upcb = _
    rw [hpcbs, Function.update_of_ne hupcb]
  constructor
  · intro h k' hne
    exact (hviews k' hne).1 (h.others k' hne)
  · intro h
    refine ⟨rfl, ⟨err, ?_⟩, ?_, ?_, fun k' hne => (hviews k' hne).2 (h k' hne)⟩
    · show _ ∈ (Tftp.step _ (.request o d)).trace.drop _
      rw [htrace]
      simp
    · show (Tftp.step _ (.request o d)).pcbs _ = _
      rw [hpcbs, Function.update_self]
    · have hall : ∀ conn : Ftp.Conn, Session.ftp conn.id ≠ Session.tftp s.tftp.nextPcb := by simp
      simp [step, hall]

end TftpContained

/-! ### Every event -/

/-- A failing allocation is contained iff it does no harm. By the session that the allocation is
for: one of FTP, of TFTP, a new one, or an open of HTTP. -/
theorem contained_iff {s : State} (hvol : MountedRegistered s.vol) {e : Event} {k : Session}
    (h : AllocFails s e k) : Contained s e k ↔ Harmless s k e := by
  cases h with
  | accept hfd =>
    refine ⟨fun h => ?_, fun h => h.elim⟩
    have hnull := h.noNull
    rw [accept_null _ hfd] at hnull
    omega
  | request hconn hmalloc => exact request_contained_iff hconn _ _ hmalloc
  | tftp hreach hmalloc => exact tftp_contained_iff hvol hreach hmalloc
  | fsOpen =>
    refine ⟨fun h => ?_, fun h => h.elim⟩
    have hnull := h.noNull
    rw [fsOpen_null] at hnull
    omega

/-- Along every history, the failing allocations are contained iff they do no harm. Each allocation
of the history may fail. Harm is what the step then does beyond the request or the session that it
fails for, in the files, the sockets, the volume or the set of `select`; `Harmless` says from the
state in front of the step when there is none. -/
theorem alloc_contained_iff (fmt : Nat) (follow : Path → Follow) (nodes : Entry → Option Node)
    (sockfd : Nat) (es : List Event) :
    Along step FailureContained (init fmt follow nodes sockfd) es ↔
      Along step FailureHarmless (init fmt follow nodes sockfd) es := by
  refine along_congr (fun s e hs _ => mounted_step s e hs) ?_
    (mounted_init fmt follow nodes sockfd) es
  intro s e hs
  exact forall_congr' fun k => forall_congr' fun h => contained_iff hs h

/-- An accept without memory for the connection follows the null pointer. -/
theorem accept_uncontained : ¬ ∀ fmt follow nodes sockfd es,
    Along step FailureContained (init fmt follow nodes sockfd) es := by
  intro h
  have hcont := (h 3 (fun _ => .origin) (fun _ => none) 3 [.ftp (.accept (some 4) 0 none)]).1
  have hnull := (hcont _ (.accept rfl)).noNull
  exact absurd hnull (by decide)

end NucleoH743.Services.Memory
