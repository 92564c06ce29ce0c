import NucleoH743.Proofs.FatFs.Locks
import NucleoH743.Proofs.Ftp.Service

/-!
# `Proofs.Ftp.OpenObjects`: what a command leaves open

FatFs keeps two entries for open files and sub-directories. A command of the FTP server starts
without open objects, and `noLocks_execute` tells exactly which commands leave none behind. The
listing of a sub-directory never closes it, and a `STOR` whose data stops arriving does not
close its file.

FatFs registers what is open in a table with two entries. An object that a command does not close
keeps its entry after the request, for ever, as its file or directory object was a local variable of
the command.

A file is always registered, and the root directory is not. `noLocks_execute` goes through the
commands: those that make a single call of FatFs open nothing that they do not close; `SIZE` and
`RETR` close what they open on every branch; `STOR` closes its file except where `select` runs out
of time; and `LIST` and `NLST` leave their directory open, which is an entry in the table unless it
is the root directory.

Along a run the table is empty up to the first command that leaves an entry, so the property of the
whole run is the conjunction of the conditions of its steps.

- `open_objects_conserved`: a run leaves the table alone iff all its commands do.
-/

set_option autoImplicit false

namespace NucleoH743.Ftp

open NucleoH743.FatFs
open EventRun
open CStr (textBytes)

/-! ### Commands -/

section Commands
variable (o : Outcome) (q : Req) (p : Option (List UInt8))

/-- `do_get_filesize` closes the file that it opens. -/
theorem noLocks_doGetFilesize {v : Volume} (h : NoLocks v) (path : List UInt8) :
    NoLocks (doGetFilesize v path).2 := by
  have hopen := fOpen_files h Fil.null path { faRead := true } false
  generalize heq : fOpen v Fil.null path { faRead := true } false = r at hopen
  obtain ⟨rc, file, v'⟩ := r
  dsimp only at hopen
  simp only [doGetFilesize, heq]
  by_cases hok : rc = .ok
  · subst hok
    exact fClose_files hopen (fOpen_spec heq).valid
  · rw [if_neg hok] at hopen ⊢
    exact hopen.1

/-- `LIST` opens its directory, and never closes it. -/
theorem cmdList_vol :
    (cmdList o q).vol = (fOpendir q.vol (trimSlash q.conn.currentdir)).2.2 := by
  dsimp only [cmdList, listing, doFullList]
  split <;> simp

/-- `NLST` does the same, without the slash cut off. -/
theorem cmdNlst_vol : (cmdNlst o q).vol = (fOpendir q.vol q.conn.currentdir).2.2 := by
  dsimp only [cmdNlst, listing, doSimpleList]
  split <;> simp

/-- The transfer loop of `RETR` moves the file pointer only. -/
theorem retrLoop_frame (turns : Nat) (q : Req) (file : Fil) :
    (retrLoop turns q file).1.vol = q.vol ∧
      ∃ fptr, (retrLoop turns q file).2 = { file with fptr } := by
  induction turns generalizing q file with
  | zero => exact ⟨rfl, file.fptr, rfl⟩
  | succ turns ih =>
    obtain ⟨fptr, hread⟩ := fRead_frame q.vol file ftpBufferSize
    dsimp only [retrLoop]
    rw [hread]
    split
    · exact ih _ _
    · exact ⟨rfl, fptr, rfl⟩

/-- The transfer of `RETR` closes its file. The close is behind the loop, on every way through
it. -/
theorem noLocks_retrTransfer (path : List UInt8) (numBytes : Int) {file : Fil}
    (h : OneLock q.vol file.lockid) (hv : file.valid q.vol = true) :
    NoLocks (retrTransfer q path numBytes file).vol := by
  dsimp only [retrTransfer]
  obtain ⟨fptr, hseek⟩ : ∃ fptr, (if seeks q.conn.offset numBytes then
      (fLseek q.vol file q.conn.offset).2 else file) = { file with fptr } := by
    split
    · exact fLseek_frame ..
    · exact ⟨file.fptr, rfl⟩
  rw [hseek]
  generalize hq₁ : q.reply (retrOpening q.conn.offset numBytes path) = q₁
  have hvol : q₁.vol = q.vol := by rw [← hq₁, reply_vol]
  obtain ⟨hloop, fptr', hfile⟩ :=
    retrLoop_frame (({ file with fptr } : Fil).data.length + 1) q₁ { file with fptr }
  rw [close_vol, reply_vol, hloop, hfile, hvol]
  exact fClose_files h hv

/-- `RETR` closes the file on both of its opens. What is sent in between is not the volume's. By the
results of the two opens. -/
theorem noLocks_cmdRetr (line : List UInt8) (h : NoLocks q.vol) :
    NoLocks (cmdRetr o q p line).vol := by
  dsimp only [cmdRetr]
  rw [paramPath_fst, paramPath_vol, copyLine_vol, copyLine_conn]
  have hsize := noLocks_doGetFilesize h (paramPath o q.conn.currentdir p)
  split
  · exact (reply_vol _ _).symm ▸ hsize
  · have hopen := fOpen_files hsize Fil.null (paramPath o q.conn.currentdir p)
      { faRead := true } false
    generalize heq : fOpen _ Fil.null (paramPath o q.conn.currentdir p) { faRead := true } false = r
      at hopen ⊢
    obtain ⟨rc, file, v'⟩ := r
    dsimp only at hopen ⊢
    by_cases hok : rc = .ok
    · subst hok
      rw [if_neg (by simp)]
      exact noLocks_retrTransfer _ _ _ hopen (fOpen_spec heq).valid
    · rw [if_neg hok] at hopen
      rw [if_pos hok]
      exact hopen.1

/-- The data connection of `STOR` ends or fails before `select` times out. -/
def recvEnds (ds : List DataIn) : Bool := ds.any fun d => d.recv.getD [] = []

/-- `STOR` closes its file unless `select` times out. By induction on what is received. A disk that
is full does not end the loop. -/
theorem noLocks_storLoop {file : Fil} (h : OneLock q.vol file.lockid)
    (hv : file.valid q.vol = true) (ds : List DataIn) :
    NoLocks (storLoop q file ds).2.vol ↔ recvEnds ds = true := by
  induction ds generalizing q file with
  | nil => simpa [recvEnds, storLoop] using h.not_noLocks
  | cons d ds ih =>
    obtain ⟨recv, room⟩ := d
    have hclose := fClose_files h hv
    obtain _ | _ | ⟨b, bs⟩ := recv
    · simpa [storLoop, recvEnds] using hclose
    · simpa [storLoop, recvEnds] using hclose
    · obtain ⟨data, fptr, faModified, hwrite⟩ := fWrite_frame q.vol file (b :: bs) room
      have hnext := ih ((q.emit (.select q.conn.pasvSockfd)).emit (.recv q.conn.pasvSockfd))
        (show OneLock _ ({ file with data, fptr, faModified } : Fil).lockid from h) hv
      dsimp only [storLoop]
      rw [emit_vol, emit_vol, hwrite, hnext]
      simp [recvEnds]

/-- `STOR` to a file that it opens leaves it open if its data stops arriving. Where it cannot open
the file the table is as before. -/
theorem noLocks_cmdStor (h : NoLocks q.vol) :
    NoLocks (cmdStor o q p).2.vol ↔
      (CanStore q.vol (paramPath o q.conn.currentdir p) o.slot → recvEnds o.recvs = true) := by
  unfold CanStore
  dsimp only [cmdStor]
  rw [paramPath_fst, paramPath_vol]
  have hopen := fOpen_files h Fil.null (paramPath o q.conn.currentdir p)
    { faWrite := true, faOpenAlways := true } o.slot
  generalize heq : fOpen q.vol Fil.null (paramPath o q.conn.currentdir p)
    { faWrite := true, faOpenAlways := true } o.slot = r at hopen ⊢
  obtain ⟨rc, file, v'⟩ := r
  dsimp only at hopen ⊢
  by_cases hok : rc = .ok
  · subst hok
    rw [if_neg (by simp), close_vol]
    rw [noLocks_storLoop _ (by rwa [reply_vol]) (by rw [reply_vol]; exact (fOpen_spec heq).valid)]
    simp
  · rw [if_neg hok] at hopen
    rw [if_pos hok, reply_vol]
    simpa [hok] using hopen.1

/-- `PORT` with a socket calls no function of FatFs. -/
theorem portConnect_vol (fd : Int) (addr : UInt32) (port : UInt16) :
    (portConnect o q fd addr port).vol = q.vol := by
  dsimp only [portConnect]
  split
  · rw [reply_vol]
    split <;> rfl
  · rw [close_vol, reply_vol]
    split <;> rfl

/-- `PORT` as a whole calls none. -/
theorem cmdPort_vol : (cmdPort o q p).vol = q.vol := by
  have hread : (portRead o q p).2.vol = q.vol := by
    dsimp only [portRead]
    split <;> simp
  have hnew : ((portRead o q p).2.newFd o.socket).2.vol = q.vol := (newFd_vol _ _).trans hread
  dsimp only [cmdPort]
  split
  · rw [close_vol, reply_vol]
    exact hnew
  · rw [portConnect_vol]
    exact hnew

/-- `PASV` calls none behind `listen`. -/
theorem pasvAccept_vol (ret : Nat) (sockfd : Int) : (pasvAccept o q ret sockfd).2.vol = q.vol := by
  dsimp only [pasvAccept]
  generalize hq₁ : (q.reply (passiveMode o)).emit (.select sockfd) = q₁
  have hvol : q₁.vol = q.vol := by rw [← hq₁, emit_vol, reply_vol]
  have hnew : (q₁.newFd o.accept).2.vol = q.vol := (newFd_vol _ _).trans hvol
  split
  · exact hvol
  · split
    · rw [reply_vol]
      exact hnew
    · exact hnew

/-- It calls none in front of it. By the branches for `socket`, `bind` and `listen`. -/
theorem pasvOpen_vol : (pasvOpen o q).2.vol = q.vol := by
  have hnew : (q.newFd o.socket).2.vol = q.vol := newFd_vol _ _
  dsimp only [pasvOpen]
  split
  · rw [reply_vol]
    exact hnew
  · generalize hq₁ : Req.emit (if o.bind then _ else _) (.listen _) = q₁
    have hvol : q₁.vol = q.vol := by
      rw [← hq₁, emit_vol]
      split
      · exact hnew
      · rw [reply_vol]
        exact hnew
    split
    · rw [reply_vol]
      exact hvol
    · rw [pasvAccept_vol]
      exact hvol

/-- Nor does its clean-up. -/
theorem cmdPasv_vol : (cmdPasv o q).vol = q.vol := by
  dsimp only [cmdPasv]
  split
  · rw [close_vol, pasvOpen_vol]
  · rw [pasvOpen_vol]

/-- `f_mkdir` and `f_unlink` open nothing. -/
theorem noLocks_fMkdir {v : Volume} (h : NoLocks v) (path : Path) (slot : Bool) :
    NoLocks (fMkdir v path slot).2 := by
  obtain ⟨nodes, hvol⟩ := fMkdir_frame v path slot
  rw [hvol]
  exact h.mountVolume

/-- `f_unlink` looks at the table of open objects and leaves it alone. -/
theorem noLocks_fUnlink {v : Volume} (h : NoLocks v) (path : Path) (removable : Bool) :
    NoLocks (fUnlink v path removable).2 := by
  obtain ⟨nodes, hvol⟩ := fUnlink_frame v path removable
  rw [hvol]
  exact h.mountVolume

/-! The volume after the commands that make one call of FatFs. -/

/-- The volume after `SIZE` is the one after `do_get_filesize`. -/
theorem cmdSize_vol : (cmdSize o q p).vol =
    (doGetFilesize q.vol (paramPath o q.conn.currentdir p)).2 := by
  simp only [cmdSize, paramPath_fst, paramPath_vol]
  split <;> simp

/-- The volume after `MKD` is the one after `f_mkdir`. -/
theorem cmdMkd_vol : (cmdMkd o q p).vol =
    (fMkdir q.vol (paramPath o q.conn.currentdir p) o.slot).2 := by
  simp only [cmdMkd, paramPath_fst, paramPath_vol]
  split <;> simp

/-- The volume after `DELE` is the one after `f_unlink`. -/
theorem cmdDele_vol : (cmdDele o q p).vol =
    (fUnlink q.vol (paramPath o q.conn.currentdir p) o.removable).2 := by
  simp only [cmdDele, paramPath_fst, paramPath_vol]
  split <;> simp

/-- `RMD` calls the same function. -/
theorem cmdRmd_vol : (cmdRmd o q p).vol =
    (fUnlink q.vol (paramPath o q.conn.currentdir p) o.removable).2 := by
  simp only [cmdRmd, paramPath_fst, paramPath_vol]
  split <;> simp

/-- The commands that call FatFs. -/
def Cmd.isDisk : Cmd → Bool
  | .list | .nlst | .retr | .stor | .size | .mkd | .dele | .rmd => true
  | _ => false

/-- Every other command leaves the volume alone. By the command. -/
theorem execute_vol {line : List UInt8} (h : (doParseCommand line).isDisk = false) :
    (execute o q line).2.vol = q.vol := by
  dsimp only [execute]
  cases hcmd : doParseCommand line with
  | list | nlst | retr | stor | size | mkd | dele | rmd => simp [hcmd, Cmd.isDisk] at h
  | type =>
    dsimp only [cmdType]
    split <;> simp
  | rest =>
    dsimp only [cmdRest]
    split <;> simp
  | cwd => simp [cmdCwd]
  | cdup => simp [cmdCdup]
  | port => exact cmdPort_vol o q _
  | pasv => exact cmdPasv_vol o q
  | user | pass | mdtm | syst | pwd | feat | quit | unknown => exact reply_vol _ _

/-- The commands that leave nothing open. -/
def RequestCloses (line : List UInt8) : Prop :=
  match doParseCommand line with
  | .list => ¬ SubDir q.vol (trimSlash q.conn.currentdir)
  | .nlst => ¬ SubDir q.vol q.conn.currentdir
  | .stor =>
    CanStore q.vol (paramPath o q.conn.currentdir (parameterPtr line)) o.slot →
      recvEnds o.recvs = true
  | _ => True

instance (line : List UInt8) : Decidable (RequestCloses o q line) := by
  delta RequestCloses
  exact match doParseCommand line with
  | .list | .nlst => inferInstanceAs (Decidable (¬ _))
  | .stor => inferInstanceAs (Decidable (_ → _))
  | .user | .pass | .pwd | .type | .pasv | .retr | .size | .mdtm | .syst | .cwd | .cdup | .port
  | .rest | .mkd | .dele | .rmd | .feat | .quit | .unknown => isTrue trivial

/-- A command without open objects leaves none exactly under `RequestCloses`. By the command: one
that opens no object, one that closes it on every branch, and the three that may keep it. -/
theorem noLocks_execute (h : NoLocks q.vol) (line : List UInt8) :
    NoLocks (execute o q line).2.vol ↔ RequestCloses o q line := by
  unfold RequestCloses
  cases hcmd : doParseCommand line with
  | list =>
    simp only [execute, hcmd, cmdList_vol]
    exact (fOpendir_files h _).2
  | nlst =>
    simp only [execute, hcmd, cmdNlst_vol]
    exact (fOpendir_files h _).2
  | retr =>
    simp only [execute, hcmd]
    exact iff_true_intro (noLocks_cmdRetr o q _ line h)
  | stor =>
    simp only [execute, hcmd]
    exact noLocks_cmdStor o q _ h
  | size =>
    simp only [execute, hcmd, cmdSize_vol]
    exact iff_true_intro (noLocks_doGetFilesize h _)
  | mkd =>
    simp only [execute, hcmd, cmdMkd_vol]
    exact iff_true_intro (noLocks_fMkdir h _ o.slot)
  | dele =>
    simp only [execute, hcmd, cmdDele_vol]
    exact iff_true_intro (noLocks_fUnlink h _ o.removable)
  | rmd =>
    simp only [execute, hcmd, cmdRmd_vol]
    exact iff_true_intro (noLocks_fUnlink h _ o.removable)
  -- commands that do not call FatFs
  | type | rest | cwd | cdup | port | pasv | user | pass | mdtm | syst | pwd | feat | quit
  | unknown =>
    rw [execute_vol o q (by rw [hcmd]; rfl)]
    exact iff_true_intro h

end Commands

/-! ### The service loop -/

/-- The step leaves the open-object table as it found it. -/
def TableKept (w : World) (e : Event) : Prop := (step w e).vol.files = w.vol.files

/-- The steps that do: no `LIST` or `NLST` of a sub-directory, and no `STOR` that times out. -/
def LockFits (w : World) : Event → Prop
  | .select | .accept _ _ _ => True
  | .serve id recv o =>
    match w.conn? id, recv with
    | some conn, some (b :: bs) =>
      o.malloc = true →
        RequestCloses o (w.req conn (request (b :: bs))) (request (b :: bs))
    | _, _ => True

instance (w : World) (e : Event) : Decidable (LockFits w e) :=
  match e with
  | .select | .accept _ _ _ => isTrue trivial
  | .serve id recv o =>
    show Decidable (match w.conn? id, recv with
      | some conn, some (b :: bs) => o.malloc = true →
        RequestCloses o (w.req conn (request (b :: bs))) (request (b :: bs))
      | _, _ => True) from
    match w.conn? id, recv with
    | some _, some (_ :: _) => inferInstanceAs (Decidable (_ → _))
    | some _, some [] | some _, none | none, some _ | none, none => isTrue trivial

/-- A step from an empty table leaves it empty iff the step fits. Only a request calls FatFs. What
it finds is an empty table, so each of its opens gets an entry. -/
theorem noLocks_step {w : World} (h : NoLocks w.vol) (e : Event) :
    NoLocks (step w e).vol ↔ LockFits w e := by
  cases e with
  | select =>
    obtain ⟨readfds, heq⟩ := selectStep_frame w
    show NoLocks (selectStep w).vol ↔ True
    rw [heq]
    exact iff_true_intro h
  | accept fd remote mem =>
    refine iff_true_intro ?_
    show NoLocks (acceptStep w fd remote mem).vol
    unfold acceptStep
    split
    · exact h
    · cases mem <;> exact h
  | serve id recv o =>
    dsimp only [step, LockFits]
    cases w.conn? id with
    | none => exact iff_true_intro h
    | some conn =>
      obtain _ | _ | ⟨b, bs⟩ := recv
      · exact iff_true_intro h
      · exact iff_true_intro h
      · dsimp only
        by_cases ho : o.malloc = true
        · have hexec := noLocks_execute o (w.req conn (request (b :: bs))) h (request (b :: bs))
          rw [serveStep_request w conn b bs ho rfl]
          simp only [ho, true_implies]
          split <;> exact hexec
        · rw [serveStep_noMem w conn b bs (by simpa using ho)]
          exact iff_of_true h fun htrue => absurd htrue ho

/-- So it leaves the table as it found it iff it fits. -/
theorem tableKept_iff {w : World} (h : NoLocks w.vol) (e : Event) :
    TableKept w e ↔ LockFits w e := by
  rw [← noLocks_step h e]
  unfold TableKept
  rw [h]
  exact Iff.rfl

/-- FatFs keeps objects of the registered filesystem object only. `f_mount` drops those of the
object that it replaces, and nothing is open at first. -/
def LocksRegistered (v : Volume) : Prop := ∀ i l, v.files i = some l → v.fatFs = some l.fs

/-- `f_mount` leaves nothing open. It drops the objects of the filesystem object that it replaces,
and by hypothesis there are no others. -/
theorem noLocks_start {v : Volume} (h : LocksRegistered v) (sockfd : Nat) :
    NoLocks (World.start v sockfd).vol := by
  show (fMount v (some .fatfs)).files = _
  funext i
  cases hfat : v.fatFs with
  | none =>
    have hnone : v.files i = none := by
      rw [Option.eq_none_iff_forall_ne_some]
      intro l hl
      simpa [hfat] using h i l hl
    simpa [fMount, hfat, clearFs] using hnone
  | some fs =>
    have hdrop : (v.files i).filter (fun l => l.fs ≠ fs) = none := by
      rw [Option.filter_eq_none_iff]
      intro l hl
      have hfs : some fs = some l.fs := hfat ▸ h i l hl
      simp [Option.some.inj hfs]
    simpa [fMount, hfat, clearFs, clearLock] using hdrop

/-- Along a run whose steps fit the table is empty. -/
theorem noLocks_run {w : World} (h : NoLocks w.vol) {es : List Event}
    (hfits : Along step LockFits w es) : NoLocks (run step w es).vol := by
  have hstep : ∀ (w : World) e, NoLocks w.vol → LockFits w e → NoLocks (step w e).vol :=
    fun w e hw => (noLocks_step hw e).2
  exact run_inv hstep h hfits

/-- Every step of a run leaves the table as it found it iff every step fits: up to the first one
that does not, the table is empty. -/
theorem along_tableKept {w : World} (h : NoLocks w.vol) (es : List Event) :
    Along step TableKept w es ↔ Along step LockFits w es := by
  have hstep : ∀ (w : World) e, NoLocks w.vol → TableKept w e → NoLocks (step w e).vol :=
    fun w e hw hkept => (noLocks_step hw e).2 ((tableKept_iff hw e).1 hkept)
  have hiff : ∀ (w : World) e, NoLocks w.vol → (TableKept w e ↔ LockFits w e) :=
    fun w e hw => tableKept_iff hw e
  exact along_congr hstep hiff h es

/-- A run leaves the open-object table alone, command by command, iff all its steps fit. After such
a run no open fails because of the table. An entry of the table that a command has left stays for
ever, so with two of them the table is full. By the invariant that the table is empty, up to the
first step that does not fit. -/
theorem open_objects_conserved (v : Volume) (h : LocksRegistered v) (sockfd : Nat)
    (es : List Event) :
    (Along step TableKept (World.start v sockfd) es ↔
        Along step LockFits (World.start v sockfd) es) ∧
      (Along step LockFits (World.start v sockfd) es →
        let vol := (run step (World.start v sockfd) es).vol
        ∀ path, ¬ LockError (fOpendir vol path).1 ∧
          ∀ mode slot, ¬ LockError (fOpen vol Fil.null path mode slot).1) := by
  have hstart := noLocks_start h sockfd
  refine ⟨along_tableKept hstart es, ?_⟩
  intro hfits vol path
  have hend : NoLocks vol := noLocks_run hstart hfits
  exact ⟨(fOpendir_files hend path).1, fun mode slot =>
    fOpen_noLockError hend Fil.null path mode slot⟩

/-- A disk with two sub-directories and a file. -/
def twoDirs : Volume :=
  { emptyDisk with
    nodes := fun e =>
      if e = textBytes "/a" ∨ e = textBytes "/b" then some .dir
      else if e = textBytes "/f" then some (.file [1])
      else none }

/-- An upload and a listing of the root directory. -/
theorem open_objects_conserved_stor :
    let es : List Event :=
      [.accept (some 1) 0 (some ⟨false, 0, 0⟩),
        .serve 0 (some (textBytes "PASV\r\n")) { socket := some 2, accept := some 3 },
        .serve 0 (some (textBytes "STOR g\r\n")) { recvs := [⟨some [7, 8], 2⟩, ⟨some [], 0⟩] },
        .serve 0 (some (textBytes "LIST\r\n")) {}]
    Along step TableKept (World.start twoDirs 0) es ∧
      ¬ LockError (fOpendir (run step (World.start twoDirs 0) es).vol (textBytes "/a")).1 := by
  intro es
  have h := open_objects_conserved twoDirs (by rintro i l ⟨⟩) 0 es
  have hfits : Along step LockFits (World.start twoDirs 0) es := by decide
  exact ⟨h.1.2 hfits, (h.2 hfits (textBytes "/a")).1⟩

/-- Listing two sub-directories uses up the table: the next file cannot be opened. -/
theorem listings_fill_table :
    let es : List Event :=
      [.accept (some 1) 0 (some ⟨false, 0, 0⟩),
        .serve 0 (some (textBytes "CWD /a\r\n")) {}, .serve 0 (some (textBytes "LIST\r\n")) {},
        .serve 0 (some (textBytes "CWD /b\r\n")) {}, .serve 0 (some (textBytes "NLST\r\n")) {}]
    ¬ Along step TableKept (World.start twoDirs 0) es ∧
      (fOpen (run step (World.start twoDirs 0) es).vol Fil.null (textBytes "/f")
        { faRead := true } false).1 = .tooManyOpenFiles := by
  intro es
  have hstart : NoLocks (World.start twoDirs 0).vol := noLocks_start (by rintro i l ⟨⟩) 0
  have hfits : ¬ Along step LockFits (World.start twoDirs 0) es := by decide
  exact ⟨mt (along_tableKept hstart es).1 hfits, by decide⟩

end NucleoH743.Ftp
