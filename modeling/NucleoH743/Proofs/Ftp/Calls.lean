import NucleoH743.Ftp.Calls
import NucleoH743.Proofs.Ftp.OpenObjects

/-!
# `Proofs.Ftp.Calls`: the calls of the FTP server are those of its commands

Run without interruption, the program of FatFs calls of a command leaves the volume as the
command leaves it. The file objects are local variables, so their old contents do not matter.

`Ftp.Program` keeps a command as a program whose calls of FatFs are separate steps, so that the
calls of two threads can come between each other. Without another thread it has to be the command of
`Ftp.Cmds` again, and this is what is proved here, command by command.

A loop of the program reads or writes once in each turn, as the loop of the command does, so both
are compared by induction on the same data: `RETR` on its turns, `STOR` on what it receives. What a
file object held before its `f_open` is found nowhere in the result (`run_fOpen`), as on the stack
of the thread.

- `run_execute`: the program of a command.
-/

set_option autoImplicit false

namespace NucleoH743.Ftp.Calls

open NucleoH743.FatFs

section Run
variable (o : Outcome) (q : Req) {d : Disk FileVar}

/-- What was in a local file object does not matter for an open. -/
theorem run_fOpen {α : Type} {f : FileVar} {path : Path} {mode : Mode} {slot : Bool} {rc : FResult}
    {file : Fil} {vol : Volume} (h : fOpen d.vol Fil.null path mode slot = (rc, file, vol))
    (k : FResult → Caller FileVar α) :
    (Caller.fOpen f path mode slot >>= k).run Call.handle d = (k rc).run Call.handle
      { d.setFil f (if rc = .ok then file else { d.fil f with fs := none }) with vol } := by
  have hnull := fOpen_fil d.vol (d.fil f) path mode slot
  rw [h] at hnull
  exact Caller.run_fOpen hnull k

/-- `do_get_filesize` as its calls: the result and the volume are those of the command's own
account. -/
theorem run_doGetFilesize (path : Path) :
    ∃ fp, (doGetFilesize path).run Call.handle d =
      ((Ftp.doGetFilesize d.vol path).1,
        { d.setFil .sizeFile fp with vol := (Ftp.doGetFilesize d.vol path).2 }) := by
  unfold doGetFilesize Ftp.doGetFilesize
  rcases hopen : fOpen d.vol Fil.null path { faRead := true } false with ⟨rc, file, vol⟩
  dsimp only
  rw [run_fOpen hopen]
  by_cases hok : rc = .ok
  · rw [if_pos hok, if_pos hok, if_pos hok]
    rcases hclose : fClose vol file with ⟨res, file', vol'⟩
    have hfil : (d.setFil .sizeFile file).fil .sizeFile = file := d.setFil_fil .sizeFile file
    refine ⟨file', ?_⟩
    rw [Caller.run_fSize]
    dsimp only
    rw [hfil, Caller.run_fClose (hfil.symm ▸ hclose)]
    simp [Disk.setFil]
  · rw [if_neg hok, if_neg hok, if_neg hok]
    exact ⟨_, rfl⟩

/-- The loop of `RETR` reads into the file object only. By induction on the turns. A turn without
bytes ends both. -/
theorem run_retrLoop (turns : Nat) (hvol : q.vol = d.vol) :
    ((retrLoop turns).run Call.handle d).2 =
      d.setFil .file (Ftp.retrLoop turns q (d.fil .file)).2 := by
  induction turns generalizing q d with
  | zero => simp [retrLoop, Ftp.retrLoop, Disk.setFil]
  | succ turns ih =>
    unfold retrLoop Ftp.retrLoop
    rcases hread : fRead d.vol (d.fil .file) ftpBufferSize with ⟨res, sbuf, file⟩
    rw [Caller.run_fRead hread, hvol, hread]
    dsimp only
    split_ifs
    · have hnext := ih (q.emit (.send q.conn.pasvSockfd sbuf sbuf.length))
        (d := d.setFil .file file) hvol
      rw [hnext]
      simp [Disk.setFil]
    · rfl

/-- The transfer of `RETR` as its calls: the loop reads as in that account, and the file is closed
behind it. -/
theorem run_retrSend (hvol : q.vol = d.vol) :
    (retrSend.run Call.handle d).2.vol =
      (fClose q.vol (Ftp.retrLoop ((d.fil .file).data.length + 1) q (d.fil .file)).2).2.2 := by
  unfold retrSend
  have hloop := run_retrLoop q ((d.fil .file).data.length + 1) hvol
  generalize hfile : (Ftp.retrLoop ((d.fil .file).data.length + 1) q (d.fil .file)).2 = file
    at hloop ⊢
  rcases hclose : fClose q.vol file with ⟨res, file', vol⟩
  rw [Caller.run_fSize, Prog.run_bind, hloop, Caller.run_fClose (by simpa [hvol] using hclose)]
  rfl

/-- So is the transfer with its seek. The seek is made on the same condition in both. -/
theorem run_retrTransfer (path : Path) (numBytes : Int) (hvol : q.vol = d.vol) :
    ((retrTransfer q.conn.offset numBytes).run Call.handle d).2.vol =
      (Ftp.retrTransfer q path numBytes (d.fil .file)).vol := by
  unfold retrTransfer Ftp.retrTransfer
  generalize hq₁ : q.reply (retrOpening q.conn.offset numBytes path) = q₁
  have hvol₁ : q₁.vol = d.vol := by rw [← hq₁, reply_vol, hvol]
  by_cases hseek : seeks q.conn.offset numBytes
  · rw [if_pos hseek, if_pos hseek, hvol]
    rcases hfl : fLseek d.vol (d.fil .file) q.conn.offset with ⟨res, file⟩
    rw [Caller.run_fLseek hfl, run_retrSend q₁ (d := d.setFil .file file) hvol₁]
    dsimp only
    rw [close_vol, reply_vol, (retrLoop_frame _ _ _).1, Disk.setFil_fil]
  · rw [if_neg hseek, if_neg hseek, run_retrSend q₁ hvol₁]
    dsimp only
    rw [close_vol, reply_vol, (retrLoop_frame _ _ _).1]

/-- The copy of the line and the path leave the offset alone. -/
theorem copyLine_paramPath_offset (p : Option (List UInt8)) (line : List UInt8) :
    ((copyLine o q line).paramPath o p).2.conn.offset = q.conn.offset := by
  have hconn := copyLine_conn o q line
  cases p <;> rw [← hconn] <;> rfl

/-- `RETR` as its calls leaves the same volume. Its file is opened twice, once for the size and once
for the data. Where the first open fails no other call is made. -/
theorem run_cmdRetr (p : Option (List UInt8)) (line : List UInt8) (hvol : q.vol = d.vol) :
    ((cmdRetr q.conn.offset (paramPath o q.conn.currentdir p)).run Call.handle d).2.vol =
      (Ftp.cmdRetr o q p line).vol := by
  unfold cmdRetr Ftp.cmdRetr
  dsimp only
  rw [paramPath_fst, paramPath_vol, copyLine_vol, copyLine_conn, hvol,
    ← copyLine_paramPath_offset o q p line]
  generalize paramPath o q.conn.currentdir p = path
  generalize ((copyLine o q line).paramPath o p).2 = q₁
  obtain ⟨fp, hsize⟩ := run_doGetFilesize (d := d) path
  rw [Prog.run_bind, hsize]
  dsimp only
  rcases Ftp.doGetFilesize d.vol path with ⟨numBytes, vol⟩
  dsimp only
  by_cases hnone : numBytes = -1
  · rw [if_pos hnone, if_pos hnone]
    simp
  · rw [if_neg hnone, if_neg hnone]
    generalize hd₁ : ({ d.setFil .sizeFile fp with vol } : Disk FileVar) = d₁
    have hvol₁ : vol = d₁.vol := by rw [← hd₁]
    rw [hvol₁]
    rcases hopen : fOpen d₁.vol Fil.null path { faRead := true } false with ⟨rc, file, vol'⟩
    dsimp only
    rw [run_fOpen hopen]
    by_cases hok : rc = .ok
    · rw [if_neg (not_not_intro hok), if_neg (not_not_intro hok), if_pos hok]
      have hrun := run_retrTransfer { q₁ with vol := vol' }
        (d := { d₁.setFil .file file with vol := vol' }) path numBytes rfl
      rwa [show ({ d₁.setFil .file file with vol := vol' } : Disk FileVar).fil .file = file from
        d₁.setFil_fil .file file] at hrun
    · rw [if_pos hok, if_pos hok]
      rfl

/-- The loop of `STOR` writes into the file object only, until it closes it. By induction on what is
received, with the writes in both at the same places. -/
theorem run_storLoop (ds : List DataIn) (hvol : q.vol = d.vol) :
    ((storLoop ds).run Call.handle d).2.vol = (Ftp.storLoop q (d.fil .file) ds).2.vol := by
  induction ds generalizing q d with
  | nil => simpa [storLoop, Ftp.storLoop] using hvol.symm
  | cons x ds ih =>
    obtain ⟨recv, room⟩ := x
    obtain _ | _ | ⟨b, bs⟩ := recv
    · rcases hclose : fClose d.vol (d.fil .file) with ⟨res, file, vol⟩
      simp [storLoop, Ftp.storLoop, Caller.run_fClose hclose, hvol, hclose]
    · rcases hclose : fClose d.vol (d.fil .file) with ⟨res, file, vol⟩
      simp [storLoop, Ftp.storLoop, Caller.run_fClose hclose, hvol, hclose]
    · rcases hwrite : fWrite d.vol (d.fil .file) (b :: bs) room with ⟨res, n, file⟩
      have hnext := ih ((q.emit (.select q.conn.pasvSockfd)).emit (.recv q.conn.pasvSockfd))
        (d := d.setFil .file file) hvol
      rw [Disk.setFil_fil] at hnext
      dsimp only [storLoop, Ftp.storLoop]
      rw [Caller.run_fWrite hwrite, hnext, emit_vol, emit_vol, hvol, hwrite]

/-- So does `STOR`. Its open may fail, and its loop ends with the close on every way but one. -/
theorem run_cmdStor (p : Option (List UInt8)) (hvol : q.vol = d.vol) :
    ((cmdStor o (paramPath o q.conn.currentdir p)).run Call.handle d).2.vol =
      (Ftp.cmdStor o q p).2.vol := by
  unfold cmdStor Ftp.cmdStor
  dsimp only
  rw [paramPath_fst, paramPath_vol, hvol]
  generalize paramPath o q.conn.currentdir p = path
  generalize (q.paramPath o p).2 = q₁
  rcases hopen : fOpen d.vol Fil.null path { faWrite := true, faOpenAlways := true } o.slot
    with ⟨rc, file, vol⟩
  dsimp only
  rw [run_fOpen hopen]
  by_cases hok : rc = .ok
  · rw [if_neg (not_not_intro hok), if_neg (not_not_intro hok), if_pos hok, close_vol]
    have hvol₁ : ({ q₁ with vol } : Req).vol = vol := rfl
    rw [run_storLoop _ _ ((reply_vol _ _).trans hvol₁)]
    rw [show ({ d.setFil .file file with vol } : Disk FileVar).fil .file = file from
      d.setFil_fil .file file]
  · rw [if_pos hok, if_pos hok]
    simp

/-- So does `DELE`. -/
theorem run_cmdDele (path : Path) (hvol : q.vol = d.vol) :
    ((cmdDele o path).run Call.handle d).2.vol = (fUnlink q.vol path o.removable).2 := by
  rcases hunlink : fUnlink d.vol path o.removable with ⟨rc, vol⟩
  rw [cmdDele, Caller.run_fUnlink hunlink, hvol, hunlink]
  rfl

/-- The calls of a command, run one after the other, do to the volume what the command does. By the
command. Those without files make no call in either account. -/
theorem run_execute (line : List UInt8) (hvol : q.vol = d.vol) :
    ((execute o q.conn line).run Call.handle d).2.vol = (Ftp.execute o q line).2.vol := by
  have hpath : (doFullPath q.conn.currentdir ((parameterPtr line).getD o.stray)).1 =
      paramPath o q.conn.currentdir (parameterPtr line) := rfl
  cases hcmd : doParseCommand line with
  | list =>
    simp only [execute, Ftp.execute, hcmd, cmdList_vol, hvol]
    rfl
  | nlst =>
    simp only [execute, Ftp.execute, hcmd, cmdNlst_vol, hvol]
    rfl
  | retr =>
    simp only [execute, Ftp.execute, hcmd, hpath]
    exact run_cmdRetr o q _ line hvol
  | stor =>
    simp only [execute, Ftp.execute, hcmd, hpath]
    exact run_cmdStor o q _ hvol
  | size =>
    simp only [execute, Ftp.execute, hcmd, hpath, cmdSize_vol]
    obtain ⟨fp, hsize⟩ := run_doGetFilesize (d := d) (paramPath o q.conn.currentdir
      (parameterPtr line))
    rw [cmdSize, Prog.run_bind, hsize, hvol]
    rfl
  | mkd =>
    simp only [execute, Ftp.execute, hcmd, hpath, cmdMkd_vol]
    rcases hmkdir : fMkdir d.vol (paramPath o q.conn.currentdir (parameterPtr line)) o.slot
      with ⟨rc, vol⟩
    rw [cmdMkd, Caller.run_fMkdir hmkdir, hvol, hmkdir]
    rfl
  | dele =>
    simp only [execute, Ftp.execute, hcmd, hpath, cmdDele_vol]
    exact run_cmdDele o q _ hvol
  | rmd =>
    simp only [execute, Ftp.execute, hcmd, hpath, cmdRmd_vol]
    exact run_cmdDele o q _ hvol
  | type | rest | cwd | cdup | port | pasv | user | pass | mdtm | syst | pwd | feat | quit
  | unknown =>
    rw [execute_vol o q (by rw [hcmd]; rfl), hvol]
    simp only [execute, hcmd]
    rfl

end Run

end NucleoH743.Ftp.Calls
