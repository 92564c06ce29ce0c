import NucleoH743.Ftp.Ftpd
import Mathlib.Tactic.Common

/-!
# `Proofs.Ftp.Requests`: what each FTP command does to its sockets

A request adds effects and changes its connection. `Talks` says that a part of it only talks:
it opens and closes nothing, keeps the descriptors of the connection, and sends on the control
socket, or also uses the data socket. Every command is made of such parts and of the calls
that open or close a descriptor, so `talks_execute` and the lemmas on the six data commands
say all that the proofs about sockets need.

A chunk that was received is a line only after `ftp_process_request` has looked for its end; what it
makes of it is `request`. The rest of this module is about the effects of the commands on sockets.

`Talks` is closed under composition, so a command without a data socket is done by going along its
parts. The two listings and the two transfers are a part that talks, the close of the data socket,
and one more part that talks. `PORT` and `PASV` are the only commands that open a descriptor, and
their lemmas go along the branches on which a call fails.

`Keeps` is weaker and holds of every command: descriptors of other sessions stay open, whatever
happens to those of this one. Its one exception is the number in `pasv_sockfd`, which the code
closes without knowing whether it is still its own.

- `request_eq`: the line of a request is what the chunk holds before its first CR, LF or NUL.
- `keeps_execute`: a request only adds to its effects, and keeps the control socket.
-/

set_option autoImplicit false

namespace NucleoH743.Ftp

open NucleoH743.FatFs
open CStr (textBytes)

/-! ### The line of a request -/

/-- The line that `ftp_process_request` makes of a received chunk. -/
def request (chunk : List UInt8) : List UInt8 := CStr.ofBytes (stripEol (chunk ++ [0]))

/-- A byte that ends a line. -/
def EndsLine (b : UInt8) : Prop := b = 0 ∨ b = 13 ∨ b = 10

instance : DecidablePred EndsLine := fun _ => inferInstanceAs (Decidable (_ ∨ _))

/-- The line of a request is what the chunk holds before its first CR, LF or NUL. The loop puts a
NUL over every CR and LF, and what reads the line stops at the first NUL. -/
theorem request_eq (chunk : List UInt8) : request chunk = chunk.takeWhile (¬ EndsLine ·) := by
  induction chunk with
  | nil => rfl
  | cons b bs ih =>
    by_cases hb : b = 0
    · simp [request, stripEol, CStr.ofBytes, EndsLine, hb]
    · by_cases hend : b = 13 ∨ b = 10
      · have hgo : EndsLine b := Or.inr hend
        simp [request, stripEol, CStr.ofBytes, hb, hend, hgo]
      · have htail : CStr.ofBytes (stripEol (bs ++ [0])) = bs.takeWhile (¬ EndsLine ·) := ih
        have hgo : ¬ EndsLine b := by simp [EndsLine, hb, hend]
        simpa [request, stripEol, CStr.ofBytes, hb, hend, hgo] using htail

/-! ### Parts of a request

Effects change neither the volume nor the connection. -/

section Parts
variable (o : Outcome) (q : Req) (p : Option (List UInt8))

/-- An effect is not a change of the volume. -/
@[simp] theorem emit_vol (e : Effect) : (q.emit e).vol = q.vol := rfl

/-- Nor is it one of the connection. -/
@[simp] theorem emit_conn (e : Effect) : (q.emit e).conn = q.conn := rfl

/-- Nor of the descriptors in use: `close` and `newFd` change them beside the effect. -/
@[simp] theorem emit_sockets (e : Effect) : (q.emit e).sockets = q.sockets := rfl

/-- A store to `spare_buf` leaves the volume alone. -/
@[simp] theorem spare_vol (s : List UInt8) : (q.spare s).vol = q.vol := rfl

/-- It leaves the connection alone. -/
@[simp] theorem spare_conn (s : List UInt8) : (q.spare s).conn = q.conn := rfl

/-- `close` touches the descriptors only, so the volume stays. -/
@[simp] theorem close_vol (fd : Int) : (q.close fd).vol = q.vol := rfl

/-- The connection stays too: a command that closes its data socket keeps the stale number in
`pasv_sockfd`. -/
@[simp] theorem close_conn (fd : Int) : (q.close fd).conn = q.conn := rfl

/-- `do_send_reply` leaves the volume alone, also for the empty text that it does not send. -/
@[simp] theorem doSendReply_vol (sock : Int) (text : List UInt8) :
    (doSendReply q sock text).vol = q.vol := by
  unfold doSendReply
  split <;> rfl

/-- It leaves the connection alone. -/
@[simp] theorem doSendReply_conn (sock : Int) (text : List UInt8) :
    (doSendReply q sock text).conn = q.conn := by
  unfold doSendReply
  split <;> rfl

/-- A reply on the control socket leaves the volume alone. -/
@[simp] theorem reply_vol (text : List UInt8) : (q.reply text).vol = q.vol :=
  doSendReply_vol q _ text

/-- A reply leaves the connection alone. -/
@[simp] theorem reply_conn (text : List UInt8) : (q.reply text).conn = q.conn :=
  doSendReply_conn q _ text

/-- The lines of a listing are sent without a change of the volume. By induction on the lines. -/
@[simp] theorem sendLines_vol (sock : Int) (lines : List (List UInt8)) :
    (sendLines q sock lines).vol = q.vol := by
  induction lines generalizing q with
  | nil => rfl
  | cons l ls ih => exact (ih _).trans (doSendReply_vol q sock l)

/-- They are sent without a change of the connection. -/
@[simp] theorem sendLines_conn (sock : Int) (lines : List (List UInt8)) :
    (sendLines q sock lines).conn = q.conn := by
  induction lines generalizing q with
  | nil => rfl
  | cons l ls ih => exact (ih _).trans (doSendReply_conn q sock l)

/-- The parameter of a command is read without a change of the volume, also where it is null. -/
@[simp] theorem param_vol : (q.param o p).2.vol = q.vol := by
  cases p <;> rfl

/-- It is read without a change of the connection. -/
@[simp] theorem param_conn : (q.param o p).2.conn = q.conn := by
  cases p <;> rfl

/-- The path that a command makes of its parameter. -/
def paramPath (o : Outcome) (currentdir : List UInt8) (p : Option (List UInt8)) : List UInt8 :=
  (doFullPath currentdir (p.getD o.stray)).1

/-- The path of a command is what `do_full_path` makes of the current directory and the
parameter. -/
@[simp] theorem paramPath_fst : (q.paramPath o p).1 = paramPath o q.conn.currentdir p := by
  cases p <;> rfl

/-- `do_full_path` works in `spare_buf` and on the current directory, not on the volume. -/
@[simp] theorem paramPath_vol : (q.paramPath o p).2.vol = q.vol := by
  cases p <;> rfl

/-- The copy of the line that `RETR` makes leaves the volume alone. -/
@[simp] theorem copyLine_vol (line : List UInt8) : (copyLine o q line).vol = q.vol := by
  unfold copyLine
  split <;> rfl

/-- The copy leaves the connection alone. -/
@[simp] theorem copyLine_conn (line : List UInt8) : (copyLine o q line).conn = q.conn := by
  unfold copyLine
  split <;> rfl

/-- A new descriptor is no change of the volume. -/
@[simp] theorem newFd_vol (n : Option Nat) : (q.newFd n).2.vol = q.vol := by
  unfold Req.newFd
  cases n with
  | none => rfl
  | some fd =>
    dsimp only
    split <;> rfl

/-- It is stored in the connection by the caller and not by the call. -/
@[simp] theorem newFd_conn (n : Option Nat) : (q.newFd n).2.conn = q.conn := by
  unfold Req.newFd
  cases n with
  | none => rfl
  | some fd =>
    dsimp only
    split <;> rfl

end Parts

/-! ### Talking -/

/-- The effects that open, close or use no data socket. -/
def Plain (sockfd : Int) : Effect → Prop
  | .requested _ | .spareBuf _ | .nullPtr | .pastEnd => True
  | .send fd _ _ => fd = sockfd
  | _ => False

/-- The effects that use a descriptor. -/
def Uses (fd : Int) : Effect → Prop
  | .send fd' _ _ | .select fd' | .recv fd' => fd' = fd
  | _ => False

/-- What a part of a request may do that talks on the control socket, and on the data socket
if `data` says so. -/
def Allowed (data : Bool) (conn : Conn) (e : Effect) : Prop :=
  Plain conn.sockfd e ∨ data = true ∧ Uses conn.pasvSockfd e

/-- The part of a request from `q` to `q'` only talks. -/
structure Talks (data : Bool) (q q' : Req) : Prop where
  id : q'.conn.id = q.conn.id
  sockfd : q'.conn.sockfd = q.conn.sockfd
  pasvSockfd : q'.conn.pasvSockfd = q.conn.pasvSockfd
  sockets : q'.sockets = q.sockets
  out : ∃ es, q'.out = q.out ++ es ∧ ∀ e ∈ es, Allowed data q.conn e

namespace Talks

variable {data : Bool} {q q' q'' : Req}

/-- A part that does nothing only talks. -/
theorem refl (data : Bool) (q : Req) : Talks data q q :=
  ⟨rfl, rfl, rfl, rfl, [], by simp⟩

/-- Two parts that only talk, one after the other, only talk. The second may do what its own
connection allows, which is the connection of the first as far as the sockets go. -/
theorem trans (h : Talks data q q') (h' : Talks data q' q'') : Talks data q q'' := by
  obtain ⟨es, hes, hok⟩ := h.out
  obtain ⟨es', hes', hok'⟩ := h'.out
  refine ⟨h'.id.trans h.id, h'.sockfd.trans h.sockfd, h'.pasvSockfd.trans h.pasvSockfd,
    h'.sockets.trans h.sockets, es ++ es', by simp [hes, hes'], ?_⟩
  intro e he
  rcases List.mem_append.1 he with he | he
  · exact hok e he
  · have := hok' e he
    rwa [Allowed, h.sockfd, h.pasvSockfd] at this

/-- Who may not use the data socket talks less. -/
theorem of_false (h : Talks false q q') : Talks data q q' := by
  obtain ⟨es, hes, hok⟩ := h.out
  refine ⟨h.id, h.sockfd, h.pasvSockfd, h.sockets, es, hes, ?_⟩
  intro e he
  exact Or.inl ((hok e he).resolve_right (by simp))

/-- An effect that is allowed keeps a part talking. -/
theorem emit {e : Effect} (h : Talks data q q') (he : Allowed data q'.conn e) :
    Talks data q (q'.emit e) :=
  h.trans ⟨rfl, rfl, rfl, rfl, [e], rfl, by simpa using he⟩

/-- So does one that every part may have. -/
theorem plain {e : Effect} (h : Talks data q q') (he : Plain q'.conn.sockfd e) :
    Talks data q (q'.emit e) :=
  h.emit (Or.inl he)

/-- Neither the volume nor the other fields of the connection matter. -/
theorem update {vol : Volume} {conn : Conn} (h : Talks data q q') (hid : conn.id = q'.conn.id)
    (hfd : conn.sockfd = q'.conn.sockfd) (hpasv : conn.pasvSockfd = q'.conn.pasvSockfd) :
    Talks data q { q' with vol, conn } :=
  h.trans ⟨hid, hfd, hpasv, rfl, [], by simp⟩

/-- The volume is free to change: talking is about the sockets. -/
theorem vol {vol : Volume} (h : Talks data q q') : Talks data q { q' with vol } :=
  h.update rfl rfl rfl

/-- A reply goes to the control socket, so it is allowed in every part. -/
theorem reply {text : List UInt8} (h : Talks data q q') : Talks data q (q'.reply text) := by
  unfold Req.reply doSendReply
  split
  · exact h
  · exact h.plain rfl

/-- A store to `spare_buf` is allowed in every part. -/
theorem spare {s : List UInt8} (h : Talks data q q') : Talks data q (q'.spare s) :=
  h.plain trivial

/-- The parameter is read with no effect, or with a read through a null pointer. -/
theorem param {o : Outcome} {p : Option (List UInt8)} (h : Talks data q q') :
    Talks data q (q'.param o p).2 := by
  cases p with
  | none => exact h.plain trivial
  | some s => exact h

/-- The path is built with a store to `spare_buf` and a change of the current directory, which is
none of the fields that talking keeps. -/
theorem paramPath {o : Outcome} {p : Option (List UInt8)} (h : Talks data q q') :
    Talks data q (q'.paramPath o p).2 := by
  refine spare ?_
  exact update h.param rfl rfl rfl

/-- A use of the data socket. -/
theorem use {e : Effect} (h : Talks true q q') (he : Uses q'.conn.pasvSockfd e) :
    Talks true q (q'.emit e) :=
  h.emit (Or.inr ⟨rfl, he⟩)

/-- A part that may use the data socket may send on it. -/
theorem sendData {sock : Int} {text : List UInt8} (h : Talks true q q')
    (hsock : sock = q'.conn.pasvSockfd) : Talks true q (doSendReply q' sock text) := by
  unfold doSendReply
  split
  · exact h
  · exact h.use hsock

/-- So it may send every line of a listing there. By induction on the lines. -/
theorem sendLines {sock : Int} {lines : List (List UInt8)} (h : Talks true q q')
    (hsock : sock = q'.conn.pasvSockfd) : Talks true q (sendLines q' sock lines) := by
  induction lines generalizing q' with
  | nil => exact h
  | cons l ls ih =>
    have hstep : Talks true q' (doSendReply q' sock l) := (refl true q').sendData hsock
    exact ih (h.trans hstep) (hsock.trans hstep.pasvSockfd.symm)

end Talks

/-! ### The commands without a data socket -/

section Quiet
variable (o : Outcome) (q : Req) (p : Option (List UInt8))

/-- `TYPE` reads its parameter and replies. -/
theorem talks_cmdType : Talks false q (cmdType o q p) := by
  dsimp only [cmdType]
  split
  · exact (Talks.refl _ q).param.reply
  · exact (Talks.refl _ q).param.reply

/-- `SIZE` opens and closes the file, which is work on the volume, and replies. -/
theorem talks_cmdSize : Talks false q (cmdSize o q p) := by
  dsimp only [cmdSize]
  split
  · exact (Talks.refl _ q).paramPath.vol.reply
  · exact (Talks.refl _ q).paramPath.vol.reply

/-- `CWD` changes the current directory and replies. -/
theorem talks_cmdCwd : Talks false q (cmdCwd o q p) :=
  (Talks.refl _ q).paramPath.reply.update rfl rfl rfl

/-- So does `CDUP`. -/
theorem talks_cmdCdup : Talks false q (cmdCdup q) := by
  dsimp only [cmdCdup]
  exact Talks.reply (Talks.update (Talks.refl _ q).spare rfl rfl rfl)

/-- `REST` stores the offset, which talking does not keep, and replies. -/
theorem talks_cmdRest : Talks false q (cmdRest o q p) := by
  dsimp only [cmdRest]
  split
  · exact Talks.reply (Talks.update (Talks.refl _ q).param rfl rfl rfl)
  · exact (Talks.refl _ q).param

/-- `MKD` calls FatFs and replies on either branch. -/
theorem talks_cmdMkd : Talks false q (cmdMkd o q p) := by
  dsimp only [cmdMkd]
  split
  · exact (Talks.refl _ q).paramPath.vol.reply
  · exact (Talks.refl _ q).paramPath.vol.reply

/-- So does `DELE`. -/
theorem talks_cmdDele : Talks false q (cmdDele o q p) := by
  dsimp only [cmdDele]
  split
  · exact (Talks.refl _ q).paramPath.vol.reply
  · exact (Talks.refl _ q).paramPath.vol.reply

/-- So does `RMD`. -/
theorem talks_cmdRmd : Talks false q (cmdRmd o q p) := by
  dsimp only [cmdRmd]
  split
  · exact (Talks.refl _ q).paramPath.vol.reply
  · exact (Talks.refl _ q).paramPath.vol.reply

end Quiet

/-- The commands that work with a data socket. -/
def Cmd.isData : Cmd → Bool
  | .list | .nlst | .retr | .stor | .port | .pasv => true
  | _ => false

/-- Every other command only talks on the control socket. By the command; each has its lemma
above. -/
theorem talks_execute {o : Outcome} {q : Req} {line : List UInt8}
    (h : (doParseCommand line).isData = false) : Talks false q (execute o q line).2 := by
  dsimp only [execute]
  cases hcmd : doParseCommand line with
  | list | nlst | retr | stor | port | pasv => simp [hcmd, Cmd.isData] at h
  | type => exact talks_cmdType o q _
  | size => exact talks_cmdSize o q _
  | cwd => exact talks_cmdCwd o q _
  | cdup => exact talks_cmdCdup q
  | rest => exact talks_cmdRest o q _
  | mkd => exact talks_cmdMkd o q _
  | dele => exact talks_cmdDele o q _
  | rmd => exact talks_cmdRmd o q _
  | user | pass | mdtm | syst | pwd | feat | quit | unknown =>
    dsimp only
    exact (Talks.refl _ q).reply

/-! ### Transfers -/

section Transfer
variable (o : Outcome) (q : Req) (p : Option (List UInt8))

/-- `LIST` and `NLST` talk, close the data socket and talk on the control socket. -/
theorem listing_spec {list : Req → Int → List Filinfo → Req}
    (hlist : ∀ q readdir, Talks true q (list q q.conn.pasvSockfd readdir)) :
    ∃ q', Talks true q q' ∧ Talks false (q'.close q'.conn.pasvSockfd) (listing o q list) :=
  ⟨_, (Talks.refl _ q).reply.trans (hlist _ o.readdir),
    Talks.reply (Talks.update (Talks.refl _ _) rfl rfl rfl)⟩

/-- `do_full_list` sends on the data socket only. An `f_opendir` that fails is a line of text
there. -/
theorem talks_doFullList (readdir : List Filinfo) :
    Talks true q (doFullList q q.conn.pasvSockfd readdir) := by
  dsimp only [doFullList]
  split
  · exact Talks.sendData (Talks.update (Talks.refl _ q) rfl rfl rfl) rfl
  · exact Talks.sendLines (Talks.update (Talks.refl _ q) rfl rfl rfl) rfl

/-- So does `do_simple_list`. -/
theorem talks_doSimpleList (readdir : List Filinfo) :
    Talks true q (doSimpleList q q.conn.pasvSockfd readdir) := by
  dsimp only [doSimpleList]
  split
  · exact Talks.sendData (Talks.refl _ q).vol rfl
  · exact Talks.sendLines (Talks.refl _ q).vol rfl

/-- `LIST` talks, closes the data socket and talks on the control socket. -/
theorem cmdList_spec :
    ∃ q', Talks true q q' ∧ Talks false (q'.close q'.conn.pasvSockfd) (cmdList o q) :=
  listing_spec o q talks_doFullList

/-- `NLST` is `LIST` with shorter lines. -/
theorem cmdNlst_spec :
    ∃ q', Talks true q q' ∧ Talks false (q'.close q'.conn.pasvSockfd) (cmdNlst o q) :=
  listing_spec o q talks_doSimpleList

/-- The loop of `RETR` sends what it reads on the data socket. By induction on its turns. -/
theorem talks_retrLoop {turns : Nat} {q q' : Req} {file : Fil} (h : Talks true q q') :
    Talks true q (retrLoop turns q' file).1 := by
  induction turns generalizing q' file with
  | zero => exact h
  | succ turns ih =>
    dsimp only [retrLoop]
    split
    · exact ih (h.use rfl)
    · exact h

/-- The transfer of `RETR` ends with the close of the data socket. -/
theorem retrTransfer_spec (path : List UInt8) (numBytes : Int) (file : Fil) :
    ∃ q', Talks true q q' ∧
      retrTransfer q path numBytes file = q'.close q'.conn.pasvSockfd := by
  dsimp only [retrTransfer]
  exact ⟨_, (talks_retrLoop (Talks.refl _ q).reply).reply.vol, rfl⟩

/-- The loop of `STOR` waits and receives on the data socket, and replies where the peer has closed.
By induction on what it receives. -/
theorem talks_storLoop {q q' : Req} {file : Fil} {ds : List DataIn} (h : Talks true q q') :
    Talks true q (storLoop q' file ds).2 := by
  induction ds generalizing q' file with
  | nil => exact h.use rfl
  | cons d ds ih =>
    have hrecv : Talks true q
        ((q'.emit (.select q'.conn.pasvSockfd)).emit (.recv q'.conn.pasvSockfd)) :=
      (h.use (e := .select _) rfl).use rfl
    dsimp only [storLoop]
    cases d.recv with
    | none => exact hrecv.vol
    | some bytes =>
      cases bytes with
      | nil =>
        dsimp only
        exact hrecv.vol.reply
      | cons b bs => exact ih hrecv

/-- The file that `RETR` sends exists and can be opened again. -/
def CanSend (vol : Volume) (path : List UInt8) : Prop :=
  (doGetFilesize vol path).1 ≠ -1 ∧
    (fOpen (doGetFilesize vol path).2 Fil.null path { faRead := true } false).1 = .ok

instance (vol : Volume) (path : List UInt8) : Decidable (CanSend vol path) :=
  inferInstanceAs (Decidable (_ ∧ _))

/-- The file that `STOR` writes can be opened. -/
def CanStore (vol : Volume) (path : List UInt8) (slot : Bool) : Prop :=
  (fOpen vol Fil.null path { faWrite := true, faOpenAlways := true } slot).1 = .ok

instance (vol : Volume) (path : List UInt8) (slot : Bool) : Decidable (CanStore vol path slot) :=
  inferInstanceAs (Decidable (_ = _))

/-- The copy of the line is an effect on the memory of the server. -/
theorem talks_copyLine (data : Bool) (line : List UInt8) :
    Talks data q (copyLine o q line) := by
  unfold copyLine
  split
  · exact (Talks.plain (e := .pastEnd) (Talks.refl data q) trivial).spare
  · exact (Talks.refl data q).spare

/-- `RETR` of a file that it can open uses the data socket, and closes it at the end. -/
theorem cmdRetr_sends (line : List UInt8) (h : CanSend q.vol (paramPath o q.conn.currentdir p)) :
    ∃ q', Talks true q q' ∧ cmdRetr o q p line = q'.close q'.conn.pasvSockfd := by
  dsimp only [cmdRetr]
  rw [paramPath_fst, paramPath_vol, copyLine_vol, copyLine_conn, if_neg h.1,
    if_neg (not_not_intro h.2)]
  obtain ⟨q', hq', heq⟩ := retrTransfer_spec _ _ _ _
  exact ⟨q', (talks_copyLine o q true line).paramPath.vol.trans hq', heq⟩

/-- `RETR` of another path only talks on the control socket. -/
theorem cmdRetr_refuses (line : List UInt8)
    (h : ¬ CanSend q.vol (paramPath o q.conn.currentdir p)) :
    Talks false q (cmdRetr o q p line) := by
  have hpath := (talks_copyLine o q false line).paramPath (o := o) (p := p)
  dsimp only [cmdRetr]
  rw [paramPath_fst, paramPath_vol, copyLine_vol, copyLine_conn]
  split
  · exact Talks.update (Talks.vol hpath).reply rfl rfl rfl
  · next hsize =>
    rw [if_pos (fun hrc => h ⟨hsize, hrc⟩)]
    exact hpath.vol

/-- `STOR` to a file that it can open uses the data socket, and closes it at the end. -/
theorem cmdStor_stores (h : CanStore q.vol (paramPath o q.conn.currentdir p) o.slot) :
    ∃ q', Talks true q q' ∧ (cmdStor o q p).2 = q'.close q'.conn.pasvSockfd := by
  unfold CanStore at h
  dsimp only [cmdStor]
  rw [paramPath_fst, paramPath_vol, if_neg (not_not_intro h)]
  exact ⟨_, talks_storLoop (Talks.refl _ q).paramPath.vol.reply, rfl⟩

/-- `STOR` to another path only talks on the control socket. -/
theorem cmdStor_refuses (h : ¬ CanStore q.vol (paramPath o q.conn.currentdir p) o.slot) :
    Talks false q (cmdStor o q p).2 := by
  unfold CanStore at h
  dsimp only [cmdStor]
  rw [paramPath_fst, paramPath_vol, if_pos h]
  dsimp only
  exact (Talks.refl _ q).paramPath.vol.reply

/-- The tokens of `PORT` are read with effects on memory alone. -/
theorem talks_portRead (data : Bool) : Talks data q (portRead o q p).2 := by
  dsimp only [portRead]
  split
  · exact (Talks.plain (e := .nullPtr) (Talks.refl data q).param trivial).spare
  · exact (Talks.refl data q).param.spare

end Transfer

/-! ### What every request keeps -/

/-- The part of a request from `q` to `q'` only adds to the effects, keeps the control socket,
and leaves the descriptors `K` open. -/
structure Keeps (K : Int → Prop) (q q' : Req) : Prop where
  id : q'.conn.id = q.conn.id
  sockfd : q'.conn.sockfd = q.conn.sockfd
  out : q.out <+: q'.out
  opened : (∀ fd, K fd → q.sockets fd = true) → ∀ fd, K fd → q'.sockets fd = true

/-- A part that only talks keeps any set of descriptors open. -/
theorem Talks.keeps {data : Bool} {q q' : Req} (h : Talks data q q') (K : Int → Prop) :
    Keeps K q q' := by
  obtain ⟨es, hes, -⟩ := h.out
  exact ⟨h.id, h.sockfd, ⟨es, hes.symm⟩, fun hK => h.sockets.symm ▸ hK⟩

/-- `socket` and `accept` fail or return a descriptor that was not in use. -/
theorem newFd_cases (q : Req) (n : Option Nat) :
    q.newFd n = (-1, q) ∨
      ∃ fd : Nat, q.sockets fd = false ∧
        q.newFd n = ((fd : Int), { q with sockets := Function.update q.sockets fd true }) := by
  unfold Req.newFd
  cases n with
  | none => exact Or.inl rfl
  | some fd =>
    by_cases hfd : q.sockets fd = true
    · exact Or.inl (if_pos hfd)
    · exact Or.inr ⟨fd, by simpa using hfd, if_neg hfd⟩

/-- Which descriptor they return depends only on those in use. -/
theorem newFd_fst_congr {q q' : Req} (h : q.sockets = q'.sockets) (n : Option Nat) :
    (q.newFd n).1 = (q'.newFd n).1 := by
  unfold Req.newFd
  rw [h]
  cases n with
  | none => rfl
  | some fd =>
    dsimp only
    split <;> rfl

/-- So do those in use afterwards. -/
theorem newFd_sockets_congr {q q' : Req} (h : q.sockets = q'.sockets) (n : Option Nat) :
    (q.newFd n).2.sockets = (q'.newFd n).2.sockets := by
  unfold Req.newFd
  rw [h]
  cases n with
  | none => exact h
  | some fd =>
    dsimp only
    split
    · exact h
    · rfl

namespace Keeps

variable {K : Int → Prop} {q q' q'' : Req}

/-- A part that does nothing keeps every set. -/
theorem refl (q : Req) : Keeps K q q := ⟨rfl, rfl, List.prefix_refl _, fun h => h⟩

/-- Two parts that keep a set keep it one after the other. -/
theorem trans (h : Keeps K q q') (h' : Keeps K q' q'') : Keeps K q q'' :=
  ⟨h'.id.trans h.id, h'.sockfd.trans h.sockfd, h.out.trans h'.out,
    fun hK => h'.opened (h.opened hK)⟩

/-- An effect keeps a set: what closes a descriptor is the update beside it. -/
theorem emit {e : Effect} (h : Keeps K q q') : Keeps K q (q'.emit e) :=
  h.trans ⟨rfl, rfl, List.prefix_append _ _, fun hK => hK⟩

/-- A reply keeps a set, because it only talks. -/
theorem reply {text : List UInt8} (h : Keeps K q q') : Keeps K q (q'.reply text) :=
  h.trans ((Talks.refl false q').reply.keeps K)

/-- The fields of the connection besides its control socket. -/
theorem update {conn : Conn} (h : Keeps K q q') (hid : conn.id = q'.conn.id)
    (hfd : conn.sockfd = q'.conn.sockfd) : Keeps K q { q' with conn } :=
  h.trans ⟨hid, hfd, List.prefix_refl _, fun hK => hK⟩

/-- A descriptor outside the set may be closed. -/
theorem close {fd : Int} (h : Keeps K q q') (hfd : ¬ K fd) : Keeps K q (q'.close fd) := by
  refine h.trans ⟨rfl, rfl, List.prefix_append _ _, fun hK fd' hfd' => ?_⟩
  have hne : fd' ≠ fd := fun heq => hfd (heq ▸ hfd')
  show Function.update q'.sockets fd false fd' = true
  rw [Function.update_of_ne hne]
  exact hK fd' hfd'

/-- A new descriptor closes none that is open, so every set is kept. -/
theorem newFd {n : Option Nat} (h : Keeps K q q') : Keeps K q (q'.newFd n).2 := by
  rcases newFd_cases q' n with heq | ⟨fd, -, heq⟩
  · rw [heq]
    exact h
  · rw [heq]
    refine h.trans ⟨rfl, rfl, List.prefix_refl _, fun hK fd' hfd' => ?_⟩
    show Function.update q'.sockets fd true fd' = true
    by_cases hne : fd' = fd
    · rw [hne]
      exact Function.update_self ..
    · rw [Function.update_of_ne hne]
      exact hK fd' hfd'

end Keeps

section KeepsCommands
variable {K : Int → Prop} (o : Outcome) (q : Req) (p : Option (List UInt8))

/-- What follows a successful `socket` in `PORT` closes at most that descriptor. -/
theorem keeps_portConnect {fd : Int} (hfd : ¬ K fd) (addr : UInt32) (port : UInt16) :
    Keeps K q (portConnect o q fd addr port) := by
  dsimp only [portConnect]
  have hconn : Keeps K q (if o.connect.1 then
      (q.emit (.bind fd ftpDataPort)).emit (.connect fd addr port o.connect.1)
    else ((q.emit (.bind fd ftpDataPort)).emit (.connect fd addr port o.connect.1)).emit
      (.connect fd q.conn.remote port o.connect.2)) := by
    split
    · exact (Keeps.refl q).emit.emit
    · exact (Keeps.refl q).emit.emit.emit
  split
  · refine Keeps.reply ?_
    exact Keeps.update hconn rfl rfl
  · exact (Keeps.reply hconn).close hfd

/-- `PORT` closes nothing but the descriptor that it opened. A descriptor that it gets was free, so
it is none of those in use. -/
theorem keeps_cmdPort (hK : ∀ fd, K fd → q.sockets fd = true) (hneg : ¬ K (-1)) :
    Keeps K q (cmdPort o q p) := by
  have hread : Keeps K q (portRead o q p).2 := (talks_portRead o q p false).keeps K
  have hnew : Keeps K q ((portRead o q p).2.newFd o.socket).2 := hread.newFd
  dsimp only [cmdPort]
  rcases newFd_cases (portRead o q p).2 o.socket with heq | ⟨fd, hfree, heq⟩
  · rw [heq] at hnew ⊢
    rw [if_pos rfl]
    refine Keeps.update (Keeps.close (Keeps.reply (Keeps.emit ?_)) hneg) rfl rfl
    exact Keeps.update hnew rfl rfl
  · rw [heq] at hnew ⊢
    -- the new descriptor was not in use, so it is none of those kept open
    have hfd : ¬ K fd := fun hk => by simpa [hfree] using hread.opened hK fd hk
    rw [if_neg (by dsimp only; omega)]
    refine Keeps.trans (Keeps.emit ?_) (keeps_portConnect o _ hfd _ _)
    exact Keeps.update hnew rfl rfl

/-- `PASV` behind `listen` closes at most its listening socket, and leaves no descriptor of `K`
in `pasv_sockfd` if it fails. -/
theorem keeps_pasvAccept (ret : Nat) {sockfd : Int} (hK : ∀ fd, K fd → q.sockets fd = true)
    (hneg : ¬ K (-1)) (hfd : ¬ K sockfd) (hready : o.ready = false → ¬ K q.conn.pasvSockfd) :
    Keeps K q (pasvAccept o q ret sockfd).2 ∧
      ((pasvAccept o q ret sockfd).1 ≠ 0 → ¬ K (pasvAccept o q ret sockfd).2.conn.pasvSockfd) := by
  dsimp only [pasvAccept]
  generalize hq₁ : (q.reply (passiveMode o)).emit (.select sockfd) = q₁
  have htalk : Keeps K q q₁ := hq₁ ▸ (Keeps.refl q).reply.emit
  have hconn : q₁.conn = q.conn := by rw [← hq₁, emit_conn, reply_conn]
  by_cases hr : o.ready = false
  · rw [if_pos (by simp [hr])]
    refine ⟨htalk, fun _ => ?_⟩
    show ¬ K q₁.conn.pasvSockfd
    rw [hconn]
    exact hready hr
  · rw [if_neg (by simpa using hr)]
    have hnew := Keeps.newFd (n := o.accept) htalk
    rcases newFd_cases q₁ o.accept with heq | ⟨fd, hfree, heq⟩
    · rw [heq] at hnew ⊢
      rw [if_pos (show (-1 : Int) < 0 by omega)]
      dsimp only
      constructor
      · refine Keeps.reply (Keeps.emit ?_)
        exact Keeps.update hnew rfl rfl
      · intro _
        rw [reply_conn, emit_conn]
        exact hneg
    · rw [heq] at hnew ⊢
      rw [if_neg (show ¬ (fd : Int) < 0 by omega)]
      dsimp only
      constructor
      · refine Keeps.close ?_ hfd
        refine Keeps.update (Keeps.emit ?_) rfl rfl
        exact Keeps.update hnew rfl rfl
      · intro _ hk
        simpa [hfree] using htalk.opened hK fd hk

/-- `PASV` keeps a set of open descriptors where -1 is not in it and where, on the branches that end
before `accept`, neither is the old `pasv_sockfd`. An error leaves no descriptor of the set in
`pasv_sockfd`, which the caller closes. -/
theorem keeps_pasvOpen (hK : ∀ fd, K fd → q.sockets fd = true) (hneg : ¬ K (-1))
    (hpasv : (q.newFd o.socket).1 = -1 ∨ o.listen = false ∨ o.ready = false →
      ¬ K q.conn.pasvSockfd) :
    Keeps K q (pasvOpen o q).2 ∧
      ((pasvOpen o q).1 ≠ 0 → ¬ K (pasvOpen o q).2.conn.pasvSockfd) := by
  have hsame : ∀ (q : Req) text, (q.reply text).conn.pasvSockfd = q.conn.pasvSockfd :=
    fun q _ => (Talks.refl false q).reply.pasvSockfd
  have hnew := Keeps.newFd (n := o.socket) (Keeps.refl (K := K) q)
  dsimp only [pasvOpen]
  rcases newFd_cases q o.socket with heq | ⟨fd, hfree, heq⟩
  · rw [heq] at hpasv ⊢
    rw [if_pos rfl]
    dsimp only
    refine ⟨(Keeps.refl q).emit.reply, fun _ => ?_⟩
    rw [hsame]
    exact hpasv (Or.inl rfl)
  · rw [heq] at hnew hpasv ⊢
    rw [if_neg (show (fd : Int) ≠ -1 by omega)]
    dsimp only
    have hfd : ¬ K fd := fun hk => by simpa [hfree] using hK fd hk
    -- the bind, its reply and the listen only talk
    generalize hq₁ : Req.emit (if o.bind then _ else _) (.listen fd) = q₁
    obtain ⟨hk₁, hpasv₁⟩ : Keeps K q q₁ ∧ q₁.conn.pasvSockfd = q.conn.pasvSockfd := by
      split at hq₁
      · exact ⟨hq₁ ▸ hnew.emit.emit.emit, hq₁ ▸ rfl⟩
      · exact ⟨hq₁ ▸ hnew.emit.emit.reply.emit, hq₁ ▸ hsame _ _⟩
    by_cases hl : o.listen = false
    · rw [if_pos (by simp [hl])]
      dsimp only
      refine ⟨hk₁.reply, fun _ => ?_⟩
      rw [hsame, hpasv₁]
      exact hpasv (Or.inr (Or.inl hl))
    · rw [if_neg (by simpa using hl)]
      have haccept := keeps_pasvAccept o q₁ (if o.bind then 0 else 3) (hk₁.opened hK)
        hneg hfd fun hr => hpasv₁ ▸ hpasv (Or.inr (Or.inr hr))
      exact ⟨hk₁.trans haccept.1, haccept.2⟩

/-- `PASV` closes its listening socket, and `pasv_sockfd` if it fails. The number in `pasv_sockfd`
is the one that it has opened, or the old one where it has opened none. -/
theorem keeps_cmdPasv (hK : ∀ fd, K fd → q.sockets fd = true) (hneg : ¬ K (-1))
    (hpasv : (q.newFd o.socket).1 = -1 ∨ o.listen = false ∨ o.ready = false →
      ¬ K q.conn.pasvSockfd) :
    Keeps K q (cmdPasv o q) := by
  dsimp only [cmdPasv]
  generalize hq₀ : ({ q with conn := { q.conn with pasvPort := ftpPassvPort, pasvActive := true } }
    : Req) = q₀
  have h₀ : Keeps K q q₀ := hq₀ ▸ Keeps.update (Keeps.refl q) rfl rfl
  obtain ⟨hopen, hclose⟩ := keeps_pasvOpen o q₀ (h₀.opened hK) hneg fun h => by
    have hfst : (q.newFd o.socket).1 = (q₀.newFd o.socket).1 := newFd_fst_congr (hq₀ ▸ rfl) _
    rw [← hfst] at h
    exact (hq₀ ▸ hpasv h : ¬ K q₀.conn.pasvSockfd)
  have hall := h₀.trans hopen
  split
  · next hret => exact Keeps.update (hall.close (hclose hret)) rfl rfl
  · exact hall

/-- The command closes the descriptor that `pasv_sockfd` holds before it. -/
def ClosesPasv (line : List UInt8) : Prop :=
  match doParseCommand line with
  | .list | .nlst => True
  | .retr => CanSend q.vol (paramPath o q.conn.currentdir (parameterPtr line))
  | .stor => CanStore q.vol (paramPath o q.conn.currentdir (parameterPtr line)) o.slot
  | .pasv => (q.newFd o.socket).1 = -1 ∨ o.listen = false ∨ o.ready = false
  | _ => False

instance (line : List UInt8) : Decidable (ClosesPasv o q line) := by
  unfold ClosesPasv
  split <;> infer_instance

/-- A command only adds to the effects, keeps the control socket, and closes no descriptor that
was in use but, in some cases, the one in `pasv_sockfd`. -/
theorem keeps_execute {line : List UInt8} (hK : ∀ fd, K fd → q.sockets fd = true)
    (hneg : ¬ K (-1)) (hpasv : ClosesPasv o q line → ¬ K q.conn.pasvSockfd) :
    Keeps K q (execute o q line).2 := by
  by_cases hdata : (doParseCommand line).isData = false
  · exact (talks_execute hdata).keeps K
  · dsimp only [execute]
    unfold ClosesPasv at hpasv
    cases hcmd : doParseCommand line with
    | list =>
      obtain ⟨q', hq', hlist⟩ := cmdList_spec o q
      rw [hcmd] at hpasv
      have hclose := (hq'.keeps K).close (hq'.pasvSockfd.symm ▸ hpasv trivial)
      exact hclose.trans (hlist.keeps K)
    | nlst =>
      obtain ⟨q', hq', hlist⟩ := cmdNlst_spec o q
      rw [hcmd] at hpasv
      have hclose := (hq'.keeps K).close (hq'.pasvSockfd.symm ▸ hpasv trivial)
      exact hclose.trans (hlist.keeps K)
    | retr =>
      rw [hcmd] at hpasv
      by_cases hsend : CanSend q.vol (paramPath o q.conn.currentdir (parameterPtr line))
      · obtain ⟨q', hq', heq⟩ := cmdRetr_sends o q _ line hsend
        dsimp only
        rw [heq]
        exact (hq'.keeps K).close (hq'.pasvSockfd.symm ▸ hpasv hsend)
      · exact (cmdRetr_refuses o q _ line hsend).keeps K
    | stor =>
      rw [hcmd] at hpasv
      by_cases hstore : CanStore q.vol (paramPath o q.conn.currentdir (parameterPtr line)) o.slot
      · obtain ⟨q', hq', heq⟩ := cmdStor_stores o q _ hstore
        dsimp only
        rw [heq]
        exact (hq'.keeps K).close (hq'.pasvSockfd.symm ▸ hpasv hstore)
      · exact (cmdStor_refuses o q _ hstore).keeps K
    | port => exact keeps_cmdPort o q _ hK hneg
    | pasv =>
      rw [hcmd] at hpasv
      exact keeps_cmdPasv o q hK hneg hpasv
    | user | pass | pwd | type | size | mdtm | syst | cwd | cdup | rest | mkd | dele | rmd | feat
    | quit | unknown => simp [hcmd, Cmd.isData] at hdata

/-- Whatever happens to the descriptors, a command keeps the control socket of its session. -/
theorem keeps_execute_conn (line : List UInt8) : Keeps (fun _ => False) q (execute o q line).2 :=
  keeps_execute o q (fun _ h => h.elim) (fun h => h) (fun _ h => h)

end KeepsCommands

/-! ### The result of a request -/

/-- The receive loop of `STOR` ends with an error of `recv`. -/
def recvFails : List DataIn → Bool
  | [] => false
  | d :: ds =>
    match d.recv with
    | none => true
    | some [] => false
    | some (_ :: _) => recvFails ds

/-- The loop of `STOR` returns -1 iff a `recv` fails before the peer has closed. -/
theorem storLoop_fst (q : Req) (file : Fil) (ds : List DataIn) :
    (storLoop q file ds).1 = if recvFails ds then -1 else 0 := by
  induction ds generalizing q file with
  | nil => rfl
  | cons d ds ih =>
    obtain ⟨recv, room⟩ := d
    cases recv with
    | none => rfl
    | some bytes =>
      cases bytes with
      | nil => rfl
      | cons b bs => exact ih _ _

/-- The commands after which the service loop drops the connection. -/
def Ends (o : Outcome) (q : Req) (line : List UInt8) : Prop :=
  match doParseCommand line with
  | .quit => True
  | .stor =>
    CanStore q.vol (paramPath o q.conn.currentdir (parameterPtr line)) o.slot ∧
      recvFails o.recvs = true
  | _ => False

instance (o : Outcome) (q : Req) (line : List UInt8) : Decidable (Ends o q line) := by
  unfold Ends
  split <;> infer_instance

/-- `ftp_process_request` returns -1 exactly after these commands. They are `QUIT`, and `STOR` with
a `recv` that fails. -/
theorem execute_fst_iff (o : Outcome) (q : Req) (line : List UInt8) :
    (execute o q line).1 = -1 ↔ Ends o q line := by
  dsimp only [execute, Ends]
  cases hcmd : doParseCommand line with
  | stor =>
    dsimp only [cmdStor]
    rw [paramPath_fst, paramPath_vol]
    by_cases hstore : CanStore q.vol (paramPath o q.conn.currentdir (parameterPtr line)) o.slot
    · have hrc := hstore
      unfold CanStore at hrc
      rw [if_neg (not_not_intro hrc), storLoop_fst]
      simp [hstore]
    · have hrc := hstore
      unfold CanStore at hrc
      rw [if_pos hrc]
      simp [hstore]
  | quit => simp
  | user | pass | pwd | type | size | mdtm | syst | cwd | cdup | rest | mkd | dele | rmd | feat
  | list | nlst | retr | port | pasv | unknown => simp

end NucleoH743.Ftp
