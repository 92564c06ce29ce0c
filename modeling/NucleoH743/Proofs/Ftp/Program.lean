import Mathlib.Tactic.SplitIfs
import NucleoH743.Ftp.Program
import NucleoH743.Lib.Choice
import NucleoH743.Proofs.Ftp.Requests

/-!
# `Proofs.Ftp.Program`: the program of a request does what its commands do

`Ftp.Program` keeps a request as its calls, and `Ftp.Ftpd` computes its effects on the volume and
the network under an `Outcome`. Here the calls are answered as the outcome says (`Host.call`), and
the program then has the effects of the command.

The program asks for one call at a time, and a host answers. `Host` is a host that follows an
`Outcome`: it keeps the volume, the file objects, the descriptors in use, and the results that the
outcome has still to give. `Same` says that the account of the program and that of the command agree
so far, and the lemmas on `Does` carry it across each part of a command.

For a loop the program has a fuel, and the statement is that there is a number of turns that is
enough. This says of the code that the loop comes to its end: a listing has at most one turn more
than the directory has entries, `RETR` one more than the file has bytes, and `STOR` one more than
there are chunks.

What the code does to its own memory is not a call, so the program leaves it out, and `onNetwork`
takes it out of the effects of the command before the two are compared.

- `execute_does`: with enough turns for its loops, the program of a command returns what the
  command returns, and it leaves the connection, the volume, the descriptors and the calls on the
  network as the command leaves them.
-/

set_option autoImplicit false

namespace NucleoH743.Ftp.Program

open NucleoH743.FatFs
open NucleoH743.Ftp.Calls (FileVar)
open Prog (always_seq always_runWith)
open CStr (textBytes)

/-! ### The host of a request -/

/-- What a request meets outside its own code. -/
structure Host where
  /-- the volume, the descriptors and the calls on the network -/
  req : Req
  fil : FileVar → Fil
  /-- the data for `STOR` that has not come yet -/
  recvs : List DataIn
  /-- the bytes that the disk has room for behind the last `recv` -/
  room : Nat := 0
  /-- the directory entries that have not been read yet -/
  readdir : List Filinfo
  /-- the results of the next calls of `connect` -/
  connects : List Bool

namespace Host

/-- Store a file object. -/
def setFil (h : Host) (f : FileVar) (file : Fil) : Host :=
  { h with fil := Function.update h.fil f file }

/-- Add a call on the network. -/
def emit (h : Host) (e : Effect) : Host := { h with req := h.req.emit e }

/-- The volume after a call. -/
def setVol (h : Host) (vol : Volume) : Host := { h with req := { h.req with vol } }

/-- A file object that was stored is read back. -/
theorem setFil_fil (h : Host) (f : FileVar) (file : Fil) : (h.setFil f file).fil f = file := by
  simp [setFil]

/-- The descriptor `fd`, unless it is in use. -/
def free (h : Host) (fd : Option Nat) : Option Nat := fd.filter fun n => !h.req.sockets n

/-- The answer to a call under the outcome `o`. What a file object holds before `f_open` does not
matter. -/
def call (o : Outcome) : (op : FtpOp) → Host → op.Res × Host
  | .malloc, h => (o.malloc, h)
  | .sendReply sock text, h | .sendEntry sock text, h =>
    ((), { h with req := doSendReply h.req sock text })
  | .socket, h =>
    (h.free o.socket,
      { h with req := (h.req.newFd o.socket).2.emit (.socket (h.req.newFd o.socket).1) })
  | .bind fd port, h => (o.bind, h.emit (.bind fd port))
  | .listen fd, h => (o.listen, h.emit (.listen fd))
  | .connect fd addr port, h =>
    (h.connects.headD false,
      { h.emit (.connect fd addr port (h.connects.headD false)) with connects := h.connects.tail })
  | .accept fd, h =>
    (h.free o.accept,
      { h with req := (h.req.newFd o.accept).2.emit (.accept fd (h.req.newFd o.accept).1) })
  | .select fd, h => (!h.recvs.isEmpty, h.emit (.select fd))
  | .fdIsset _, h => (o.ready, h)
  | .send fd buf, h => (some buf.length, h.emit (.send fd buf buf.length))
  | .recv fd, h =>
    match h.recvs with
    | d :: ds => (d.recv, { h.emit (.recv fd) with recvs := ds, room := d.room })
    | [] => (none, h.emit (.recv fd))
  | .close fd, h => ((), { h with req := h.req.close fd })
  | .fOpendir path, h => ((fOpendir h.req.vol path).1, h.setVol (fOpendir h.req.vol path).2.2)
  | .fReaddir, h =>
    match h.readdir with
    | fno :: rest => ((.ok, fno), { h with readdir := rest })
    | [] => ((.ok, ⟨[], 0, 0, false⟩), h)
  | .fOpen f path mode, h =>
    let r := fOpen h.req.vol Fil.null path mode (mode.faWrite && o.slot)
    (r.1, (h.setFil f r.2.1).setVol r.2.2)
  | .fSize f, h => ((h.fil f).data.length, h)
  | .fLseek f ofs, h =>
    let r := fLseek h.req.vol (h.fil f) ofs
    (r.1, h.setFil f r.2)
  | .fRead f btr, h =>
    let r := fRead h.req.vol (h.fil f) btr
    ((r.1, r.2.1), h.setFil f r.2.2)
  | .fWrite f buff, h =>
    let r := fWrite h.req.vol (h.fil f) buff h.room
    ((r.1, r.2.1), h.setFil f r.2.2)
  | .fClose f, h =>
    let r := fClose h.req.vol (h.fil f)
    (r.1, (h.setFil f r.2.1).setVol r.2.2)
  | .fMkdir path, h =>
    ((fMkdir h.req.vol path o.slot).1, h.setVol (fMkdir h.req.vol path o.slot).2)
  | .fUnlink path, h =>
    ((fUnlink h.req.vol path o.removable).1, h.setVol (fUnlink h.req.vol path o.removable).2)

end Host

/-! ### Two accounts of one request -/

/-- The effect is a call on the network. The others are what the code does to its own memory. -/
def onNetwork : Effect → Bool
  | .requested _ | .spareBuf _ | .ftpBuf _ | .nullPtr | .pastEnd | .accepted _
  | .disconnected _ => false
  | .socket _ | .bind _ _ | .listen _ | .connect _ _ _ _ | .accept _ _ | .select _ | .recv _
  | .send _ _ _ | .close _ => true

/-- `p` accounts for the same calls as `q`. -/
structure Same (p q : Req) : Prop where
  vol : p.vol = q.vol
  sockets : p.sockets = q.sockets
  out : p.out = q.out.filter onNetwork

namespace Same
variable {p q : Req}

/-- A call that both make. -/
theorem emit (h : Same p q) {e : Effect} (he : onNetwork e = true) :
    Same (p.emit e) (q.emit e) := by
  refine ⟨h.vol, h.sockets, ?_⟩
  show p.out ++ [e] = (q.out ++ [e]).filter onNetwork
  rw [h.out, List.filter_append, List.filter_cons_of_pos he, List.filter_nil]

/-- What the code does to its own memory. -/
theorem own (h : Same p q) {e : Effect} (he : onNetwork e = false) : Same p (q.emit e) := by
  refine ⟨h.vol, h.sockets, ?_⟩
  show p.out = (q.out ++ [e]).filter onNetwork
  rw [h.out, List.filter_append, List.filter_cons_of_neg (by simp [he]), List.filter_nil,
    List.append_nil]

/-- `do_send_reply` makes one call of `send` in both accounts, or none for an empty text. -/
theorem send (h : Same p q) (sock : Int) (text : List UInt8) :
    Same (doSendReply p sock text) (doSendReply q sock text) := by
  unfold doSendReply
  split_ifs
  · exact h
  · exact h.emit rfl

/-- `close` is in both accounts, with the same descriptor. -/
theorem close (h : Same p q) (fd : Int) : Same (p.close fd) (q.close fd) := by
  have hupdate : Function.update p.sockets fd false = Function.update q.sockets fd false := by
    rw [h.sockets]
  have hs : Same { p with sockets := Function.update p.sockets fd false }
      { q with sockets := Function.update q.sockets fd false } := ⟨h.vol, hupdate, h.out⟩
  exact hs.emit (e := .close fd) rfl

/-- A call of FatFs gives both accounts the same volume. -/
theorem setVol (h : Same p q) (vol : Volume) : Same { p with vol } { q with vol } :=
  ⟨rfl, h.sockets, h.out⟩

/-- The connection is not a part of the account. -/
theorem setConn (h : Same p q) (conn : Conn) : Same p { q with conn } := ⟨h.vol, h.sockets, h.out⟩

/-- A call that opens a descriptor returns the same one in both accounts, since the same descriptors
are in use. -/
theorem newFd_fst (h : Same p q) (fd : Option Nat) : (p.newFd fd).1 = (q.newFd fd).1 := by
  cases fd with
  | none => rfl
  | some fd =>
    unfold Req.newFd
    rw [h.sockets]
    dsimp only
    split_ifs <;> rfl

/-- Afterwards the same descriptors are in use again. -/
theorem newFd (h : Same p q) (fd : Option Nat) : Same (p.newFd fd).2 (q.newFd fd).2 := by
  cases fd with
  | none => exact h
  | some fd =>
    unfold Req.newFd
    rw [h.sockets]
    dsimp only
    split_ifs
    · exact h
    · exact ⟨h.vol, rfl, h.out⟩

/-- The parameter of a command. -/
theorem param (h : Same p q) (o : Outcome) (parameter : Option (List UInt8)) :
    ∃ q₁, q.param o parameter = (parameter.getD o.stray, q₁) ∧ q₁.conn = q.conn ∧ Same p q₁ := by
  cases parameter with
  | none => exact ⟨q.emit .nullPtr, rfl, rfl, h.own rfl⟩
  | some s => exact ⟨q, rfl, rfl, h⟩

/-- The path of a command, and the connection with its current directory. -/
theorem path (h : Same p q) (o : Outcome) (parameter : Option (List UInt8)) :
    ∃ path q₁, q.paramPath o parameter = (path, q₁) ∧
      fullPath q.conn (parameter.getD o.stray) = (path, q₁.conn) ∧ Same p q₁ := by
  obtain ⟨q₁, hparam, hconn, hs⟩ := h.param o parameter
  have hfull : q.paramPath o parameter = q₁.fullPath (parameter.getD o.stray) := by
    rw [Req.paramPath, hparam]
  refine ⟨(q₁.fullPath (parameter.getD o.stray)).1, (q₁.fullPath (parameter.getD o.stray)).2,
    hfull, ?_, (hs.setConn _).own (e := .spareBuf _) rfl⟩
  rw [← hconn]
  rfl

end Same

/-- The descriptor of a call is the same in both accounts. -/
theorem toFd_free (h : Host) (fd : Option Nat) : toFd (h.free fd) = (h.req.newFd fd).1 := by
  cases fd with
  | none => rfl
  | some fd =>
    unfold Host.free Req.newFd
    rw [Option.filter_some]
    dsimp only
    cases h.req.sockets fd <;> rfl

/-! ### The rules -/

/-- A part of a request ends with `Q` under the outcome `o`. -/
abbrev Under {α : Type} (o : Outcome) (p : Request α) (Q : α → Host → Prop) (h : Host) : Prop :=
  p.Always Host.call (· = o) Q h

/-- The part does what leads to `q'`. -/
abbrev Does (o : Outcome) (p : Request Conn) (q' : Req) (h : Host) : Prop :=
  Under o p (fun conn h' => conn = q'.conn ∧ Same h'.req q') h

section Rules
variable {β : Type} {o : Outcome} {h : Host} {q : Req} {Q : β → Host → Prop}

/-- To prove what a call leads to, prove it of the rest at the answer that the outcome gives. -/
theorem under_ask {op : FtpOp} {f : op.Res → Request β}
    (hf : Under o (f (Host.call o op h).1) Q (Host.call o op h).2) :
    Under o (ask op >>= f) Q h := by
  intro x hx
  subst hx
  exact hf

/-- The same with the answer named: the call is computed once, and the rest is proved of the
name. -/
theorem under_call {op : FtpOp} {f : op.Res → Request β} {r : op.Res} {h' : Host}
    (hcall : Host.call o op h = (r, h')) (hf : Under o (f r) Q h') :
    Under o (ask op >>= f) Q h := by
  refine under_ask ?_
  rw [hcall]
  exact hf

/-- A part that returns ends where it is. -/
theorem under_ret {b : β} (hb : Q b h) : Under o (return b) Q h := hb

/-- A reply in both accounts. -/
theorem under_reply {conn : Conn} {text : List UInt8} {f : Unit → Request β} (hs : Same h.req q)
    (hconn : conn = q.conn)
    (hf : ∀ p, Same p (q.reply text) → Under o (f ()) Q { h with req := p }) :
    Under o (reply conn text >>= f) Q h := by
  subst hconn
  exact under_ask (hf _ (hs.send _ _))

/-- `close` in both accounts. -/
theorem under_close {fd : Int} {f : Unit → Request β} (hs : Same h.req q)
    (hf : ∀ p, Same p (q.close fd) → Under o (f ()) Q { h with req := p }) :
    Under o (ask (.close fd) >>= f) Q h :=
  under_ask (hf _ (hs.close fd))

/-- A command that only replies. -/
theorem replyOnly_does (hs : Same h.req q) (text : List UInt8) :
    Does o (replyOnly q.conn text) (q.reply text) h := by
  refine under_reply hs rfl fun p hp => under_ret ⟨(reply_conn q text).symm, hp⟩

/-- A part whose value and account the next part starts with. -/
theorem does_then {p : Request Conn} {q' : Req} {f : Conn → Request β} (hp : Does o p q' h)
    (hf : ∀ h', Same h'.req q' → Under o (f q'.conn) Q h') : Under o (p >>= f) Q h := by
  refine always_seq hp ?_
  rintro conn h' ⟨rfl, hs⟩
  exact hf h' hs

end Rules

/-! ### The commands -/

section Commands
variable {o : Outcome} {h : Host} {q : Req}

/-- `TYPE` reads its parameter and replies. -/
theorem cmdType_does (hs : Same h.req q) (parameter : Option (List UInt8)) :
    Does o (cmdType q.conn (parameter.getD o.stray)) (Ftp.cmdType o q parameter) h := by
  obtain ⟨q₁, hparam, hconn, hs₁⟩ := hs.param o parameter
  unfold cmdType Ftp.cmdType
  rw [hparam, ← hconn]
  dsimp only
  split_ifs
  · exact replyOnly_does hs₁ _
  · exact replyOnly_does hs₁ _

/-- `REST` stores what `atoi` makes of its parameter, and replies. -/
theorem cmdRest_does (hs : Same h.req q) (parameter : Option (List UInt8)) :
    Does o (cmdRest q.conn (parameter.getD o.stray)) (Ftp.cmdRest o q parameter) h := by
  obtain ⟨q₁, hparam, hconn, hs₁⟩ := hs.param o parameter
  unfold cmdRest Ftp.cmdRest
  rw [hparam, ← hconn]
  dsimp only
  split_ifs
  · exact replyOnly_does (hs₁.setConn _) _
  · exact under_ret ⟨rfl, hs₁⟩

/-- `CWD` leaves its directory in the connection, and replies. -/
theorem cmdCwd_does (hs : Same h.req q) (parameter : Option (List UInt8)) :
    Does o (cmdCwd q.conn (parameter.getD o.stray)) (Ftp.cmdCwd o q parameter) h := by
  obtain ⟨path, q₁, hreq, hprog, hs₁⟩ := hs.path o parameter
  unfold cmdCwd Ftp.cmdCwd
  rw [hreq, hprog]
  dsimp only
  rw [reply_conn]
  exact under_reply hs₁ rfl fun p hp => under_ret ⟨rfl, hp.setConn _⟩

/-- `CDUP` steps down in the connection, and replies. -/
theorem cmdCdup_does (hs : Same h.req q) : Does o (cmdCdup q.conn) (Ftp.cmdCdup q) h :=
  replyOnly_does ((hs.own (e := .spareBuf _) rfl).setConn _) _

/-- A command that ends with a call on its path, and one of two replies to the result. -/
theorem callReply_does {op : FtpOp} {rc : op.Res} {vol : Volume} (hs : Same h.req q)
    (hcall : Host.call o op h = (rc, h.setVol vol)) (P : op.Res → Prop) [DecidablePred P]
    (yes no : List UInt8) :
    Does o (ask op >>= fun rc => if P rc then replyOnly q.conn yes else replyOnly q.conn no)
      (if P rc then Req.reply { q with vol } yes else Req.reply { q with vol } no) h := by
  refine under_call hcall ?_
  split_ifs
  · exact replyOnly_does (hs.setVol vol) yes
  · exact replyOnly_does (hs.setVol vol) no

/-- `MKD` calls `f_mkdir` with its path, and replies with what comes back. -/
theorem cmdMkd_does (hs : Same h.req q) (parameter : Option (List UInt8)) :
    Does o (cmdMkd q.conn (parameter.getD o.stray)) (Ftp.cmdMkd o q parameter) h := by
  obtain ⟨path, q₁, hreq, hprog, hs₁⟩ := hs.path o parameter
  have hcall : Host.call o (.fMkdir path) h =
      ((fMkdir q₁.vol path o.slot).1, h.setVol (fMkdir q₁.vol path o.slot).2) := by
    rw [Host.call, hs₁.vol]
  unfold cmdMkd Ftp.cmdMkd
  rw [hreq, hprog]
  exact callReply_does hs₁ hcall (fun rc => rc ≠ .ok) _ _

/-- `f_unlink` in both accounts. -/
theorem call_fUnlink (hs : Same h.req q) (path : Path) : Host.call o (.fUnlink path) h =
    ((fUnlink q.vol path o.removable).1, h.setVol (fUnlink q.vol path o.removable).2) := by
  rw [Host.call, hs.vol]

/-- `DELE` calls `f_unlink` with its path, and replies with what comes back. -/
theorem cmdDele_does (hs : Same h.req q) (parameter : Option (List UInt8)) :
    Does o (cmdDele q.conn (parameter.getD o.stray)) (Ftp.cmdDele o q parameter) h := by
  obtain ⟨path, q₁, hreq, hprog, hs₁⟩ := hs.path o parameter
  unfold cmdDele Ftp.cmdDele
  rw [hreq, hprog]
  exact callReply_does hs₁ (call_fUnlink hs₁ path) (fun rc => rc = .ok) _ _

/-- `RMD` does the same with other replies. -/
theorem cmdRmd_does (hs : Same h.req q) (parameter : Option (List UInt8)) :
    Does o (cmdRmd q.conn (parameter.getD o.stray)) (Ftp.cmdRmd o q parameter) h := by
  obtain ⟨path, q₁, hreq, hprog, hs₁⟩ := hs.path o parameter
  unfold cmdRmd Ftp.cmdRmd
  rw [hreq, hprog]
  exact callReply_does hs₁ (call_fUnlink hs₁ path) (fun rc => rc ≠ .ok) _ _

/-! ### Data connections -/

/-- The end of a `PORT` that succeeds: the port is stored, and the reply is sent. -/
theorem portDone_does (hs : Same h.req q) (port : UInt16) :
    Does o (portDone q.conn port)
      ({ q with conn := { q.conn with pasvActive := true, pasvPort := port } }.reply
        (textBytes "200 Port Command Successful.\r\n")) h :=
  replyOnly_does (hs.setConn { q.conn with pasvActive := true, pasvPort := port }) _

/-- `connect` in both accounts, with the next of its results. -/
theorem under_connect {β : Type} {Q : β → Host → Prop} {fd : Int} {addr : UInt32} {port : UInt16}
    {ok : Bool} {oks : List Bool} {f : Bool → Request β} (hconnects : h.connects = ok :: oks)
    (hs : Same h.req q)
    (hf : ∀ p, Same p (q.emit (.connect fd addr port ok)) →
      Under o (f ok) Q { h with req := p, connects := oks }) :
    Under o (ask (.connect fd addr port) >>= f) Q h := by
  have hcall : Host.call o (.connect fd addr port) h =
      (ok, { h.emit (.connect fd addr port ok) with connects := oks }) := by
    rw [Host.call, hconnects]
    rfl
  exact under_call hcall (hf _ (hs.emit rfl))

/-- `PORT` behind a successful `socket` makes up to two attempts at `connect`. The host holds the
results of both, and the second is left over where the first succeeds. -/
theorem portConnect_does (hs : Same h.req q) (hconnects : h.connects = [o.connect.1, o.connect.2])
    (fd : Int) (addr : UInt32) (port : UInt16) :
    Does o (portConnect q.conn fd addr port) (Ftp.portConnect o q fd addr port) h := by
  unfold portConnect Ftp.portConnect
  generalize o.connect = oks at hconnects ⊢
  obtain ⟨first, second⟩ := oks
  have hbind := hs.emit (e := .bind fd ftpDataPort) rfl
  refine under_ask (under_connect hconnects hbind fun p hp => ?_)
  cases first with
  | true => exact portDone_does hp port
  | false =>
    refine under_connect rfl hp fun p hp => ?_
    cases second with
    | true => exact portDone_does hp port
    | false =>
      refine under_reply hp rfl fun p hp => under_close hp fun p hp => under_ret ⟨?_, hp⟩
      exact (reply_conn _ cantOpen).symm

/-- The numbers of `CMD_PORT`. -/
theorem portRead_eq (o : Outcome) {p : Req} (hs : Same p q) (parameter : Option (List UInt8)) :
    ∃ q₁, portRead o q parameter =
        (fun i => (portcom { stray := o.stray }
          (strtok (textBytes ".,;()") (parameter.getD o.stray))).getD i 0, q₁) ∧
      q₁.conn = q.conn ∧ Same p q₁ := by
  obtain ⟨q₁, hparam, hconn, hs₁⟩ := hs.param o parameter
  unfold portRead
  rw [hparam]
  dsimp only
  split_ifs
  · exact ⟨_, rfl, hconn, (hs₁.own (e := .nullPtr) rfl).own (e := .spareBuf _) rfl⟩
  · exact ⟨_, rfl, hconn, hs₁.own (e := .spareBuf _) rfl⟩

/-- `socket` in both accounts. -/
theorem under_socket {β : Type} {Q : β → Host → Prop} {f : Option Nat → Request β}
    (hs : Same h.req q)
    (hf : ∀ r p, toFd r = (q.newFd o.socket).1 →
      Same p ((q.newFd o.socket).2.emit (.socket (q.newFd o.socket).1)) →
      Under o (f r) Q { h with req := p }) :
    Under o (ask .socket >>= f) Q h := by
  have hfd := hs.newFd_fst o.socket
  refine under_ask (hf _ _ ((toFd_free h o.socket).trans hfd) ?_)
  rw [hfd]
  exact (hs.newFd o.socket).emit rfl

/-- `accept` in both accounts. -/
theorem under_accept {β : Type} {Q : β → Host → Prop} {fd : Int} {f : Option Nat → Request β}
    (hs : Same h.req q)
    (hf : ∀ r p, toFd r = (q.newFd o.accept).1 →
      Same p ((q.newFd o.accept).2.emit (.accept fd (q.newFd o.accept).1)) →
      Under o (f r) Q { h with req := p }) :
    Under o (ask (.accept fd) >>= f) Q h := by
  have hfd := hs.newFd_fst o.accept
  refine under_ask (hf _ _ ((toFd_free h o.accept).trans hfd) ?_)
  rw [hfd]
  exact (hs.newFd o.accept).emit rfl

/-- `CMD_PORT` without a socket. -/
theorem portFail_does (hs : Same h.req q) (fd : Int) :
    Does o (do
        reply q.conn cantOpen
        ask (.close fd)
        return { q.conn with pasvActive := false })
      { (q.reply cantOpen).close fd with
        conn := { ((q.reply cantOpen).close fd).conn with pasvActive := false } } h := by
  refine under_reply hs rfl fun p hp => under_close hp fun p hp => under_ret ⟨?_, hp.setConn _⟩
  show _ = { (q.reply cantOpen).conn with pasvActive := false }
  rw [reply_conn]

/-- `PORT` as a whole: the tokens, the socket, and `connect` or a refusal. By the result of
`socket`. -/
theorem cmdPort_does (hs : Same h.req q) (hconnects : h.connects = [o.connect.1, o.connect.2])
    (parameter : Option (List UInt8)) :
    Does o (cmdPort o.stray q.conn (parameter.getD o.stray)) (Ftp.cmdPort o q parameter) h := by
  obtain ⟨q₁, hread, hconn, hs₁⟩ := portRead_eq o hs parameter
  unfold cmdPort Ftp.cmdPort
  rw [hread]
  dsimp only
  have hconn₂ := newFd_conn q₁ o.socket
  rcases hnew : q₁.newFd o.socket with ⟨fd, q₂⟩
  rw [hnew] at hconn₂
  dsimp only at hconn₂ ⊢
  refine under_socket hs₁ fun r p hr hp => ?_
  rw [hnew] at hr hp
  dsimp only at hr hp ⊢
  rw [hr, hconn₂, hconn]
  split_ifs
  · exact portFail_does (hp.setConn { q.conn with pasvSockfd := fd }) fd
  · exact portConnect_does (h := { h with req := p }) (hp.setConn { q.conn with pasvSockfd := fd })
      hconnects _ _ _

/-- The part does what leads to `r`, with `ret` of `CMD_PASV`. -/
abbrev DoesRet (o : Outcome) (p : Request (Nat × Conn)) (r : Nat × Req) (h : Host) : Prop :=
  Under o p (fun s h' => s = (r.1, r.2.conn) ∧ Same h'.req r.2) h

/-- An end of the `do`-block with the 425 reply. -/
theorem cantOpen_does (hs : Same h.req q) (ret : Nat) :
    DoesRet o (do
        reply q.conn cantOpen
        return (ret, q.conn))
      (ret, q.reply cantOpen) h :=
  under_reply hs rfl fun _ hp => under_ret ⟨congrArg (Prod.mk ret) (reply_conn q cantOpen).symm, hp⟩

/-- `accept` and what follows it. A client that is accepted is the data connection. Otherwise the
reply says that it could not be opened, and the result is an error. -/
theorem pasvTake_does (hs : Same h.req q) (ret : Nat) (fd : Int) :
    DoesRet o (do
        let n := toFd (← ask (.accept fd))
        let conn := { q.conn with pasvSockfd := n }
        if n < 0 then
          reply conn cantOpen
          return (5, conn)
        else
          ask (.close fd)
          return (ret, { conn with pasvActive := true }))
      (let (n, q) := q.newFd o.accept
        let q := { q with conn := { q.conn with pasvSockfd := n } }.emit (.accept fd n)
        if n < 0 then (5, q.reply cantOpen)
        else (ret, { q with conn := { q.conn with pasvActive := true } }.close fd)) h := by
  have hconn := newFd_conn q o.accept
  rcases hnew : q.newFd o.accept with ⟨n, q₂⟩
  rw [hnew] at hconn
  dsimp only at hconn ⊢
  refine under_accept hs fun r p hr hp => ?_
  rw [hnew] at hr hp
  dsimp only at hr hp ⊢
  rw [hr, hconn]
  have htaken := hp.setConn { q.conn with pasvSockfd := n }
  -- `accept` gives no socket, or its socket takes the place of the listening one
  split_ifs
  · exact cantOpen_does (h := { h with req := p }) htaken 5
  · exact under_close (htaken.setConn { q.conn with pasvSockfd := n, pasvActive := true })
      fun p hp => under_ret ⟨rfl, hp⟩

/-- `PASV` behind a successful `select` accepts the data connection, and closes the socket that
listened. -/
theorem pasvAccept_does (hs : Same h.req q) (ret : Nat) (fd : Int) :
    DoesRet o (pasvAccept o.ipaddr q.conn ret fd) (Ftp.pasvAccept o q ret fd) h := by
  unfold pasvAccept Ftp.pasvAccept
  refine under_reply hs rfl fun p hp => under_ask (under_ask ?_)
  have hnet : Same (p.emit (.select fd)) ((q.reply (passiveMode o)).emit (.select fd)) :=
    hp.emit rfl
  have hconn : ((q.reply (passiveMode o)).emit (.select fd)).conn = q.conn := reply_conn q _
  show Under o (ite (o.ready = true) _ _) _ _
  cases hready : o.ready with
  | false => exact under_ret ⟨congrArg (Prod.mk 6) hconn.symm, hnet⟩
  | true =>
    generalize (q.reply (passiveMode o)).emit (.select fd) = q₁ at hnet hconn ⊢
    rw [← hconn]
    exact pasvTake_does hnet ret fd

/-- `PASV` behind a successful `listen` sends the address and waits for the peer. -/
theorem pasvListen_does (hs : Same h.req q) (ret : Nat) (fd : Int) :
    DoesRet o (pasvListen o.ipaddr q.conn ret fd)
      (let q := q.emit (.listen fd)
        if !o.listen then (4, q.reply cantOpen) else Ftp.pasvAccept o q ret fd) h := by
  have hnet : Same (h.req.emit (.listen fd)) (q.emit (.listen fd)) := hs.emit rfl
  unfold pasvListen
  refine under_ask ?_
  show Under o (ite (o.listen = true) _ _) _ _
  cases hlisten : o.listen with
  | false => exact cantOpen_does (h := h.emit (.listen fd)) hnet 4
  | true => exact pasvAccept_does (h := h.emit (.listen fd)) hnet ret fd

/-- `bind` and what follows it. Its failure has a reply of its own, and `listen` is called in both
cases. -/
theorem pasvBind_does (hs : Same h.req q) (fd : Int) :
    DoesRet o (do
        if ← ask (.bind fd ftpPassvPort) then pasvListen o.ipaddr q.conn 0 fd
        else
          reply q.conn cantOpen
          pasvListen o.ipaddr q.conn 3 fd)
      (let q := q.emit (.bind fd ftpPassvPort)
        let q := if o.bind then q else q.reply cantOpen
        let q := q.emit (.listen fd)
        if !o.listen then (4, q.reply cantOpen)
        else Ftp.pasvAccept o q (if o.bind then 0 else 3) fd) h := by
  have hbind : Same (h.req.emit (.bind fd ftpPassvPort)) (q.emit (.bind fd ftpPassvPort)) :=
    hs.emit rfl
  refine under_ask ?_
  show Under o (ite (o.bind = true) _ _) _ _
  cases o.bind with
  | true => exact pasvListen_does (h := h.emit (.bind fd ftpPassvPort)) hbind 0 fd
  | false =>
    refine under_reply hbind rfl fun p hp => ?_
    have hlisten := pasvListen_does (o := o)
      (h := { h.emit (.bind fd ftpPassvPort) with req := p }) hp 3 fd
    rw [reply_conn] at hlisten
    exact hlisten

/-- `PASV` up to its result, on each branch that ends early and through `accept`. By the results of
`socket` and what follows it. -/
theorem pasvOpen_does (hs : Same h.req q) :
    DoesRet o (pasvOpen o.ipaddr q.conn) (Ftp.pasvOpen o q) h := by
  have hconn := newFd_conn q o.socket
  unfold pasvOpen Ftp.pasvOpen
  rcases hnew : q.newFd o.socket with ⟨fd, q₂⟩
  rw [hnew] at hconn
  dsimp only at hconn
  refine under_socket hs fun r p hr hp => ?_
  rw [hnew] at hr hp
  dsimp only at hr hp
  rw [hr, ← hconn]
  by_cases hfd : fd = -1
  · simp only [if_pos hfd]
    exact cantOpen_does (h := { h with req := p }) hp 1
  · simp only [if_neg hfd]
    exact pasvBind_does (h := { h with req := p }) hp fd

/-- `PASV` as a whole, with the reply for a result other than 0. An error closes the number in
`pasv_sockfd`, in both accounts. -/
theorem cmdPasv_does (hs : Same h.req q) :
    Does o (cmdPasv o.ipaddr q.conn) (Ftp.cmdPasv o q) h := by
  have hopen := pasvOpen_does (o := o)
    (hs.setConn { q.conn with pasvPort := ftpPassvPort, pasvActive := true })
  unfold cmdPasv Ftp.cmdPasv
  dsimp only at hopen ⊢
  generalize Ftp.pasvOpen o _ = r at hopen ⊢
  obtain ⟨ret, q₁⟩ := r
  refine always_seq hopen ?_
  rintro s h' ⟨rfl, hs'⟩
  show Under o (pasvEnd q₁.conn ret) _ h'
  unfold pasvEnd
  by_cases hret : ret ≠ 0
  · simp only [if_pos hret]
    exact under_close hs' fun p hp => under_ret ⟨rfl, hp.setConn _⟩
  · simp only [if_neg hret]
    exact under_ret ⟨rfl, hs'⟩

/-! ### Listings -/

/-- The loop over a directory, with enough turns for its entries. By induction on the entries. Each
turn reads one of them and sends its line on the data socket. -/
theorem listEntries_does (sock : Int) (line : Filinfo → List UInt8) (turns : Nat)
    (hs : Same h.req q) (hnames : ∀ fno ∈ h.readdir, fno.fname ≠ [])
    (hturns : h.readdir.length < turns) :
    Under o (listEntries sock line turns)
      (fun r h' => r = true ∧ Same h'.req (sendLines q sock (h.readdir.map line))) h := by
  induction turns generalizing h q with
  | zero => omega
  | succ turns ih =>
    cases hreaddir : h.readdir with
    | nil =>
      have hcall : Host.call o .fReaddir h = ((.ok, ⟨[], 0, 0, false⟩), h) := by
        rw [Host.call, hreaddir]
      exact under_call hcall (under_ret ⟨rfl, hs⟩)
    | cons fno rest =>
      have hcall : Host.call o .fReaddir h = ((.ok, fno), { h with readdir := rest }) := by
        rw [Host.call, hreaddir]
      rw [hreaddir] at hnames hturns
      rw [List.length_cons] at hturns
      have hname : ¬ (FResult.ok ≠ .ok ∨ fno.fname = []) := by
        simp [hnames fno (List.mem_cons_self ..)]
      -- an entry with a name is sent, and the loop turns
      refine under_call hcall ?_
      dsimp only
      rw [if_neg hname]
      have hrest : ∀ e ∈ rest, e.fname ≠ [] := fun e he => hnames e (List.mem_cons_of_mem _ he)
      have hturns' : rest.length < turns := by omega
      exact under_ask (ih (h := { h with
        req := doSendReply h.req sock (line fno), readdir := rest }) (hs.send sock _) hrest hturns')

/-- The part does what leads to `q'`, and it comes to its end. -/
abbrev DoesIf (o : Outcome) (p : Request (Option Conn)) (q' : Req) (h : Host) : Prop :=
  Under o p (fun r h' => r = some q'.conn ∧ Same h'.req q') h

/-- `CMD_LIST` and `CMD_NLST` around the listing. They share everything but the loop: the 150 reply
before it, the close of the data socket and the 226 reply behind it. -/
theorem listing_does {list : Req → Int → List Filinfo → Req} {listed : Conn} {p : Request Bool}
    (hs : Same h.req q)
    (hlist : ∀ h' q₁, Same h'.req q₁ → q₁.conn = q.conn → h'.readdir = h.readdir →
      (list q₁ q.conn.pasvSockfd o.readdir).conn = listed ∧
        Under o p (fun r h'' => r = true ∧
          Same h''.req (list q₁ q.conn.pasvSockfd o.readdir)) h')
    (hsock : listed.pasvSockfd = q.conn.pasvSockfd) :
    DoesIf o (listing q.conn listed p) (Ftp.listing o q list) h := by
  unfold listing Ftp.listing
  have hconn := reply_conn q (textBytes "150 Opening Binary mode connection for file list.\r\n")
  refine under_reply hs rfl fun r hr => ?_
  generalize q.reply (textBytes "150 Opening Binary mode connection for file list.\r\n") = q₁
    at hconn hr ⊢
  obtain ⟨hlisted, hp⟩ := hlist { h with req := r } q₁ hr hconn rfl
  dsimp only
  rw [hconn]
  -- the listing may have failed, and is closed and confirmed all the same
  generalize list q₁ q.conn.pasvSockfd o.readdir = q₂ at hlisted hp ⊢
  refine always_seq hp ?_
  rintro _ h' ⟨rfl, hs'⟩
  subst hlisted
  refine under_close hs' fun r hr => ?_
  have hreply := replyOnly_does (o := o) (h := { h' with req := r })
    (hr.setConn { q₂.conn with pasvActive := false }) (textBytes "226 Transfer complete.\r\n")
  exact does_then hreply fun h' hs' => under_ret ⟨rfl, hs'⟩

/-- `do_full_list` and `do_simple_list`. They differ in the text for an error and in what they print
of an entry. -/
theorem doList_does (sock : Int) (name : Path) (error : List UInt8)
    (line : Filinfo → List UInt8) (turns : Nat) (hs : Same h.req q)
    (hnames : ∀ fno ∈ h.readdir, fno.fname ≠ []) (hturns : h.readdir.length < turns) :
    Under o (doList sock name error line turns)
      (fun r h' => r = true ∧ Same h'.req
        (if (fOpendir q.vol name).1 ≠ .ok then
          doSendReply { q with vol := (fOpendir q.vol name).2.2 } sock error
        else sendLines { q with vol := (fOpendir q.vol name).2.2 } sock (h.readdir.map line)))
      h := by
  rcases hopen : fOpendir q.vol name with ⟨rc, dir, vol⟩
  have hcall : Host.call o (.fOpendir name) h = (rc, h.setVol vol) := by
    rw [Host.call, hs.vol, hopen]
  refine under_call hcall ?_
  dsimp only
  by_cases hrc : rc ≠ .ok
  · simp only [if_pos hrc]
    exact under_ask (under_ret ⟨rfl, (hs.setVol vol).send sock error⟩)
  · simp only [if_neg hrc]
    exact listEntries_does (h := h.setVol vol) sock line turns (hs.setVol vol) hnames hturns

/-- `LIST` strips the slash at the end of the current directory, in the connection itself. -/
theorem doFullList_conn (q : Req) (sock : Int) (readdir : List Filinfo) :
    (doFullList q sock readdir).conn =
      { q.conn with currentdir := trimSlash q.conn.currentdir } := by
  dsimp only [doFullList]
  split <;> simp

/-- `NLST` works on a copy and leaves the connection alone. -/
theorem doSimpleList_conn (q : Req) (sock : Int) (readdir : List Filinfo) :
    (doSimpleList q sock readdir).conn = q.conn := by
  dsimp only [doSimpleList]
  split <;> simp

/-- `LIST` reads the directory entry by entry. An entry without a name ends the listing, so the
entries have names, and one turn more than there are entries is enough. -/
theorem cmdList_does (turns : Nat) (hs : Same h.req q) (hreaddir : h.readdir = o.readdir)
    (hnames : ∀ fno ∈ o.readdir, fno.fname ≠ []) (hturns : o.readdir.length < turns) :
    DoesIf o (cmdList turns q.conn) (Ftp.cmdList o q) h := by
  refine listing_does hs ?_ rfl
  intro h' q₁ hs' hconn hsame
  have hdir : h'.readdir = o.readdir := hsame.trans hreaddir
  have hlist := doList_does (o := o) q.conn.pasvSockfd (trimSlash q₁.conn.currentdir)
    (textBytes "500 Internal Server Error\r\n") fullLine turns
    (hs'.setConn { q₁.conn with currentdir := trimSlash q₁.conn.currentdir })
    (hdir ▸ hnames) (hdir ▸ hturns)
  rw [hdir] at hlist
  rw [doFullList_conn, hconn]
  exact ⟨rfl, hconn ▸ hlist⟩

/-- `NLST` is the same loop with the names alone. -/
theorem cmdNlst_does (turns : Nat) (hs : Same h.req q) (hreaddir : h.readdir = o.readdir)
    (hnames : ∀ fno ∈ o.readdir, fno.fname ≠ []) (hturns : o.readdir.length < turns) :
    DoesIf o (cmdNlst turns q.conn) (Ftp.cmdNlst o q) h := by
  refine listing_does hs ?_ rfl
  intro h' q₁ hs' hconn hsame
  have hdir : h'.readdir = o.readdir := hsame.trans hreaddir
  have hlist := doList_does (o := o) q₁.conn.pasvSockfd q₁.conn.currentdir
    (textBytes "500 Internal Error\r\n") (fun fno => fno.fname ++ textBytes "\r\n") turns hs'
    (hdir ▸ hnames) (hdir ▸ hturns)
  rw [hdir] at hlist
  rw [doSimpleList_conn, ← hconn]
  exact ⟨rfl, hlist⟩

/-! ### Files -/

/-- An open for reading is answered with what `f_open` does on the volume of the command. -/
theorem call_fOpen_read (hs : Same h.req q) (f : FileVar) (path : Path) {rc : FResult} {file : Fil}
    {vol : Volume} (hopen : fOpen q.vol Fil.null path { faRead := true } false = (rc, file, vol)) :
    Host.call o (.fOpen f path { faRead := true }) h = (rc, (h.setFil f file).setVol vol) := by
  rw [Host.call, hs.vol, Bool.false_and, hopen]

/-- `f_close` in both accounts. -/
theorem under_fClose {β : Type} {Q : β → Host → Prop} {f : FileVar} {file : Fil}
    {k : FResult → Request β} (hs : Same h.req q) (hfile : h.fil f = file)
    (hk : ∀ rc h', Same h'.req { q with vol := (fClose q.vol file).2.2 } → Under o (k rc) Q h') :
    Under o (ask (.fClose f) >>= k) Q h := by
  refine under_ask (hk _ _ ?_)
  have hclose := hs.setVol (fClose q.vol file).2.2
  rw [← hs.vol, ← hfile] at hclose ⊢
  exact hclose

/-- `do_get_filesize` in both accounts. Open, size and close, or the open alone if it fails. -/
theorem doGetFilesize_does (hs : Same h.req q) (path : Path) :
    Under o (doGetFilesize path)
      (fun r h' => r = (Ftp.doGetFilesize q.vol path).1 ∧
        Same h'.req { q with vol := (Ftp.doGetFilesize q.vol path).2 }) h := by
  unfold doGetFilesize Ftp.doGetFilesize
  rcases hopen : fOpen q.vol Fil.null path { faRead := true } false with ⟨rc, file, vol⟩
  refine under_call (call_fOpen_read hs .sizeFile path hopen) ?_
  dsimp only
  by_cases hrc : rc = .ok
  · simp only [if_pos hrc]
    have hfile : ((h.setFil .sizeFile file).setVol vol).fil .sizeFile = file :=
      h.setFil_fil .sizeFile file
    refine under_ask (under_fClose (hs.setVol vol) hfile fun _ h' hs' => under_ret ⟨?_, hs'⟩)
    exact congrArg (fun file : Fil => toInt32 file.data.length) hfile
  · simp only [if_neg hrc]
    exact under_ret ⟨rfl, hs.setVol vol⟩

/-- `SIZE` opens the file, asks for its size and closes it, on the branches of `do_get_filesize`. -/
theorem cmdSize_does (hs : Same h.req q) (parameter : Option (List UInt8)) :
    Does o (cmdSize q.conn (parameter.getD o.stray)) (Ftp.cmdSize o q parameter) h := by
  obtain ⟨path, q₁, hreq, hprog, hs₁⟩ := hs.path o parameter
  unfold cmdSize Ftp.cmdSize
  rw [hreq, hprog]
  refine always_seq (doGetFilesize_does hs₁ path) ?_
  rintro r h' ⟨rfl, hs'⟩
  dsimp only
  split_ifs
  · exact replyOnly_does hs' _
  · exact replyOnly_does hs' _

/-- A read leaves the bytes of the file, and it moves the file pointer by what it reads. -/
theorem fRead_moves (v : Volume) (file : Fil) (btr : Nat) :
    (fRead v file btr).2.2.data = file.data ∧
      (fRead v file btr).2.2.fptr = file.fptr + (fRead v file btr).2.1.length ∧
      (fRead v file btr).2.1.length ≤ file.data.length - file.fptr := by
  unfold fRead
  split_ifs
  · refine ⟨rfl, rfl, ?_⟩
    rw [List.length_take, List.length_drop]
    exact Nat.min_le_right _ _
  · exact ⟨rfl, rfl, Nat.zero_le _⟩
  · exact ⟨rfl, rfl, Nat.zero_le _⟩

/-- The transfer loop. Both accounts have enough turns for the rest of the file. By induction on the
turns of the program. A turn that reads nothing ends both loops, and every other moves the file
pointer. -/
theorem retrLoop_does {file : Fil} (turns n : Nat) (hs : Same h.req q) (hfile : h.fil .file = file)
    (hturns : file.data.length - file.fptr < turns) (hn : file.data.length - file.fptr < n) :
    Under o (retrLoop q.conn n)
      (fun r h' => r = true ∧ Same h'.req (Ftp.retrLoop turns q file).1 ∧
        h'.fil .file = (Ftp.retrLoop turns q file).2) h := by
  induction turns generalizing n h q file with
  -- the turns are not used up before the end of the file
  | zero => omega
  | succ turns ih =>
    obtain ⟨n, rfl⟩ : ∃ m, n = m + 1 := ⟨n - 1, by omega⟩
    obtain ⟨hdata, hfptr, hlen⟩ := fRead_moves q.vol file ftpBufferSize
    dsimp only [Ftp.retrLoop]
    rcases hread : fRead q.vol file ftpBufferSize with ⟨rc, sbuf, file'⟩
    rw [hread] at hdata hfptr hlen
    dsimp only at hdata hfptr hlen ⊢
    have hcall : Host.call o (.fRead .file ftpBufferSize) h =
        ((rc, sbuf), h.setFil .file file') := by
      rw [Host.call, hs.vol, hfile, hread]
    refine under_call hcall ?_
    have hfile' : (h.setFil .file file').fil .file = file' := h.setFil_fil .file file'
    have hsize : file'.data.length = file.data.length := congrArg List.length hdata
    dsimp only
    -- a piece that is not empty brings the file pointer nearer to the end
    by_cases hpos : 0 < sbuf.length
    · simp only [if_pos hpos]
      refine under_ask ?_
      exact ih (q := q.emit (.send q.conn.pasvSockfd sbuf sbuf.length)) n (hs.emit rfl) hfile'
        (by omega) (by omega)
    · simp only [if_neg hpos]
      exact under_ret ⟨rfl, hs, hfile'⟩

/-- The loop of `RETR` leaves the connection alone. By induction on its turns. -/
theorem retrLoop_conn (turns : Nat) (q : Req) (file : Fil) :
    (Ftp.retrLoop turns q file).1.conn = q.conn := by
  induction turns generalizing q file with
  | zero => rfl
  | succ turns ih =>
    dsimp only [Ftp.retrLoop]
    split_ifs
    · exact ih (q.emit _) _
    · rfl

/-- The end of `CMD_RETR`. -/
theorem retrEnd_does {file : Fil} (hs : Same h.req q) (hfile : h.fil .file = file) :
    Does o (retrEnd q.conn)
      (let q := q.reply (textBytes "226 Finished.\r\n")
        let q := { q with vol := (fClose q.vol file).2.2 }
        q.close q.conn.pasvSockfd) h := by
  refine under_reply hs rfl fun p hp => ?_
  have hconn := reply_conn q (textBytes "226 Finished.\r\n")
  generalize q.reply (textBytes "226 Finished.\r\n") = q₁ at hp hconn ⊢
  rw [← hconn]
  refine under_fClose (h := { h with req := p }) hp hfile fun _ h' hs' => ?_
  exact under_close hs' fun p hp => under_ret ⟨rfl, hp⟩

/-- `RETR` behind the reply 150: more turns than the file has bytes take the loop to its end. By the
lemma on the loop, and on what follows it. -/
theorem retrSend_does {file : Fil} (n : Nat) (hs : Same h.req q) (hfile : h.fil .file = file)
    (hn : file.data.length < n) (path : List UInt8) (numBytes : Int) :
    DoesIf o (retrSend n q.conn path numBytes)
      (let q := q.reply (retrOpening q.conn.offset numBytes path)
        let (q, file) := Ftp.retrLoop (file.data.length + 1) q file
        let q := q.reply (textBytes "226 Finished.\r\n")
        let q := { q with vol := (fClose q.vol file).2.2 }
        q.close q.conn.pasvSockfd) h := by
  have hconn := reply_conn q (retrOpening q.conn.offset numBytes path)
  generalize hq₁ : q.reply (retrOpening q.conn.offset numBytes path) = q₁ at hconn ⊢
  have hconn₂ := retrLoop_conn (file.data.length + 1) q₁ file
  dsimp only
  rcases hrun : Ftp.retrLoop (file.data.length + 1) q₁ file with ⟨q₂, file₂⟩
  rw [hrun, hconn] at hconn₂
  refine under_reply hs rfl fun p hp => ?_
  rw [hq₁] at hp
  have hloop := retrLoop_does (o := o) (h := { h with req := p }) (file.data.length + 1) n hp hfile
    (by omega) (by omega)
  rw [hrun, hconn] at hloop
  refine always_seq hloop ?_
  rintro _ h' ⟨rfl, hs', hfile'⟩
  rw [← show q₂.conn = q.conn from hconn₂]
  exact does_then (retrEnd_does hs' hfile') fun h' hs' => under_ret ⟨rfl, hs'⟩

/-- The transfer of `RETR` with its close of the file and of the data socket. The seek is a call of
both accounts or of neither. -/
theorem retrTransfer_does {file : Fil} (n : Nat) (hs : Same h.req q)
    (hfile : h.fil .file = file) (hn : file.data.length < n) (path : List UInt8)
    (numBytes : Int) :
    DoesIf o (retrTransfer n q.conn path numBytes) (Ftp.retrTransfer q path numBytes file) h := by
  unfold retrTransfer Ftp.retrTransfer
  by_cases hseeks : seeks q.conn.offset numBytes
  · simp only [if_pos hseeks]
    rcases hseek : fLseek q.vol file q.conn.offset with ⟨rc, file'⟩
    have hcall : Host.call o (.fLseek .file q.conn.offset) h = (rc, h.setFil .file file') := by
      rw [Host.call, hs.vol, hfile, hseek]
    -- a seek moves the pointer only, so that the turns still suffice
    have hdata : file'.data = file.data := by
      have hframe : (fLseek q.vol file q.conn.offset).2.data = file.data := by
        unfold fLseek
        split_ifs <;> rfl
      rw [hseek] at hframe
      exact hframe
    refine under_call hcall ?_
    exact retrSend_does (h := h.setFil .file file') n hs (h.setFil_fil .file file')
      (hdata ▸ hn) path numBytes
  · simp only [if_neg hseeks]
    exact retrSend_does n hs hfile hn path numBytes

/-- `RETR` as a whole. How many turns are enough depends on the file that the path denotes, so the
bound is found first and holds for every larger number. -/
theorem cmdRetr_does (hs : Same h.req q) (parameter : Option (List UInt8)) (line : List UInt8) :
    ∃ n, ∀ turns, n ≤ turns →
      DoesIf o (cmdRetr turns q.conn (parameter.getD o.stray)) (Ftp.cmdRetr o q parameter line)
        h := by
  have hcopy : Same h.req (copyLine o q line) := by
    unfold copyLine
    split_ifs
    · exact (hs.own (e := .pastEnd) rfl).own (e := .spareBuf _) rfl
    · exact hs.own (e := .spareBuf _) rfl
  obtain ⟨path, q₁, hreq, hprog, hs₁⟩ := hcopy.path o parameter
  rw [copyLine_conn] at hprog
  have hsize := doGetFilesize_does (o := o) hs₁ path
  unfold cmdRetr Ftp.cmdRetr
  rw [hreq, hprog]
  dsimp only
  rcases hget : Ftp.doGetFilesize q₁.vol path with ⟨numBytes, vol⟩
  rw [hget] at hsize
  dsimp only at hsize ⊢
  rcases hopen : fOpen vol Fil.null path { faRead := true } false with ⟨rc, file, vol'⟩
  refine ⟨file.data.length + 1, fun turns hturns => always_seq hsize ?_⟩
  rintro r h' ⟨rfl, hs'⟩
  unfold retrOpen
  dsimp only
  by_cases hnone : r = -1
  · simp only [if_pos hnone]
    refine under_reply hs' rfl fun p hp => under_ret ⟨?_, hp.setConn _⟩
    rw [reply_conn]
  · simp only [if_neg hnone]
    refine under_call (call_fOpen_read hs' .file path hopen) ?_
    by_cases hrc : rc ≠ .ok
    · simp only [if_pos hrc]
      exact under_ret ⟨rfl, hs'.setVol vol'⟩
    · simp only [if_neg hrc]
      exact retrTransfer_does (h := (h'.setFil .file file).setVol vol') turns (hs'.setVol vol')
        (h'.setFil_fil .file file) hturns path r

/-- The loop of `STOR` leaves the connection alone. By induction on what it receives. -/
theorem storLoop_conn (q : Req) (file : Fil) (ds : List DataIn) :
    (Ftp.storLoop q file ds).2.conn = q.conn := by
  induction ds generalizing q file with
  | nil => rfl
  | cons d ds ih =>
    unfold Ftp.storLoop
    dsimp only
    split
    · simp
    · exact ih _ _
    · rfl

/-- A write is answered with what `f_write` does under the room of the last `recv`. -/
theorem call_fWrite {file : Fil} (hs : Same h.req q) (hfile : h.fil .file = file)
    (buff : List UInt8) :
    Host.call o (.fWrite .file buff) h =
      (((fWrite q.vol file buff h.room).1, (fWrite q.vol file buff h.room).2.1),
        h.setFil .file (fWrite q.vol file buff h.room).2.2) := by
  rw [Host.call, hs.vol, hfile]

/-- The receive loop, with enough turns for the data that comes. By induction on the data that
comes. The loop ends where `select` runs out of time, where the peer has closed, and where `recv`
fails. -/
theorem storLoop_does {file : Fil} {ds : List DataIn} (turns : Nat) (hs : Same h.req q)
    (hfile : h.fil .file = file) (hrecvs : h.recvs = ds) (hturns : ds.length < turns) :
    Under o (storLoop q.conn turns)
      (fun r h' => r = some (Ftp.storLoop q file ds).1 ∧
        Same h'.req (Ftp.storLoop q file ds).2) h := by
  induction ds generalizing h q file turns with
  -- no segment is left: the select ends the loop
  | nil =>
    obtain ⟨turns, rfl⟩ : ∃ n, turns = n + 1 := ⟨turns - 1, by simp at hturns; omega⟩
    have hcall : Host.call o (.select q.conn.pasvSockfd) h =
        (false, h.emit (.select q.conn.pasvSockfd)) := by
      rw [Host.call, hrecvs]
      rfl
    exact under_call hcall (under_ret ⟨rfl, hs.emit rfl⟩)
  | cons d ds ih =>
    rw [List.length_cons] at hturns
    obtain ⟨turns, rfl⟩ : ∃ n, turns = n + 1 := ⟨turns - 1, by omega⟩
    have hselect : Host.call o (.select q.conn.pasvSockfd) h =
        (true, h.emit (.select q.conn.pasvSockfd)) := by
      rw [Host.call, hrecvs]
      rfl
    have hrecv : Host.call o (.recv q.conn.pasvSockfd) (h.emit (.select q.conn.pasvSockfd)) =
        (d.recv, { (h.emit (.select q.conn.pasvSockfd)).emit (.recv q.conn.pasvSockfd) with
          recvs := ds, room := d.room }) := by
      have hrecvs' : (h.emit (.select q.conn.pasvSockfd)).recvs = d :: ds := hrecvs
      rw [Host.call, hrecvs']
    have hs' : Same ((h.req.emit (.select q.conn.pasvSockfd)).emit (.recv q.conn.pasvSockfd))
        ((q.emit (.select q.conn.pasvSockfd)).emit (.recv q.conn.pasvSockfd)) :=
      (hs.emit rfl).emit rfl
    generalize hafter : { (h.emit (.select q.conn.pasvSockfd)).emit (.recv q.conn.pasvSockfd) with
      recvs := ds, room := d.room } = h₂ at hrecv
    have hs₂ : Same h₂.req
        ((q.emit (.select q.conn.pasvSockfd)).emit (.recv q.conn.pasvSockfd)) := hafter ▸ hs'
    have hfile₂ : h₂.fil .file = file := hafter ▸ hfile
    unfold storLoop Ftp.storLoop
    refine under_call hselect ?_
    rw [if_pos rfl]
    refine under_call hrecv ?_
    dsimp only
    -- the peer has closed, has sent bytes, or the connection has failed
    match d.recv with
    | some [] =>
      refine under_fClose hs₂ hfile₂ fun _ h' hs' => ?_
      exact under_reply hs' rfl fun p hp => under_ret ⟨rfl, hp⟩
    | some (b :: bs) =>
      have hroom : h₂.room = d.room := congrArg Host.room hafter.symm
      have hrecvs₂ : h₂.recvs = ds := congrArg Host.recvs hafter.symm
      refine under_call (call_fWrite hs₂ hfile₂ (b :: bs)) ?_
      rw [hroom]
      exact ih turns (h := h₂.setFil .file _) hs₂ (h₂.setFil_fil .file _) hrecvs₂ (by omega)
    | none => exact under_fClose hs₂ hfile₂ fun _ h' hs' => under_ret ⟨rfl, hs'⟩

/-- The part does what leads to `r`, with `ret`, and it comes to its end. -/
abbrev DoesWith (o : Outcome) (p : Request (Option (Int × Conn))) (r : Int × Req) (h : Host) :
    Prop :=
  Under o p (fun s h' => s = some (r.1, r.2.conn) ∧ Same h'.req r.2) h

/-- The transfer of `STOR` behind its reply 150: one turn more than there are chunks takes the loop
to its end. -/
theorem storTransfer_does {file : Fil} (turns : Nat) (hs : Same h.req q)
    (hfile : h.fil .file = file) (hrecvs : h.recvs = o.recvs) (hturns : o.recvs.length < turns)
    (path : List UInt8) :
    DoesWith o (storTransfer turns q.conn path)
      (let q := q.reply
          (textBytes "150 Opening binary mode data connection for " ++ quoted path ++
            textBytes ".\r\n")
        let (ret, q) := Ftp.storLoop q file o.recvs
        (ret, q.close q.conn.pasvSockfd)) h := by
  refine under_reply hs rfl fun p hp => ?_
  have hconn := reply_conn q (textBytes "150 Opening binary mode data connection for " ++
    quoted path ++ textBytes ".\r\n")
  -- from here on the request after the reply is a variable
  generalize q.reply (textBytes "150 Opening binary mode data connection for " ++ quoted path ++
    textBytes ".\r\n") = q₁ at hp hconn ⊢
  have hloop := storLoop_does (o := o) (h := { h with req := p }) turns hp hfile hrecvs hturns
  have hconn' := storLoop_conn q₁ file o.recvs
  dsimp only
  rw [hconn] at hloop
  generalize Ftp.storLoop q₁ file o.recvs = r at hloop hconn' ⊢
  obtain ⟨ret, q₂⟩ := r
  refine always_seq hloop ?_
  rintro s h' ⟨rfl, hs'⟩
  -- the loop leaves the socket that is closed behind it
  have hsock : q.conn = q₂.conn := (hconn'.trans hconn).symm
  rw [hsock]
  exact under_close hs' fun p hp => under_ret ⟨rfl, hp⟩

/-- `STOR` as a whole, with the refusal where `f_open` fails. One turn more than there are chunks is
enough. -/
theorem cmdStor_does (turns : Nat) (hs : Same h.req q) (hrecvs : h.recvs = o.recvs)
    (hturns : o.recvs.length < turns) (parameter : Option (List UInt8)) :
    DoesWith o (cmdStor turns q.conn (parameter.getD o.stray)) (Ftp.cmdStor o q parameter) h := by
  obtain ⟨path, q₁, hreq, hprog, hs₁⟩ := hs.path o parameter
  unfold cmdStor Ftp.cmdStor
  rw [hreq, hprog]
  dsimp only
  rcases hopen : fOpen q₁.vol Fil.null path { faWrite := true, faOpenAlways := true } o.slot
    with ⟨rc, file, vol⟩
  have hcall : Host.call o (.fOpen .file path { faWrite := true, faOpenAlways := true }) h =
      (rc, (h.setFil .file file).setVol vol) := by
    rw [Host.call, hs₁.vol, Bool.true_and, hopen]
  refine under_call hcall ?_
  by_cases hrc : rc ≠ .ok
  · simp only [if_pos hrc]
    refine under_reply (hs₁.setVol vol) rfl fun p hp => under_ret ⟨?_, hp⟩
    rw [reply_conn]
  · simp only [if_neg hrc]
    exact storTransfer_does (h := (h.setFil .file file).setVol vol) turns (hs₁.setVol vol)
      (h.setFil_fil .file file) hrecvs hturns path

/-! ### Requests -/

/-- A command that always comes to its end returns 0 and its connection. -/
theorem done_does {p : Request Conn} {q' : Req} (hp : Does o p q' h) :
    DoesWith o (done p) (0, q') h :=
  does_then hp fun _ hs => under_ret ⟨rfl, hs⟩

/-- So does one with a loop, where the loop has come to its end. -/
theorem doneIf_does {p : Request (Option Conn)} {q' : Req} (hp : DoesIf o p q' h) :
    DoesWith o (doneIf p) (0, q') h := by
  refine always_seq hp ?_
  rintro r h' ⟨rfl, hs⟩
  exact under_ret ⟨rfl, hs⟩

/-- What a host needs to answer a request as its outcome says. -/
structure Ready (o : Outcome) (h : Host) : Prop where
  recvs : h.recvs = o.recvs
  readdir : h.readdir = o.readdir
  connects : h.connects = [o.connect.1, o.connect.2]
  /-- an entry without a name is the end of a directory -/
  names : ∀ fno ∈ o.readdir, fno.fname ≠ []

/-- The `switch`, one case for each command. The loops are in four commands, and for them the bound
on the turns is taken over; the others need no turn. -/
theorem execute_does (hs : Same h.req q) (hready : Ready o h) (line : List UInt8) :
    ∃ n, ∀ turns, n ≤ turns →
      DoesWith o (execute ⟨o.stray, o.ipaddr, turns⟩ q.conn line) (Ftp.execute o q line) h := by
  obtain ⟨hrecvs, hreaddir, hconnects, hnames⟩ := hready
  unfold execute Ftp.execute
  cases doParseCommand line
  -- the four commands with a loop need turns for the data that is left in it
  case retr =>
    obtain ⟨n, hn⟩ := cmdRetr_does hs (parameterPtr line) line
    exact ⟨n, fun turns hturns => doneIf_does (hn turns hturns)⟩
  case list =>
    exact ⟨o.readdir.length + 1, fun turns hturns =>
      doneIf_does (cmdList_does turns hs hreaddir hnames hturns)⟩
  case nlst =>
    exact ⟨o.readdir.length + 1, fun turns hturns =>
      doneIf_does (cmdNlst_does turns hs hreaddir hnames hturns)⟩
  case stor =>
    exact ⟨o.recvs.length + 1, fun turns hturns => cmdStor_does turns hs hrecvs hturns _⟩
  case quit =>
    refine ⟨0, fun _ _ => under_reply hs rfl fun p hp => under_ret ⟨?_, hp⟩⟩
    exact congrArg (fun conn => some ((-1 : Int), conn)) (reply_conn q _).symm
  -- the others do the same whatever the number of turns
  all_goals refine ⟨0, fun turns _ => ?_⟩
  case type => exact done_does (cmdType_does hs _)
  case size => exact done_does (cmdSize_does hs _)
  case cwd => exact done_does (cmdCwd_does hs _)
  case cdup => exact done_does (cmdCdup_does hs)
  case port => exact done_does (cmdPort_does hs hconnects _)
  case rest => exact done_does (cmdRest_does hs _)
  case mkd => exact done_does (cmdMkd_does hs _)
  case dele => exact done_does (cmdDele_does hs _)
  case rmd => exact done_does (cmdRmd_does hs _)
  case pasv => exact done_does (cmdPasv_does hs)
  all_goals exact done_does (replyOnly_does hs _)

end Commands

/-- The host of a request under an outcome. -/
def Host.start (o : Outcome) (q : Req) : Host where
  req := { q with out := q.out.filter onNetwork }
  fil := fun _ => Fil.null
  recvs := o.recvs
  readdir := o.readdir
  connects := [o.connect.1, o.connect.2]

/-- The program of a request does what the request does, with enough turns for its loops. The host
starts with the state that the request finds, so this is the statement on the command with nothing
open and nothing sent. -/
theorem ftpProcessRequest_does (o : Outcome) (q : Req) (buf : List UInt8)
    (hnames : ∀ fno ∈ o.readdir, fno.fname ≠ []) :
    ∃ n, ∀ turns, n ≤ turns →
      let r := (ftpProcessRequest ⟨o.stray, o.ipaddr, turns⟩ q.conn buf).runWith Host.call
        (fun _ => o) (.start o q)
      r.1 = some ((Ftp.ftpProcessRequest o q buf).1, (Ftp.ftpProcessRequest o q buf).2.conn) ∧
        Same r.2.req (Ftp.ftpProcessRequest o q buf).2 := by
  have hs : Same (Host.start o q).req q := ⟨rfl, rfl, rfl⟩
  have hs' := hs.own (e := .requested (requestLine buf)) rfl
  obtain ⟨n, hn⟩ := execute_does hs' ⟨rfl, rfl, rfl, hnames⟩ (requestLine buf)
  refine ⟨n, fun turns hturns => ?_⟩
  have hdoes : DoesWith o (ftpProcessRequest ⟨o.stray, o.ipaddr, turns⟩ q.conn buf)
      (Ftp.ftpProcessRequest o q buf) (.start o q) := by
    refine under_ask ?_
    -- without memory nothing is executed on either side
    show Under o (ite (o.malloc = true) _ _) _ (.start o q)
    unfold Ftp.ftpProcessRequest
    by_cases hmalloc : o.malloc = true
    · simp only [if_pos hmalloc]
      exact hn turns hturns
    · simp only [if_neg hmalloc]
      exact under_ret ⟨rfl, hs⟩
  exact always_runWith hdoes fun _ => rfl

end NucleoH743.Ftp.Program
