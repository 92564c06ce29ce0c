import NucleoH743.Proofs.Ftp.Service

/-!
# `Proofs.Ftp.DataSocket`: who owns which descriptor

The effects of the FTP thread tell who opened each descriptor, what for, and whether it has
been closed since. `Ledger` keeps this, and `Legal` says what a session may do with a
descriptor: send on its control socket, and use or close its data socket. Nothing of this is
in the code, which has the field `pasv_sockfd` and no more.

The ledger is kept during a request as well, because a command opens and closes within itself:
`PORT` has a socket that is not connected yet, and `PASV` one that listens. Such a descriptor is
pending, and `Owns` has the pending one beside the data socket. Each call is a lemma on `Owns`; a
command is settled when nothing is pending any more and `pasv_sockfd` names the data socket.

The condition leaves out the requests on which the code loses the count: `PORT` while the data
socket is open, or without a socket to be had; `PASV` with an open data socket, where it gets a
listening one; `PASV` that fails behind its listening socket, unless the number is the old one; a
transfer without an open data socket; and the end of a session that still has one.

- `Owns`: what the ledger holds during a request.
- `data_sockets_owned`: in every run under `SocketFits` all uses are legal, and the open
  descriptors are those that the sessions own.
-/

set_option autoImplicit false

namespace NucleoH743.Ftp

open EventRun
open CStr (textBytes)

/-! ### The ledger -/

/-- What a descriptor is for. -/
inductive Role where
  /-- the control socket of the session -/
  | control
  /-- opened by a `PASV` or `PORT` that has not succeeded: it listens, or is not connected -/
  | pending
  /-- opened by the last successful `PASV` or `PORT` -/
  | data
  /-- opened by an earlier one -/
  | superseded
  deriving DecidableEq, Repr

/-- The open descriptors, each with its session and its role. -/
abbrev Ledger := Int → Option (Nat × Role)

namespace Ledger

/-- `fd` is the data socket of a session from now on. -/
def promote (L : Ledger) (id : Nat) (fd : Int) : Ledger := fun x =>
  if x = fd then some (id, .data)
  else if L x = some (id, .data) then some (id, .superseded) else L x

/-- The ledger after an effect. -/
def step (L : Ledger) : Nat × Effect → Ledger
  | (id, .accepted fd) => Function.update L fd (some (id, .control))
  | (id, .socket fd) => if fd = -1 then L else Function.update L fd (some (id, .pending))
  | (id, .connect fd _ _ true) => L.promote id fd
  | (id, .accept _ fd) => if fd = -1 then L else L.promote id fd
  | (_, .close fd) | (_, .disconnected fd) => Function.update L fd none
  | _ => L

/-- A `socket` that succeeds opens a descriptor, which is pending in its session. -/
theorem step_socket {L : Ledger} {id : Nat} {fd : Int} (hfd : fd ≠ -1) :
    L.step (id, .socket fd) = Function.update L fd (some (id, .pending)) :=
  if_neg hfd

/-- An `accept` that succeeds makes the new descriptor the data socket of the session. -/
theorem step_accept {L : Ledger} {id : Nat} {s fd : Int} (hfd : fd ≠ -1) :
    L.step (id, .accept s fd) = L.promote id fd :=
  if_neg hfd

/-- A session uses its own sockets, and closes its own data or listening socket. -/
def Legal (L : Ledger) : Nat × Effect → Prop
  | (id, .send fd _ _) => L fd = some (id, .control) ∨ L fd = some (id, .data)
  | (id, .recv fd) => L fd = some (id, .data)
  | (id, .select fd) | (id, .close fd) => L fd = some (id, .data) ∨ L fd = some (id, .pending)
  | (id, .disconnected fd) => L fd = some (id, .control)
  | _ => True

instance (L : Ledger) : DecidablePred L.Legal := by
  intro e
  unfold Legal
  split <;> infer_instance

end Ledger

/-- The ledger of the thread. -/
def World.ledger (w : World) : Ledger := run Ledger.step (fun _ => none) w.trace

/-- All descriptors that the sessions used or closed were theirs. Each session owns its control
socket and at most one data socket, and nothing else is open but the listening socket. -/
structure DataSockets (w : World) : Prop where
  legal : Along Ledger.step Ledger.Legal (fun _ => none) w.trace
  control : ∀ c ∈ w.conns, w.ledger c.sockfd = some (c.id, .control)
  owned : ∀ fd id role, w.ledger fd = some (id, role) →
    ∃ c ∈ w.conns, c.id = id ∧ (role = .control ∧ fd = c.sockfd ∨ role = .data)
  single : ∀ fd fd' id, w.ledger fd = some (id, .data) → w.ledger fd' = some (id, .data) → fd = fd'
  opened : ∀ fd, w.sockets fd = true ↔ fd = w.sockfd ∨ w.ledger fd ≠ none

/-- The data socket of the connection is open. -/
def World.Live (w : World) (conn : Conn) : Prop :=
  w.ledger conn.pasvSockfd = some (conn.id, .data)

instance (w : World) (conn : Conn) : Decidable (w.Live conn) :=
  inferInstanceAs (Decidable (_ = _))

/-- `PASV` without an open data socket gets its sockets, or closes the new listening socket
because it has the number of the old data socket. -/
def PasvFits (o : Outcome) (q : Req) : Prop :=
  (q.newFd o.socket).1 ≠ -1 ∧
    if o.listen ∧ o.ready then ((q.newFd o.socket).2.newFd o.accept).1 ≠ -1
    else q.conn.pasvSockfd = (q.newFd o.socket).1

instance (o : Outcome) (q : Req) : Decidable (PasvFits o q) := by
  unfold PasvFits
  infer_instance

/-- The requests that fit to the data socket: a transfer finds it open, and a `PORT`, a `PASV`
that opens a socket, and the end of the session find it closed. -/
def RequestFits (o : Outcome) (q : Req) (live : Prop) (line : List UInt8) : Prop :=
  match doParseCommand line with
  | .list | .nlst => live
  | .retr => CanSend q.vol (paramPath o q.conn.currentdir (parameterPtr line)) → live
  | .stor => CanStore q.vol (paramPath o q.conn.currentdir (parameterPtr line)) o.slot → live
  | .port => ¬ live ∧ (q.newFd o.socket).1 ≠ -1
  | .pasv => live ∧ (q.newFd o.socket).1 = -1 ∨ ¬ live ∧ PasvFits o q
  | .quit => ¬ live
  | _ => True

instance (o : Outcome) (q : Req) (live : Prop) [Decidable live] (line : List UInt8) :
    Decidable (RequestFits o q live line) := by
  delta RequestFits
  exact match doParseCommand line with
  | .list | .nlst => inferInstanceAs (Decidable live)
  | .retr | .stor => inferInstanceAs (Decidable (_ → live))
  | .port => inferInstanceAs (Decidable (_ ∧ _))
  | .pasv => inferInstanceAs (Decidable (_ ∨ _))
  | .quit => inferInstanceAs (Decidable (¬ live))
  | .user | .pass | .pwd | .type | .size | .mdtm | .syst | .cwd | .cdup | .rest | .mkd | .dele
  | .rmd | .feat | .unknown => isTrue trivial

/-- The steps that keep the data sockets in order. -/
def SocketFits (w : World) : Event → Prop
  | .select => True
  | .accept _ _ mem => mem.isSome = true
  | .serve id recv o =>
    match w.conn? id, recv with
    | none, _ => True
    | some conn, none | some conn, some [] => ¬ w.Live conn
    | some conn, some (b :: bs) =>
      if o.malloc then
        RequestFits o (w.req conn (request (b :: bs))) (w.Live conn) (request (b :: bs))
      else ¬ w.Live conn

instance (w : World) (e : Event) : Decidable (SocketFits w e) := by
  unfold SocketFits
  split
  · infer_instance
  · infer_instance
  · split <;> infer_instance

/-! ### The ledger during a request -/

/-- The ledger of a request: the entries `B` that it does not touch, its data socket and the
socket that is still pending. -/
def shape (B : Ledger) (id : Nat) (d p : Option Int) : Ledger := fun fd =>
  if p = some fd then some (id, .pending) else if d = some fd then some (id, .data) else B fd

/-- The request at `q`, which began with the ledger `L₀`, owns the data socket `d` and the
pending socket `p` besides the entries of `B`. The thread listens on `l`. -/
structure Owns (l : Int) (L₀ B : Ledger) (d p : Option Int) (q : Req) : Prop where
  legal : Along Ledger.step Ledger.Legal L₀ (q.out.map (Prod.mk q.conn.id))
  ledger : run Ledger.step L₀ (q.out.map (Prod.mk q.conn.id)) = shape B q.conn.id d p
  control : B q.conn.sockfd = some (q.conn.id, .control)
  noData : ∀ fd, B fd ≠ some (q.conn.id, .data)
  free : ∀ fd, d = some fd ∨ p = some fd → B fd = none
  distinct : ∀ fd, d = some fd → p ≠ some fd
  opened : ∀ fd, q.sockets fd = true ↔ fd = l ∨ shape B q.conn.id d p fd ≠ none
  listening : shape B q.conn.id d p l = none

namespace Owns

variable {l : Int} {L₀ B : Ledger} {d p d' p' : Option Int} {q q' : Req} {fd : Int}

/-- The entries that the request does not touch. -/
theorem shape_base (h : Owns l L₀ B d p q) {r : Nat × Role} (hr : B fd = some r) :
    shape B q.conn.id d p fd = some r := by
  have hne : ¬ (d = some fd ∨ p = some fd) := by
    intro hfd
    rw [h.free fd hfd] at hr
    cases hr
  obtain ⟨hd, hp⟩ := not_or.1 hne
  unfold shape
  rw [if_neg hp, if_neg hd]
  exact hr

/-- The data socket is in the ledger of the request as such. It is another descriptor than the
pending one, which was free when it was opened. -/
theorem shape_data (h : Owns l L₀ B (some fd) p q) :
    shape B q.conn.id (some fd) p fd = some (q.conn.id, .data) := by
  unfold shape
  rw [if_neg (h.distinct fd rfl), if_pos rfl]

/-- So is the pending descriptor, which stands before the data socket where both are one number. -/
theorem shape_pending (id : Nat) : shape B id d (some fd) fd = some (id, .pending) := if_pos rfl

/-- Only the parts of `q` that the invariant speaks about matter. -/
theorem congr (h : Owns l L₀ B d p q) (hid : q'.conn.id = q.conn.id)
    (hfd : q'.conn.sockfd = q.conn.sockfd) (hout : q'.out = q.out)
    (hsockets : q'.sockets = q.sockets) : Owns l L₀ B d p q' := by
  constructor
  case legal => rw [hid, hout]; exact h.legal
  case ledger => rw [hid, hout]; exact h.ledger
  case control => rw [hid, hfd]; exact h.control
  case noData => rw [hid]; exact h.noData
  case free => exact h.free
  case distinct => exact h.distinct
  case opened => rw [hid, hsockets]; exact h.opened
  case listening => rw [hid]; exact h.listening

/-- A part of the request that only talks. -/
theorem talks {data : Bool} (h : Owns l L₀ B d p q) (hq : Talks data q q')
    (hdata : data = true → d = some q.conn.pasvSockfd) : Owns l L₀ B d p q' := by
  obtain ⟨es, hes, hok⟩ := hq.out
  have hcontrol := h.shape_base h.control
  -- what it emits is legal and leaves the ledger as it is
  have hfixed : ∀ e ∈ es.map (Prod.mk q.conn.id),
      Ledger.Legal (shape B q.conn.id d p) e ∧
        Ledger.step (shape B q.conn.id d p) e = shape B q.conn.id d p := by
    intro _ hmem
    obtain ⟨e, he, rfl⟩ := List.mem_map.1 hmem
    rcases hok e he with hplain | ⟨htrue, huse⟩
    · cases e <;> simp only [Plain] at hplain <;>
        first | exact ⟨trivial, rfl⟩ | exact ⟨Or.inl (hplain ▸ hcontrol), rfl⟩
    · obtain rfl := hdata htrue
      have hsock := h.shape_data
      cases e <;> simp only [Uses] at huse <;> subst huse
      · exact ⟨Or.inl hsock, rfl⟩
      · exact ⟨hsock, rfl⟩
      · exact ⟨Or.inr hsock, rfl⟩
  obtain ⟨hlegal, hrun⟩ := along_fixed hfixed
  constructor
  case legal =>
    rw [hq.id, hes, List.map_append, along_append, h.ledger]
    exact ⟨h.legal, hlegal⟩
  case ledger =>
    rw [hq.id, hes, List.map_append, run_append, h.ledger]
    exact hrun
  case control => rw [hq.id, hq.sockfd]; exact h.control
  case noData => rw [hq.id]; exact h.noData
  case free => exact h.free
  case distinct => exact h.distinct
  case opened => rw [hq.id, hq.sockets]; exact h.opened
  case listening => rw [hq.id]; exact h.listening

/-- An effect that moves the ledger from `d` and `p` to `d'` and `p'`. Every other lemma on a call
goes through this one: it asks that the effect is legal for what the request owns, and that the
ledger moves as stated. -/
theorem emit {e : Effect} (h : Owns l L₀ B d p q) (hid : q'.conn.id = q.conn.id)
    (hfd : q'.conn.sockfd = q.conn.sockfd) (hout : q'.out = q.out ++ [e])
    (hlegal : Ledger.Legal (shape B q.conn.id d p) (q.conn.id, e))
    (hstep : Ledger.step (shape B q.conn.id d p) (q.conn.id, e) = shape B q.conn.id d' p')
    (hfree : ∀ fd, d' = some fd ∨ p' = some fd → B fd = none)
    (hdistinct : ∀ fd, d' = some fd → p' ≠ some fd)
    (hopened : ∀ fd, q'.sockets fd = true ↔ fd = l ∨ shape B q.conn.id d' p' fd ≠ none)
    (hlistening : shape B q.conn.id d' p' l = none) : Owns l L₀ B d' p' q' := by
  constructor
  case legal =>
    rw [hid, hout, List.map_append, along_append, h.ledger]
    exact ⟨h.legal, hlegal, trivial⟩
  case ledger =>
    rw [hid, hout, List.map_append, run_append, h.ledger]
    exact hstep
  case control => rw [hid, hfd]; exact h.control
  case noData => rw [hid]; exact h.noData
  case free => exact hfree
  case distinct => exact hdistinct
  case opened => rw [hid]; exact hopened
  case listening => rw [hid]; exact hlistening

/-- The descriptors that `close` leaves open. -/
theorem opened_close (h : Owns l L₀ B d p q) (hfd : fd ≠ l) (x : Int) :
    (q.close fd).sockets x = true ↔
      x = l ∨ Function.update (shape B q.conn.id d p) fd none x ≠ none := by
  show Function.update q.sockets fd false x = true ↔ _
  by_cases hx : x = fd
  · subst hx
    simp [hfd]
  · rw [Function.update_of_ne hx, Function.update_of_ne hx]
    exact h.opened x

/-- No descriptor of the session is the one that the thread listens on. -/
theorem ne_listening {r : Nat × Role} (h : Owns l L₀ B d p q)
    (hfd : shape B q.conn.id d p fd = some r) : fd ≠ l := by
  rintro rfl
  rw [h.listening] at hfd
  cases hfd

/-- The session closes its data socket. Its descriptor leaves the ledger, and it is free for the
next `socket` or `accept` of any session. -/
theorem close_data (h : Owns l L₀ B (some fd) p q) : Owns l L₀ B none p (q.close fd) := by
  have hclose : Function.update (shape B q.conn.id (some fd) p) fd none =
      shape B q.conn.id none p := by
    funext x
    by_cases hx : x = fd
    · subst hx
      have hnone : B x = none := h.free x (Or.inl rfl)
      simp [shape, h.distinct x rfl, hnone]
    · simp [shape, hx, Ne.symm hx]
  have hopened := h.opened_close (h.ne_listening h.shape_data)
  rw [hclose] at hopened
  have hlistening : shape B q.conn.id none p l = none := by
    rw [← hclose, Function.update_of_ne (Ne.symm (h.ne_listening h.shape_data))]
    exact h.listening
  exact h.emit rfl rfl rfl (Or.inl h.shape_data) hclose
    (fun x hx => h.free x (Or.inr (hx.resolve_left (by simp)))) (by simp) hopened hlistening

/-- The session closes its pending socket. The data socket is another descriptor and stays. -/
theorem close_pending (h : Owns l L₀ B d (some fd) q) : Owns l L₀ B d none (q.close fd) := by
  have hclose : Function.update (shape B q.conn.id d (some fd)) fd none =
      shape B q.conn.id d none := by
    funext x
    by_cases hx : x = fd
    · subst hx
      have hnone : B x = none := h.free x (Or.inr rfl)
      have hd : d ≠ some x := fun hd => h.distinct x hd rfl
      simp [shape, hd, hnone]
    · simp [shape, hx, Ne.symm hx]
  have hne := h.ne_listening (shape_pending q.conn.id)
  have hopened := h.opened_close hne
  rw [hclose] at hopened
  have hlistening : shape B q.conn.id d none l = none := by
    rw [← hclose, Function.update_of_ne hne.symm]
    exact h.listening
  exact h.emit rfl rfl rfl (Or.inr (shape_pending _)) hclose
    (fun x hx => h.free x (Or.inl (hx.resolve_right (by simp)))) (by simp) hopened hlistening

/-- What is known of a descriptor that was not in use. -/
theorem unused (h : Owns l L₀ B d p q) (hfree : q.sockets fd = false) :
    fd ≠ l ∧ p ≠ some fd ∧ d ≠ some fd ∧ B fd = none := by
  have hnot : ¬ (fd = l ∨ shape B q.conn.id d p fd ≠ none) := by
    rw [← h.opened fd, hfree]
    simp
  obtain ⟨hl, hnone⟩ := not_or.1 hnot
  have hnone := not_not.1 hnone
  unfold shape at hnone
  split_ifs at hnone with hp hd
  exact ⟨hl, hp, hd, hnone⟩

/-- `socket` returns a new descriptor. -/
theorem open_socket (h : Owns l L₀ B d none q) {fd : Nat} (hfree : q.sockets fd = false)
    (conn : Conn) (hid : conn.id = q.conn.id) (hfd : conn.sockfd = q.conn.sockfd) :
    Owns l L₀ B d (some (fd : Int)) (Req.emit
      { q with sockets := Function.update q.sockets fd true, conn } (.socket fd)) := by
  obtain ⟨hl, -, hd, hB⟩ := h.unused hfree
  -- the descriptor was free, and is the one pending now
  have hopen : Function.update (shape B q.conn.id d none) fd (some (q.conn.id, .pending)) =
      shape B q.conn.id d (some (fd : Int)) := by
    funext x
    by_cases hx : x = fd
    · subst hx
      simp [shape]
    · simp [shape, hx, Ne.symm hx]
  refine h.emit hid hfd rfl trivial ?_ ?_ ?_ ?_ ?_
  · rw [Ledger.step_socket (by omega)]
    exact hopen
  · rintro x (hx | hx)
    · exact h.free x (Or.inl hx)
    · cases hx
      exact hB
  · rintro x hx heq
    cases heq
    exact hd hx
  · intro x
    show Function.update q.sockets (fd : Int) true x = true ↔ _
    rw [← hopen]
    by_cases hx : x = fd
    · subst hx
      simp
    · rw [Function.update_of_ne hx, Function.update_of_ne hx]
      exact h.opened x
  · rw [← hopen, Function.update_of_ne (Ne.symm hl)]
    exact h.listening

/-- A descriptor becomes the data socket of a session that has none. -/
theorem promote_shape (h : Owns l L₀ B none p q) {p' : Option Int}
    (hp : ∀ x, x ≠ fd → (p' = some x ↔ p = some x)) (hfd : p' ≠ some fd) :
    Ledger.promote (shape B q.conn.id none p) q.conn.id fd =
      shape B q.conn.id (some fd) p' := by
  funext x
  have hnone : shape B q.conn.id none p x ≠ some (q.conn.id, .data) := by
    by_cases hx : p = some x <;> simp [shape, hx, h.noData x]
  by_cases hx : x = fd
  · subst hx
    simp [Ledger.promote, shape, hfd]
  · simp only [Ledger.promote, if_neg hx, if_neg hnone]
    simp [shape, hp x hx, Ne.symm hx]

/-- `connect` succeeds on the pending socket. It becomes the data socket of the session. -/
theorem connect (h : Owns l L₀ B none (some fd) q) (addr : UInt32) (port : UInt16) :
    Owns l L₀ B (some fd) none (q.emit (.connect fd addr port true)) := by
  have hmoved : ∀ x, (shape B q.conn.id (some fd) none x ≠ none ↔
      shape B q.conn.id none (some fd) x ≠ none) := by
    intro x
    by_cases hx : fd = x <;> simp [shape, hx]
  refine h.emit rfl rfl rfl trivial (h.promote_shape (by simp +contextual [eq_comm]) (by simp))
    ?_ (by simp) ?_ ?_
  · rintro x (hx | hx)
    · exact h.free x (Or.inr hx)
    · cases hx
  · intro x
    rw [hmoved]
    exact h.opened x
  · exact not_not.1 fun hne => (hmoved l).1 hne h.listening

/-- `accept` returns the data socket. -/
theorem accept {s : Int} (h : Owns l L₀ B none (some s) q) {fd : Nat}
    (hfree : q.sockets fd = false) (conn : Conn) (hid : conn.id = q.conn.id)
    (hfd : conn.sockfd = q.conn.sockfd) :
    Owns l L₀ B (some (fd : Int)) (some s) (Req.emit
      { q with sockets := Function.update q.sockets fd true, conn } (.accept s fd)) := by
  obtain ⟨hl, hp, -, hB⟩ := h.unused hfree
  have hne : s ≠ fd := fun heq => hp (congrArg some heq)
  have hopen : shape B q.conn.id (some (fd : Int)) (some s) =
      Function.update (shape B q.conn.id none (some s)) fd (some (q.conn.id, .data)) := by
    funext x
    by_cases hx : x = fd
    · subst hx
      simp [shape, hne]
    · simp [shape, hx, Ne.symm hx]
  refine h.emit hid hfd rfl trivial ?_ ?_ ?_ ?_ ?_
  · rw [Ledger.step_accept (by omega)]
    exact h.promote_shape (fun _ _ => Iff.rfl) hp
  · rintro x (hx | hx)
    · cases hx
      exact hB
    · exact h.free x (Or.inr hx)
  · rintro x hx
    cases hx
    exact hp
  · intro x
    show Function.update q.sockets (fd : Int) true x = true ↔ _
    rw [hopen]
    by_cases hx : x = fd
    · subst hx
      simp
    · rw [Function.update_of_ne hx, Function.update_of_ne hx]
      exact h.opened x
  · rw [hopen, Function.update_of_ne (Ne.symm hl)]
    exact h.listening

/-- An effect that leaves the ledger as it is. -/
theorem idle {e : Effect} (h : Owns l L₀ B d p q)
    (hlegal : Ledger.Legal (shape B q.conn.id d p) (q.conn.id, e))
    (hstep : Ledger.step (shape B q.conn.id d p) (q.conn.id, e) = shape B q.conn.id d p) :
    Owns l L₀ B d p (q.emit e) :=
  h.emit rfl rfl rfl hlegal hstep h.free h.distinct h.opened h.listening

/-- A reply opens and closes nothing. It is sent on the control socket, which the session owns. -/
theorem reply {text : List UInt8} (h : Owns l L₀ B d p q) : Owns l L₀ B d p (q.reply text) :=
  h.talks (Talks.refl false q).reply (by simp)

end Owns

/-! ### Commands -/

section Commands
variable {l : Int} {L₀ B : Ledger} (o : Outcome) {q : Req}

/-- After a command nothing is pending, and the data socket is in `pasv_sockfd`. -/
def Settled (l : Int) (L₀ B : Ledger) (q : Req) : Prop :=
  ∃ d, Owns l L₀ B d none q ∧ ∀ fd, d = some fd → fd = q.conn.pasvSockfd

/-- A request without a data socket and with nothing pending is settled. -/
theorem settled_none (h : Owns l L₀ B none none q) : Settled l L₀ B q :=
  ⟨none, h, by simp⟩

/-- So is one whose data socket is the one in `pasv_sockfd`. -/
theorem settled_data (h : Owns l L₀ B (some q.conn.pasvSockfd) none q) : Settled l L₀ B q :=
  ⟨_, h, fun _ hfd => (Option.some.inj hfd).symm⟩

/-- A command that only talks on the control socket. -/
theorem settled_talks {q' : Req} (h : Settled l L₀ B q) (hq : Talks false q q') :
    Settled l L₀ B q' := by
  obtain ⟨d, hd, hpasv⟩ := h
  refine ⟨d, hd.talks hq (by simp), ?_⟩
  intro fd hfd
  rw [hq.pasvSockfd]
  exact hpasv fd hfd

/-- A transfer ends with the close of the data socket. -/
theorem owns_transfer {q' : Req} (h : Owns l L₀ B (some q.conn.pasvSockfd) none q)
    (hq : Talks true q q') : Owns l L₀ B none none (q'.close q'.conn.pasvSockfd) := by
  have hq' := h.talks hq fun _ => rfl
  rw [← hq.pasvSockfd] at hq'
  exact hq'.close_data

/-- `PORT` with its descriptor in `pasv_sockfd` settles: it is the data socket if one of the two
attempts succeeds, and it is closed if neither does. -/
theorem settled_portConnect {fd : Int} (h : Owns l L₀ B none (some fd) q)
    (hpasv : q.conn.pasvSockfd = fd) (addr : UInt32) (port : UInt16) :
    Settled l L₀ B (portConnect o q fd addr port) := by
  have hbind : Owns l L₀ B none (some fd) (q.emit (.bind fd ftpDataPort)) := h.idle trivial rfl
  -- a connected socket becomes the data socket
  have hdone : ∀ q' : Req, Owns l L₀ B (some fd) none q' → q'.conn.pasvSockfd = fd →
      Settled l L₀ B (Req.reply
        { q' with conn := { q'.conn with pasvActive := true, pasvPort := port } }
        (textBytes "200 Port Command Successful.\r\n")) := by
    intro q' hq' hfd
    have hconn : Owns l L₀ B (some fd) none
        { q' with conn := { q'.conn with pasvActive := true, pasvPort := port } } :=
      hq'.congr rfl rfl rfl rfl
    refine settled_talks (settled_data ?_) (Talks.refl _ _).reply
    exact hfd.symm ▸ hconn
  dsimp only [portConnect]
  generalize o.connect.1 = c₁
  cases c₁ with
  | true => exact hdone _ (hbind.connect addr port) hpasv
  | false =>
    have hfirst : Owns l L₀ B none (some fd)
        ((q.emit (.bind fd ftpDataPort)).emit (.connect fd addr port false)) :=
      hbind.idle trivial rfl
    generalize o.connect.2 = c₂
    cases c₂ with
    | true => exact hdone _ (hfirst.connect q.conn.remote port) hpasv
    | false =>
      have hsecond := hfirst.idle (e := .connect fd q.conn.remote port false) trivial rfl
      exact settled_none hsecond.reply.close_pending

/-- `PORT` of a session without a data socket. -/
theorem settled_cmdPort (p : Option (List UInt8)) (h : Owns l L₀ B none none q)
    (hfd : (q.newFd o.socket).1 ≠ -1) : Settled l L₀ B (cmdPort o q p) := by
  have hread := talks_portRead o q p false
  have hq := h.talks hread (by simp)
  dsimp only [cmdPort]
  rcases newFd_cases (portRead o q p).2 o.socket with heq | ⟨fd, hfree, heq⟩
  · rw [newFd_fst_congr hread.sockets.symm, heq] at hfd
    exact absurd rfl hfd
  · rw [heq, if_neg (show (fd : Int) ≠ -1 by omega)]
    have hopen := hq.open_socket hfree { (portRead o q p).2.conn with pasvSockfd := fd } rfl rfl
    exact settled_portConnect o hopen rfl _ _

/-- The end of a `PASV` that got its listening socket `s`. If the client connects, the session
has a new data socket, else `s` is still open. -/
def PasvEnd (l : Int) (L₀ B : Ledger) (s : Int) (connects : Bool) (pasvSockfd : Int)
    (r : Nat × Req) : Prop :=
  if connects then Owns l L₀ B (some r.2.conn.pasvSockfd) none r.2
  else Owns l L₀ B none (some s) r.2 ∧ r.1 ≠ 0 ∧ r.2.conn.pasvSockfd = pasvSockfd

/-- The end of `PASV`, with the listening socket `s` pending. A client that connects is accepted,
and the listening socket is closed. Without one the socket stays open, and `pasv_sockfd` keeps the
number that it had. -/
theorem owns_pasvAccept (ret : Nat) {s : Int} (h : Owns l L₀ B none (some s) q)
    (hfd : o.ready = true → (q.newFd o.accept).1 ≠ -1) :
    PasvEnd l L₀ B s o.ready q.conn.pasvSockfd (pasvAccept o q ret s) := by
  have hreply : Talks false q (q.reply (passiveMode o)) := (Talks.refl _ q).reply
  have hselect : Owns l L₀ B none (some s) ((q.reply (passiveMode o)).emit (.select s)) :=
    h.reply.idle (Or.inr (Owns.shape_pending _)) rfl
  have hpasv : ((q.reply (passiveMode o)).emit (.select s)).conn.pasvSockfd =
      q.conn.pasvSockfd := by
    rw [emit_conn, reply_conn]
  have hsockets : q.sockets = ((q.reply (passiveMode o)).emit (.select s)).sockets := by
    rw [emit_sockets, hreply.sockets]
  dsimp only [pasvAccept]
  generalize (q.reply (passiveMode o)).emit (.select s) = q₁ at hselect hpasv hsockets ⊢
  -- nobody connects in time, or the accepted socket is the new data socket
  cases hr : o.ready with
  | false => exact ⟨hselect, by simp, hpasv⟩
  | true =>
    rcases newFd_cases q₁ o.accept with heq | ⟨fd, hfree, heq⟩
    · have hsame := newFd_fst_congr hsockets o.accept
      rw [heq] at hsame
      exact absurd hsame (hfd hr)
    · rw [heq, Bool.not_true, if_neg (by simp), if_neg (show ¬ (fd : Int) < 0 by omega)]
      have haccept := hselect.accept hfree { q₁.conn with pasvSockfd := fd } rfl rfl
      exact Owns.close_pending (haccept.congr rfl rfl rfl rfl)

/-- `PASV` that gets its listening socket comes to the same end, also from a `listen` that fails. By
the branch on which it ends. A `bind` that fails is passed over, so it goes on with the socket. -/
theorem owns_pasvOpen {fd : Nat} (h : Owns l L₀ B none none q) (hfree : q.sockets fd = false)
    (heq : q.newFd o.socket = ((fd : Int), { q with sockets := Function.update q.sockets fd true }))
    (hfd : (o.listen && o.ready) = true → ((q.newFd o.socket).2.newFd o.accept).1 ≠ -1) :
    PasvEnd l L₀ B fd (o.listen && o.ready) q.conn.pasvSockfd (pasvOpen o q) := by
  have hopen := h.open_socket hfree q.conn rfl rfl
  rw [heq] at hfd
  dsimp only [pasvOpen]
  rw [heq, if_neg (show (fd : Int) ≠ -1 by omega)]
  dsimp only
  generalize hq₁ : Req.emit { q with sockets := Function.update q.sockets fd true }
    (.socket fd) = q₁ at hopen ⊢
  have hpasv₁ : q₁.conn.pasvSockfd = q.conn.pasvSockfd := hq₁ ▸ rfl
  have hsockets₁ : q₁.sockets = Function.update q.sockets fd true := hq₁ ▸ rfl
  -- `bind`, the reply to its failure, and `listen`
  have hbind : Owns l L₀ B none (some (fd : Int)) (q₁.emit (.bind fd ftpPassvPort)) :=
    hopen.idle trivial rfl
  have hreply : Talks false (q₁.emit (.bind fd ftpPassvPort))
      ((q₁.emit (.bind fd ftpPassvPort)).reply cantOpen) := (Talks.refl _ _).reply
  generalize hq₂ : Req.emit (if o.bind then q₁.emit (.bind fd ftpPassvPort)
    else (q₁.emit (.bind fd ftpPassvPort)).reply cantOpen) (.listen fd) = q₂
  obtain ⟨hlisten, hpasv₂, hsockets₂⟩ : Owns l L₀ B none (some (fd : Int)) q₂ ∧
      q₂.conn.pasvSockfd = q.conn.pasvSockfd ∧ q₂.sockets = Function.update q.sockets fd true := by
    rw [← hq₂]
    split
    · exact ⟨hbind.idle trivial rfl, hpasv₁, hsockets₁⟩
    · exact ⟨hbind.reply.idle trivial rfl, hreply.pasvSockfd.trans hpasv₁,
        hreply.sockets.trans hsockets₁⟩
  cases hl : o.listen with
  | false =>
    rw [Bool.not_false, if_pos rfl]
    have htalk : Talks false q₂ (q₂.reply cantOpen) := (Talks.refl _ _).reply
    exact ⟨hlisten.talks htalk (by simp), by simp, htalk.pasvSockfd.trans hpasv₂⟩
  | true =>
    rw [Bool.not_true, if_neg (by simp), Bool.true_and, ← hpasv₂]
    have hsame : (q₂.newFd o.accept).1 =
        (({ q with sockets := Function.update q.sockets fd true } : Req).newFd o.accept).1 :=
      newFd_fst_congr hsockets₂ _
    exact owns_pasvAccept o _ hlisten fun hr => hsame ▸ hfd (by simp [hl, hr])

/-- `PASV` with a new listening socket. By how the attempt ends: with a new data socket, or with the
listening socket still open, which is then closed because `pasv_sockfd` holds the same number. -/
theorem settled_cmdPasv (h : Owns l L₀ B none none q) (hfits : PasvFits o q) :
    Settled l L₀ B (cmdPasv o q) := by
  obtain ⟨hsocket, hfits⟩ := hfits
  dsimp only [cmdPasv]
  generalize hq₀ : ({ q with conn := { q.conn with pasvPort := ftpPassvPort, pasvActive := true } }
    : Req) = q₀
  have h₀ : Owns l L₀ B none none q₀ := hq₀ ▸ h.congr rfl rfl rfl rfl
  have hsockets : q.sockets = q₀.sockets := hq₀ ▸ rfl
  have hpasv : q.conn.pasvSockfd = q₀.conn.pasvSockfd := hq₀ ▸ rfl
  rw [newFd_fst_congr hsockets, newFd_fst_congr (newFd_sockets_congr hsockets _), hpasv] at hfits
  rw [newFd_fst_congr hsockets] at hsocket
  rcases newFd_cases q₀ o.socket with heq | ⟨fd, hfree, heq⟩
  · rw [heq] at hsocket
    exact absurd rfl hsocket
  have hpasvOpen := owns_pasvOpen o h₀ hfree heq
  cases hc : o.listen && o.ready with
  | true =>
    rw [if_pos (by simpa using hc)] at hfits
    have hend := hpasvOpen fun _ => hfits
    rw [hc] at hend
    have hdata : Owns l L₀ B (some (pasvOpen o q₀).2.conn.pasvSockfd) none (pasvOpen o q₀).2 := hend
    split
    · exact settled_none (Owns.congr hdata.close_data rfl rfl rfl rfl)
    · exact settled_data hdata
  | false =>
    -- nobody connects: the code closes `pasv_sockfd`, which has the number of the new socket
    rw [if_neg (by simpa using hc), heq] at hfits
    have hend := hpasvOpen fun htrue => by simp [hc] at htrue
    rw [hc] at hend
    obtain ⟨hpend, hret, hsame⟩ := hend
    rw [if_pos hret, hsame, hfits]
    exact settled_none (Owns.congr hpend.close_pending rfl rfl rfl rfl)

/-- `PASV` without a listening socket replies 425 and has opened nothing. -/
theorem pasvOpen_noSocket (heq : q.newFd o.socket = (-1, q)) :
    pasvOpen o q = (1, (q.emit (.socket (-1))).reply cantOpen) := by
  dsimp only [pasvOpen]
  rw [heq, if_pos rfl]

/-- `PASV` that gets no socket closes the data socket. It takes its number from `pasv_sockfd`, so
the session has none afterwards. -/
theorem settled_cmdPasv_noSocket (h : Owns l L₀ B (some q.conn.pasvSockfd) none q)
    (hsocket : (q.newFd o.socket).1 = -1) : Settled l L₀ B (cmdPasv o q) := by
  dsimp only [cmdPasv]
  -- the flag and the port are set before the socket is asked for
  generalize hq₀ : ({ q with conn := { q.conn with pasvPort := ftpPassvPort, pasvActive := true } }
    : Req) = q₀
  have h₀ : Owns l L₀ B (some q₀.conn.pasvSockfd) none q₀ := hq₀ ▸ h.congr rfl rfl rfl rfl
  have hsockets : q.sockets = q₀.sockets := hq₀ ▸ rfl
  rw [newFd_fst_congr hsockets] at hsocket
  rcases newFd_cases q₀ o.socket with heq | ⟨fd, -, heq⟩
  · rw [pasvOpen_noSocket o heq, if_pos (by simp)]
    have hidle : Owns l L₀ B (some q₀.conn.pasvSockfd) none (q₀.emit (.socket (-1))) :=
      h₀.idle trivial rfl
    have htalk : Talks false (q₀.emit (.socket (-1))) ((q₀.emit (.socket (-1))).reply cantOpen) :=
      (Talks.refl _ _).reply
    have hclose := owns_transfer hidle htalk.of_false
    exact settled_none (Owns.congr hclose rfl rfl rfl rfl)
  · rw [heq] at hsocket
    exact absurd hsocket (show (fd : Int) ≠ -1 by omega)

/-- A command that fits leaves the session with its data socket or none, and with none if the
service loop drops the connection afterwards. -/
theorem settled_execute {live : Prop} [Decidable live] {line : List UInt8}
    (h : Owns l L₀ B (if live then some q.conn.pasvSockfd else none) none q)
    (hfits : RequestFits o q live line) :
    Settled l L₀ B (execute o q line).2 ∧
      (Ends o q line → Owns l L₀ B none none (execute o q line).2) := by
  have hbegin : Settled l L₀ B q := by
    by_cases hlive : live
    · rw [if_pos hlive] at h
      exact settled_data h
    · rw [if_neg hlive] at h
      exact settled_none h
  have hdata : live → Owns l L₀ B (some q.conn.pasvSockfd) none q := fun hlive => by
    rwa [if_pos hlive] at h
  have hnone : ¬ live → Owns l L₀ B none none q := fun hlive => by
    rwa [if_neg hlive] at h
  -- a transfer that uses the data socket
  have htransfer : ∀ q' r, live → Talks true q q' → Talks false (q'.close q'.conn.pasvSockfd) r →
      Owns l L₀ B none none r :=
    fun q' r hlive hq' hr => (owns_transfer (hdata hlive) hq').talks hr (by simp)
  unfold RequestFits at hfits
  unfold Ends
  cases hcmd : doParseCommand line with
  | list =>
    rw [hcmd] at hfits
    obtain ⟨q', hq', hlist⟩ := cmdList_spec o q
    simp only [execute, hcmd]
    exact ⟨settled_none (htransfer q' _ hfits hq' hlist), fun hend => hend.elim⟩
  | nlst =>
    rw [hcmd] at hfits
    obtain ⟨q', hq', hlist⟩ := cmdNlst_spec o q
    simp only [execute, hcmd]
    exact ⟨settled_none (htransfer q' _ hfits hq' hlist), fun hend => hend.elim⟩
  | retr =>
    rw [hcmd] at hfits
    simp only [execute, hcmd]
    refine ⟨?_, fun hend => hend.elim⟩
    by_cases hsend : CanSend q.vol (paramPath o q.conn.currentdir (parameterPtr line))
    · obtain ⟨q', hq', heq⟩ := cmdRetr_sends o q _ line hsend
      rw [heq]
      exact settled_none (htransfer q' _ (hfits hsend) hq' (Talks.refl _ _))
    · exact settled_talks hbegin (cmdRetr_refuses o q _ line hsend)
  | stor =>
    rw [hcmd] at hfits
    simp only [execute, hcmd]
    by_cases hstore : CanStore q.vol (paramPath o q.conn.currentdir (parameterPtr line)) o.slot
    · obtain ⟨q', hq', heq⟩ := cmdStor_stores o q _ hstore
      rw [heq]
      have hend := htransfer q' _ (hfits hstore) hq' (Talks.refl _ _)
      exact ⟨settled_none hend, fun _ => hend⟩
    · exact ⟨settled_talks hbegin (cmdStor_refuses o q _ hstore),
        fun hend => absurd hend.1 hstore⟩
  | port =>
    rw [hcmd] at hfits
    simp only [execute, hcmd]
    exact ⟨settled_cmdPort o _ (hnone hfits.1) hfits.2, fun hend => hend.elim⟩
  | pasv =>
    rw [hcmd] at hfits
    simp only [execute, hcmd]
    refine ⟨?_, fun hend => hend.elim⟩
    rcases hfits with ⟨hlive, hsocket⟩ | ⟨hlive, hfits⟩
    · exact settled_cmdPasv_noSocket o (hdata hlive) hsocket
    · exact settled_cmdPasv o (hnone hlive) hfits
  | quit =>
    rw [hcmd] at hfits
    have htalk : Talks false q (execute o q line).2 := talks_execute (by rw [hcmd]; rfl)
    exact ⟨settled_talks hbegin htalk, fun _ => (hnone hfits).talks htalk (by simp)⟩
  | user | pass | pwd | type | size | mdtm | syst | cwd | cdup | rest | mkd | dele | rmd | feat
  | unknown =>
    have htalk : Talks false q (execute o q line).2 := talks_execute (by rw [hcmd]; rfl)
    exact ⟨settled_talks hbegin htalk, fun hend => hend.elim⟩

end Commands

/-! ### The service loop -/

/-- The ledger between the steps. -/
structure SocketInv (w : World) : Prop where
  list : ConnList w
  legal : Along Ledger.step Ledger.Legal (fun _ => none) w.trace
  control : ∀ c ∈ w.conns, w.ledger c.sockfd = some (c.id, .control)
  owned : ∀ fd id role, w.ledger fd = some (id, role) → ∃ c ∈ w.conns, c.id = id ∧
    (role = .control ∧ fd = c.sockfd ∨ role = .data ∧ fd = c.pasvSockfd)
  opened : ∀ fd, w.sockets fd = true ↔ fd = w.sockfd ∨ w.ledger fd ≠ none
  listening : w.ledger w.sockfd = none

/-- The ledger without the data socket of a connection. -/
def World.others (w : World) (conn : Conn) : Ledger := fun fd =>
  if w.ledger fd = some (conn.id, .data) then none else w.ledger fd

/-- The ledger of the thread goes on with the effects of a request, each under its session. -/
theorem ledger_record (w : World) (id : Nat) (out : List Effect) :
    (w.record id out).ledger = run Ledger.step w.ledger (out.map (Prod.mk id)) :=
  run_append _ _ _ _

/-- Storing the connection back and closing nothing leaves the ledger with these effects. -/
theorem ledger_afterRequest (w : World) (conn : Conn) (n : Nat) (q : Req) :
    (w.afterRequest conn n q).ledger = run Ledger.step w.ledger (q.out.map (Prod.mk conn.id)) := by
  show run _ _ ((w.trace ++ [(conn.id, .ftpBuf n)]) ++ q.out.map (Prod.mk conn.id)) = _
  rw [run_append, run_append]
  rfl

namespace SocketInv

variable {w : World} {conn : Conn}

/-- What the invariant says of the ledger is what is asked of it between the steps. A session has at
most one data socket, since the ledger has its number in `pasv_sockfd`. -/
theorem dataSockets (h : SocketInv w) : DataSockets w where
  legal := h.legal
  control := h.control
  owned := by
    intro fd id role hfd
    obtain ⟨c, hc, hid, hrole⟩ := h.owned fd id role hfd
    exact ⟨c, hc, hid, hrole.imp_right And.left⟩
  single := by
    intro fd fd' id hfd hfd'
    obtain ⟨c, hc, hid, hrole⟩ := h.owned fd id _ hfd
    obtain ⟨c', hc', hid', hrole'⟩ := h.owned fd' id _ hfd'
    have hsame : c = c' := h.list.eq_of_id hc hc' (hid.trans hid'.symm)
    have hpasv : fd = c.pasvSockfd := (hrole.resolve_left (by simp)).2
    have hpasv' : fd' = c'.pasvSockfd := (hrole'.resolve_left (by simp)).2
    rw [hpasv, hpasv', hsame]
  opened := h.opened

/-- At the start the thread listens, no session is there, and nothing else is open. The mount that
comes before opens no descriptor. -/
theorem start (v : FatFs.Volume) (sockfd : Nat) : SocketInv (World.start v sockfd) where
  list := ⟨List.nodup_nil, by simp [World.start]⟩
  legal := trivial
  control := by simp [World.start]
  owned := by
    intro fd id role hfd
    cases hfd
  opened := by
    intro fd
    show Function.update (fun _ => false) (sockfd : Int) true fd = true ↔
      fd = (sockfd : Int) ∨ (none : Option (Nat × Role)) ≠ none
    by_cases hfd : fd = sockfd
    · simp [hfd]
    · simp [hfd]
  listening := rfl

/-- `select` opens and closes nothing. -/
theorem select (h : SocketInv w) : SocketInv (selectStep w) := by
  obtain ⟨readfds, heq⟩ := selectStep_frame w
  rw [heq]
  exact ⟨⟨h.list.ids, h.list.fresh⟩, h.legal, h.control, h.owned, h.opened, h.listening⟩

/-- A descriptor that was not in use is not in the ledger. -/
theorem unused (h : SocketInv w) {fd : Int} (hfree : w.sockets fd = false) :
    fd ≠ w.sockfd ∧ w.ledger fd = none := by
  have hnot := (h.opened fd).not.1 (by simp [hfree])
  exact ⟨fun heq => hnot (Or.inl heq), not_not.1 fun hne => hnot (Or.inr hne)⟩

/-- A new session owns the descriptor that `accept` returned, which nobody had before. -/
theorem accept (h : SocketInv w) {fd : Nat} (hfree : w.sockets fd = false) (remote : UInt32)
    (m : Fresh) : SocketInv (w.afterAccept fd remote m) := by
  obtain ⟨hl, hnone⟩ := h.unused hfree
  have hledger : (w.afterAccept fd remote m).ledger =
      Function.update w.ledger fd (some (w.nextConn, .control)) :=
    ledger_record w w.nextConn _
  have hother : ∀ x, x ≠ (fd : Int) → (w.afterAccept fd remote m).ledger x = w.ledger x := by
    intro x hx
    rw [hledger, Function.update_of_ne hx]
  have hself : (w.afterAccept fd remote m).ledger fd = some (w.nextConn, .control) := by
    rw [hledger, Function.update_self]
  constructor
  case list => exact h.list.afterAccept fd remote m
  case legal =>
    refine (along_append _ _ _ _ _).2 ⟨h.legal, trivial, ?_, trivial⟩
    left
    exact Function.update_self ..
  case control =>
    intro c hc
    rcases List.mem_cons.1 hc with rfl | hc
    · exact hself
    · have hcon := h.control c hc
      rw [hother c.sockfd fun heq => by simp [heq, hnone] at hcon]
      exact hcon
  case owned =>
    intro x id role hx
    by_cases hfd : x = fd
    · rw [hfd, hself] at hx
      cases hx
      exact ⟨_, List.mem_cons_self, rfl, Or.inl ⟨rfl, hfd⟩⟩
    · rw [hother x hfd] at hx
      obtain ⟨c, hc, hrest⟩ := h.owned x id role hx
      exact ⟨c, List.mem_cons_of_mem _ hc, hrest⟩
  case opened =>
    intro x
    show Function.update w.sockets (fd : Int) true x = true ↔ x = w.sockfd ∨ _
    by_cases hfd : x = fd
    · rw [hfd, hself]
      simp
    · rw [Function.update_of_ne hfd, hother x hfd]
      exact h.opened x
  case listening => exact (hother _ (Ne.symm hl)).trans h.listening

/-- The service loop drops a connection whose data socket is not open. -/
theorem dropConn (h : SocketInv w) (hc : conn ∈ w.conns) (hlive : ¬ w.Live conn) :
    SocketInv (w.dropConn conn) := by
  have hcontrol := h.control conn hc
  have hledger : (w.dropConn conn).ledger = Function.update w.ledger conn.sockfd none :=
    ledger_record w conn.id [.disconnected conn.sockfd]
  have hother : ∀ x, x ≠ conn.sockfd → (w.dropConn conn).ledger x = w.ledger x := by
    intro x hx
    rw [hledger, Function.update_of_ne hx]
  have hself : (w.dropConn conn).ledger conn.sockfd = none := by
    rw [hledger, Function.update_self]
  have hl : conn.sockfd ≠ w.sockfd := fun heq => by
    rw [heq, h.listening] at hcontrol
    cases hcontrol
  constructor
  case list => exact h.list.dropConn conn
  case legal => exact (along_append _ _ _ _ _).2 ⟨h.legal, hcontrol, trivial⟩
  case control =>
    intro c hmem
    obtain ⟨hmem, hid⟩ := List.mem_filter.1 hmem
    have hcon := h.control c hmem
    rw [hother c.sockfd fun heq => ?_]
    · exact hcon
    · rw [heq, hcontrol] at hcon
      simp [(Prod.mk.inj (Option.some.inj hcon)).1] at hid
  case owned =>
    intro x id role hx
    have hne : x ≠ conn.sockfd := fun heq => by
      rw [heq, hself] at hx
      cases hx
    rw [hother x hne] at hx
    obtain ⟨c, hmem, hid, hrole⟩ := h.owned x id role hx
    refine ⟨c, List.mem_filter.2 ⟨hmem, ?_⟩, hid, hrole⟩
    -- the connection that goes owned its control socket only
    have hdiff : c ≠ conn := by
      rintro rfl
      rcases hrole with ⟨-, heq⟩ | ⟨rfl, rfl⟩
      · exact hne heq
      · rw [← hid] at hx
        exact hlive hx
    simpa using fun heq => hdiff (h.list.eq_of_id hmem hc heq)
  case opened =>
    intro x
    show Function.update w.sockets conn.sockfd false x = true ↔ x = w.sockfd ∨ _
    by_cases hx : x = conn.sockfd
    · rw [hx, hself]
      simp [hl]
    · rw [Function.update_of_ne hx, hother x hx]
      exact h.opened x
  case listening => exact (hother _ (Ne.symm hl)).trans h.listening

/-- Before a request the session owns its data socket if it is open. -/
theorem owns (h : SocketInv w) (hc : conn ∈ w.conns) :
    Owns w.sockfd w.ledger (w.others conn) (if w.Live conn then some conn.pasvSockfd else none)
      none { vol := w.vol, sockets := w.sockets, conn } := by
  have hshape : shape (w.others conn) conn.id
      (if w.Live conn then some conn.pasvSockfd else none) none = w.ledger := by
    -- the table of the session and that of the others are the ledger again
    funext x
    by_cases hx : w.ledger x = some (conn.id, .data)
    · obtain ⟨c, hmem, hid, hrole⟩ := h.owned x _ _ hx
      -- a data descriptor in the name of the session is the one in its structure
      have hpasv : x = c.pasvSockfd := (hrole.resolve_left (by simp)).2
      rw [h.list.eq_of_id hmem hc hid] at hpasv
      rw [hpasv] at hx ⊢
      have hlive : w.Live conn := hx
      simp [shape, hlive, hx]
    · have hne : (if w.Live conn then some conn.pasvSockfd else none) ≠ some x := by
        split
        · next hlive =>
          rintro heq
          cases heq
          exact hx hlive
        · simp
      simp [shape, hne, World.others, hx]
  have hlegal := h.control conn hc
  constructor
  case legal => trivial
  case ledger => exact hshape.symm
  case control =>
    show (if _ then _ else _) = _
    rw [if_neg (by simp [hlegal])]
    exact hlegal
  case noData =>
    intro fd
    unfold World.others
    split
    · simp
    · assumption
  case free =>
    intro fd hfd
    unfold World.others
    split at hfd
    · next hlive =>
      rcases hfd with hfd | hfd
      · cases hfd
        exact if_pos hlive
      · cases hfd
    · simp at hfd
  case distinct => simp
  case opened => exact hshape ▸ h.opened
  case listening => exact (congrFun hshape w.sockfd).trans h.listening

/-- A request that leaves its session settled. -/
theorem afterRequest (h : SocketInv w) (hc : conn ∈ w.conns) (n : Nat) {q : Req}
    (hid : q.conn.id = conn.id) (hfd : q.conn.sockfd = conn.sockfd)
    (hq : Settled w.sockfd w.ledger (w.others conn) q) : SocketInv (w.afterRequest conn n q) := by
  obtain ⟨d, hq, hpasv⟩ := hq
  have hledger : (w.afterRequest conn n q).ledger = shape (w.others conn) conn.id d none := by
    rw [ledger_afterRequest, ← hid]
    exact hq.ledger
  have hmap : ∀ c, c ∈ (w.afterRequest conn n q).conns ↔ c = q.conn ∨ c ∈ w.conns ∧ c ≠ conn :=
    fun c => h.list.mem_afterRequest hc
  -- the entries of the other sessions are those of before
  have hothers : ∀ x id role, w.others conn x = some (id, role) →
      w.ledger x = some (id, role) ∧ ¬ (id = conn.id ∧ role = .data) := by
    intro x id role hx
    unfold World.others at hx
    split at hx
    · cases hx
    · next hne =>
      refine ⟨hx, ?_⟩
      rintro ⟨rfl, rfl⟩
      exact hne hx
  constructor
  case list => exact h.list.afterRequest hid
  case legal =>
    show Along _ _ _ ((w.trace ++ [(conn.id, .ftpBuf n)]) ++ q.out.map (Prod.mk conn.id))
    rw [along_append, along_append, run_append]
    refine ⟨⟨h.legal, trivial, trivial⟩, ?_⟩
    rw [← hid]
    exact hq.legal
  case control =>
    intro c hmem
    rw [hledger]
    rcases (hmap c).1 hmem with rfl | ⟨hmem, hne⟩
    · rw [← hid]
      exact hq.shape_base hq.control
    · have hcon : w.others conn c.sockfd = some (c.id, .control) := by
        unfold World.others
        rw [h.control c hmem]
        exact if_neg (by simp)
      rw [← hid]
      exact hq.shape_base hcon
  case owned =>
    intro x id role hx
    rw [hledger] at hx
    unfold shape at hx
    rw [if_neg (by simp)] at hx
    split_ifs at hx with hd
    · cases hx
      exact ⟨q.conn, (hmap _).2 (Or.inl rfl), hid, Or.inr ⟨rfl, hpasv x hd⟩⟩
    · obtain ⟨hold, hne⟩ := hothers x id role hx
      obtain ⟨c, hmem, hcid, hrole⟩ := h.owned x id role hold
      by_cases hsame : c = conn
      · subst hsame
        have hcontrol := hrole.resolve_right fun hdata => hne ⟨hcid.symm, hdata.1⟩
        exact ⟨q.conn, (hmap _).2 (Or.inl rfl), hid.trans hcid,
          Or.inl ⟨hcontrol.1, hcontrol.2.trans hfd.symm⟩⟩
      · exact ⟨c, (hmap _).2 (Or.inr ⟨hmem, hsame⟩), hcid, hrole⟩
  case opened =>
    rw [hledger, ← hid]
    exact hq.opened
  case listening =>
    rw [hledger, ← hid]
    exact hq.listening

/-- A step that serves a session keeps the ledger in order where it fits: a request settles, and the
end of a session closes its control socket with no data socket open. -/
theorem serve (h : SocketInv w) {id : Nat} {recv : Option (List UInt8)} {o : Outcome}
    (hfits : SocketFits w (.serve id recv o)) : SocketInv (step w (.serve id recv o)) := by
  dsimp only [step, SocketFits] at hfits ⊢
  cases hconn : w.conn? id with
  | none => exact h
  | some conn =>
    rw [hconn] at hfits
    obtain ⟨hc, -⟩ := World.conn?_eq hconn
    have hgone : ¬ w.Live conn → SocketInv ((w.fdClr conn.sockfd).dropConn conn) :=
      fun hlive => dropConn (w := w.fdClr conn.sockfd)
        ⟨⟨h.list.ids, h.list.fresh⟩, h.legal, h.control, h.owned, h.opened, h.listening⟩ hc hlive
    obtain _ | _ | ⟨b, bs⟩ := recv
    · exact hgone hfits
    · exact hgone hfits
    · dsimp only at hfits ⊢
      -- the request, and the drop after it if nothing is left open
      have hafter : ∀ (q : Req), q.conn.id = conn.id → q.conn.sockfd = conn.sockfd →
          Owns w.sockfd w.ledger (w.others conn) none none q →
          SocketInv ((w.afterRequest conn (b :: bs).length q).dropConn q.conn) := by
        intro q hid hfd hq
        refine dropConn (h.afterRequest hc _ hid hfd (settled_none hq))
          ((h.list.mem_afterRequest hc).2 (Or.inl rfl)) ?_
        unfold World.Live
        rw [ledger_afterRequest, ← hid, hq.ledger]
        exact hq.noData _
      have howns := h.owns hc
      by_cases ho : o.malloc = true
      · rw [if_pos ho] at hfits
        generalize hr : execute o (w.req conn (request (b :: bs))) (request (b :: bs)) = r
        have hreq : Owns w.sockfd w.ledger (w.others conn)
            (if w.Live conn then some conn.pasvSockfd else none) none
            (w.req conn (request (b :: bs))) := Owns.idle howns trivial rfl
        have hkeeps := keeps_execute_conn o (w.req conn (request (b :: bs))) (request (b :: bs))
        obtain ⟨hsettled, hends⟩ := settled_execute o hreq hfits
        rw [hr] at hkeeps hsettled hends
        rw [serveStep_request w conn b bs ho hr]
        split
        · next hret =>
          rw [← hr] at hret
          exact hafter r.2 hkeeps.id hkeeps.sockfd (hends ((execute_fst_iff ..).1 hret))
        · exact h.afterRequest hc _ hkeeps.id hkeeps.sockfd hsettled
      · rw [if_neg ho] at hfits
        rw [if_neg hfits] at howns
        rw [serveStep_noMem w conn b bs (by simpa using ho)]
        exact hafter _ rfl rfl howns

/-- One step of the service loop. -/
theorem step (h : SocketInv w) {e : Event} (he : SocketFits w e) : SocketInv (step w e) := by
  cases e with
  | select => exact h.select
  | accept fd remote mem =>
    show SocketInv (acceptStep w fd remote mem)
    rcases acceptStep_cases w fd remote he with heq | ⟨fd, m, hfree, heq⟩
    · rw [heq]
      exact h
    · rw [heq]
      exact h.accept hfree remote m
  | serve id recv o => exact h.serve he

end SocketInv

/-- In every run of the service loop whose steps fit, the sessions use and close only descriptors
of their own, and after each step nothing is open but the listening socket, the control sockets
and at most one data socket for each session. -/
theorem data_sockets_owned (v : FatFs.Volume) (sockfd : Nat) (es : List Event)
    (h : Along step SocketFits (World.start v sockfd) es) :
    DataSockets (run step (World.start v sockfd) es) :=
  (run_inv (fun _ _ hw => hw.step) (SocketInv.start v sockfd) h).dataSockets

/-- Two clients: one lists the directory over a passive connection and then fails to open another
one, which closes nothing; the other one comes and goes. -/
theorem data_sockets_owned_list :
    DataSockets (run step (World.start emptyDisk 0)
      [.select, .accept (some 1) 0 (some ⟨false, 0, 0⟩),
        .serve 0 (some (textBytes "PASV\r\n")) { socket := some 2, accept := some 3 },
        .accept (some 2) 1 (some ⟨false, 7, 0⟩),
        .serve 0 (some (textBytes "LIST\r\n")) {}, .serve 1 none {},
        .serve 0 (some (textBytes "PASV\r\n")) { socket := some 3, listen := false },
        .serve 0 (some (textBytes "QUIT\r\n")) {}]) :=
  data_sockets_owned emptyDisk 0 _ (by decide +kernel)

/-- `LIST` leaves the number of its closed data socket in `pasv_sockfd`. Another client gets that
number for its control socket, and the next `LIST` closes it. -/
theorem list_closes_other_session :
    let w := run step (World.start emptyDisk 0)
      [.accept (some 1) 0 (some ⟨false, 0, 0⟩),
        .serve 0 (some (textBytes "PASV\r\n")) { socket := some 2, accept := some 3 },
        .serve 0 (some (textBytes "LIST\r\n")) {},
        .accept (some 3) 1 (some ⟨false, 0, 0⟩)]
    let w' := step w (.serve 0 (some (textBytes "LIST\r\n")) {})
    w.ledger 3 = some (1, .control) ∧ (0, .close 3) ∈ w'.trace.drop w.trace.length ∧
      ¬ DataSockets w' := by
  refine ⟨by decide, by decide, fun h => ?_⟩
  exact absurd h.legal (by decide)

end NucleoH743.Ftp
