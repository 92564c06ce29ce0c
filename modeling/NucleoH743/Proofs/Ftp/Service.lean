import NucleoH743.Proofs.Ftp.Requests
import Mathlib.Data.List.Nodup

/-!
# `Proofs.Ftp.Service`: the service loop of the FTP server

What one step of the service loop does with the list of connections.

These are the lemmas on the service loop that the modules on runs share. A step of the loop is one
of four: the call of `select`, a connection that is accepted or refused, a client that has gone, and
a request. For the last one `serveStep_request` names the parts, what the request works on
(`World.req`) and what it leaves (`World.afterRequest`), so a proof about requests works on the
first and one about the thread on the second.

A connection is found by its address. `ConnList` says that no two have the same, and then storing
one connection back leaves the others as they are.

- `serveStep_request`: a served chunk is one request, after which the connection is stored or
  dropped.
- `ConnList`: every connection has an address of its own, which `step` keeps.
-/

set_option autoImplicit false

namespace NucleoH743.Ftp

open CStr (textBytes)

namespace World

/-- What `ftp_process_request` works on, behind the log line. -/
def req (w : World) (conn : Conn) (line : List UInt8) : Req :=
  Req.emit { vol := w.vol, sockets := w.sockets, conn } (.requested line)

/-- The thread after a request of `n` bytes that ended in `q`. -/
def afterRequest (w : World) (conn : Conn) (n : Nat) (q : Req) : World :=
  { w.record conn.id [.ftpBuf n] with
    vol := q.vol
    sockets := q.sockets
    conns := w.conns.map fun (c : Conn) =>
      if c.id = conn.id then q.conn else c }.record conn.id q.out

/-- A request works on the connection that it was made for. -/
@[simp] theorem req_conn (w : World) (conn : Conn) (line : List UInt8) :
    (w.req conn line).conn = conn := rfl

/-- It begins with the descriptors of the server. -/
@[simp] theorem req_sockets (w : World) (conn : Conn) (line : List UInt8) :
    (w.req conn line).sockets = w.sockets := rfl

/-- It begins with the volume of the server. -/
@[simp] theorem req_vol (w : World) (conn : Conn) (line : List UInt8) :
    (w.req conn line).vol = w.vol := rfl

/-- The lookup finds a connection of the list. -/
theorem conn?_eq {w : World} {id : Nat} {conn : Conn} (h : w.conn? id = some conn) :
    conn ∈ w.conns ∧ conn.id = id := by
  refine ⟨List.mem_of_find?_eq_some h, ?_⟩
  simpa using List.find?_some h

end World

/-- The connection is stored or dropped, by the result of the request. -/
theorem serveStep_eq (w : World) (conn : Conn) (b : UInt8) (bs : List UInt8) (o : Outcome)
    {r : Int × Req}
    (hr : ftpProcessRequest o { vol := w.vol, sockets := w.sockets, conn } (b :: bs ++ [0]) = r) :
    serveStep w conn (some (b :: bs)) o =
      if r.1 = -1 then (w.afterRequest conn (b :: bs).length r.2).dropConn r.2.conn
      else w.afterRequest conn (b :: bs).length r.2 := by
  rw [← hr]
  rfl

/-- The request of a chunk. -/
theorem serveStep_request (w : World) (conn : Conn) (b : UInt8) (bs : List UInt8) {o : Outcome}
    (ho : o.malloc = true) {r : Int × Req}
    (hr : execute o (w.req conn (request (b :: bs))) (request (b :: bs)) = r) :
    serveStep w conn (some (b :: bs)) o =
      if r.1 = -1 then (w.afterRequest conn (b :: bs).length r.2).dropConn r.2.conn
      else w.afterRequest conn (b :: bs).length r.2 :=
  serveStep_eq w conn b bs o ((if_pos ho).trans hr)

/-- Without memory for `sbuf` the connection is dropped. -/
theorem serveStep_noMem (w : World) (conn : Conn) (b : UInt8) (bs : List UInt8) {o : Outcome}
    (ho : o.malloc = false) :
    serveStep w conn (some (b :: bs)) o =
      (w.afterRequest conn (b :: bs).length { vol := w.vol, sockets := w.sockets, conn }).dropConn
        conn := by
  rw [serveStep_eq w conn b bs o (if_neg (by simp [ho])), if_pos rfl]

/-- The connection that `alloc_new_conn` makes. -/
def World.newConn (w : World) (fd : Nat) (remote : UInt32) (m : Fresh) : Conn where
  id := w.nextConn
  sockfd := fd
  remote := remote
  pasvActive := m.pasvActive
  pasvSockfd := m.pasvSockfd
  pasvPort := m.pasvPort
  currentdir := [47]

/-- The thread after it accepted a connection. -/
def World.afterAccept (w : World) (fd : Nat) (remote : UInt32) (m : Fresh) : World :=
  { (w.fdSet fd).record w.nextConn [.accepted fd, .send fd ftpWelcomeMsg ftpWelcomeMsg.length] with
    sockets := Function.update w.sockets fd true
    conns := w.newConn fd remote m :: w.conns
    nextConn := w.nextConn + 1 }

/-- With memory for the connection, it is accepted as a descriptor that was not in use. -/
theorem acceptStep_cases (w : World) (fd' : Option Nat) (remote : UInt32) {mem : Option Fresh}
    (hmem : mem.isSome = true) :
    acceptStep w fd' remote mem = w ∨ ∃ (fd : Nat) (m : Fresh), w.sockets fd = false ∧
      acceptStep w fd' remote mem = w.afterAccept fd remote m := by
  obtain ⟨m, rfl⟩ := Option.isSome_iff_exists.1 hmem
  dsimp only [acceptStep]
  split
  · exact Or.inl rfl
  · next fd hfd =>
    have hfree : w.sockets fd = false := by simpa using (Option.filter_eq_some_iff.1 hfd).2
    exact Or.inr ⟨fd, m, hfree, rfl⟩

/-- The connection of an address after its request. -/
theorem World.conn?_afterRequest {w : World} {id : Nat} {conn : Conn} {n : Nat} {q : Req}
    (h : w.conn? id = some conn) (hid : q.conn.id = conn.id) :
    (w.afterRequest conn n q).conn? id = some q.conn := by
  have hkeep : ∀ c : Conn, (if c.id = conn.id then q.conn else c).id = c.id := by
    intro c
    split
    · next hc => rw [hid, hc]
    · rfl
  show (w.conns.map fun c => if c.id = conn.id then q.conn else c).find? (fun c => c.id = id) = _
  rw [List.find?_map]
  have hfind : w.conns.find? (fun c => c.id = id) = some conn := h
  simp only [Function.comp_def, hkeep, hfind, Option.map_some, if_true]

/-- A dropped connection is not found. -/
theorem World.conn?_dropConn (w : World) (conn : Conn) :
    (w.dropConn conn).conn? conn.id = none := by
  refine List.find?_eq_none.2 fun c hc => ?_
  have hid := (List.mem_filter.1 hc).2
  simpa using hid

/-- A formatted disk without files. -/
def emptyDisk : FatFs.Volume where
  fatFs := none
  obj := fun _ => {}
  fsid := 0
  fmt := 3
  files := fun _ => none
  follow := fun path => if path = [47] then .origin else .entry path
  nodes := fun _ => none

/-! ### The list of connections -/

/-- Every connection has an address of its own. -/
structure ConnList (w : World) : Prop where
  ids : (w.conns.map Conn.id).Nodup
  fresh : ∀ c ∈ w.conns, c.id < w.nextConn

namespace ConnList

variable {w : World}

/-- No two connections have one number. -/
theorem eq_of_id (h : ConnList w) {c c' : Conn} (hc : c ∈ w.conns) (hc' : c' ∈ w.conns)
    (hid : c.id = c'.id) : c = c' :=
  List.inj_on_of_nodup_map h.ids hc hc' hid

/-- Accepting a connection. -/
theorem afterAccept (h : ConnList w) (fd : Nat) (remote : UInt32) (m : Fresh) :
    ConnList (w.afterAccept fd remote m) where
  ids := List.nodup_cons.2 ⟨fun hid => by
    obtain ⟨c, hc, heq⟩ := List.mem_map.1 hid
    have hlt : c.id < w.nextConn := h.fresh c hc
    have hid : c.id = w.nextConn := heq
    omega, h.ids⟩
  fresh := by
    intro c hc
    rcases List.mem_cons.1 hc with rfl | hc
    · exact Nat.lt_succ_self _
    · exact Nat.lt_succ_of_lt (h.fresh c hc)

/-- Dropping a connection. -/
theorem dropConn (h : ConnList w) (conn : Conn) : ConnList (w.dropConn conn) where
  ids := h.ids.sublist (List.filter_sublist.map Conn.id)
  fresh := fun c hc => h.fresh c (List.mem_filter.1 hc).1

/-- Storing a connection after its request leaves the addresses. -/
theorem ids_afterRequest (w : World) {conn : Conn} {n : Nat} {q : Req}
    (hid : q.conn.id = conn.id) :
    (w.afterRequest conn n q).conns.map Conn.id = w.conns.map Conn.id := by
  show (w.conns.map _).map Conn.id = _
  rw [List.map_map]
  refine List.map_congr_left fun c _ => ?_
  show (if c.id = conn.id then q.conn else c).id = c.id
  split
  · next hc => rw [hid, hc]
  · rfl

/-- A request that keeps the number of its connection leaves the list in order. -/
theorem afterRequest (h : ConnList w) {conn : Conn} {n : Nat} {q : Req}
    (hid : q.conn.id = conn.id) : ConnList (w.afterRequest conn n q) := by
  have hmap := ids_afterRequest w (n := n) hid
  refine ⟨hmap ▸ h.ids, fun c hc => ?_⟩
  have hmem : c.id ∈ w.conns.map Conn.id := hmap ▸ List.mem_map_of_mem hc
  obtain ⟨c', hc', hc'id⟩ := List.mem_map.1 hmem
  exact hc'id ▸ h.fresh c' hc'

/-- The connections after a request: that of the session is stored, the others stay. -/
theorem mem_afterRequest (h : ConnList w) {conn : Conn} (hc : conn ∈ w.conns) {n : Nat} {q : Req}
    {c : Conn} : c ∈ (w.afterRequest conn n q).conns ↔ c = q.conn ∨ c ∈ w.conns ∧ c ≠ conn := by
  show c ∈ w.conns.map (fun c => if c.id = conn.id then q.conn else c) ↔ _
  rw [List.mem_map]
  constructor
  · rintro ⟨c, hmem, rfl⟩
    split
    · exact Or.inl rfl
    · next hne => exact Or.inr ⟨hmem, fun heq => hne (congrArg Conn.id heq)⟩
  · rintro (rfl | ⟨hmem, hne⟩)
    · exact ⟨conn, hc, if_pos rfl⟩
    · exact ⟨c, hmem, if_neg fun hid => hne (h.eq_of_id hmem hc hid)⟩

end ConnList

/-! ### The descriptors for `select` -/

/-- The loop before `select` changes the set only. -/
theorem selectStep_frame (w : World) : ∃ readfds, selectStep w = { w with readfds } := by
  have hgo : ∀ (l : List Conn) (w : World), ∃ readfds,
      l.foldl (fun w conn => w.fdSet conn.sockfd) w = { w with readfds } := by
    intro l
    induction l with
    | nil => exact fun w => ⟨w.readfds, rfl⟩
    | cons c l ih =>
      intro w
      obtain ⟨readfds, h⟩ := ih (w.fdSet c.sockfd)
      exact ⟨readfds, h⟩
  exact hgo w.conns w

/-- The loop before `select` adds the control sockets. By induction on the connections. -/
theorem mem_selectStep (w : World) (fd : Int) :
    fd ∈ (selectStep w).readfds ↔ fd ∈ w.readfds ∨ ∃ c ∈ w.conns, c.sockfd = fd := by
  have hgo : ∀ (l : List Conn) (w : World),
      fd ∈ (l.foldl (fun w conn => w.fdSet conn.sockfd) w).readfds ↔
        fd ∈ w.readfds ∨ ∃ c ∈ l, c.sockfd = fd := by
    intro l
    induction l with
    | nil => simp
    | cons c l ih =>
      intro w
      have hset : fd ∈ (w.fdSet c.sockfd).readfds ↔ fd = c.sockfd ∨ fd ∈ w.readfds :=
        List.mem_insert_iff
      rw [List.foldl_cons, ih, hset]
      simp only [List.mem_cons, exists_eq_or_imp]
      tauto
  exact hgo w.conns w

/-! ### The steps on the list of connections -/

/-- Every step keeps the addresses apart. By the event. A new connection gets an address that none
of the others has, which is what the heap gives. -/
theorem ConnList.step {w : World} (h : ConnList w) (e : Event) : ConnList (Ftp.step w e) := by
  cases e with
  | select =>
    obtain ⟨readfds, hsel⟩ := selectStep_frame w
    show ConnList (selectStep w)
    rw [hsel]
    exact ⟨h.ids, h.fresh⟩
  | accept fd remote mem =>
    dsimp only [Ftp.step, acceptStep]
    split
    · exact h
    · next fd _ =>
      cases mem with
      | none => exact ⟨List.nodup_nil, by simp⟩
      | some m => exact h.afterAccept fd remote m
  | serve id recv o =>
    dsimp only [Ftp.step]
    cases w.conn? id with
    | none => exact h
    | some conn =>
      match recv with
      | none | some [] => exact ConnList.dropConn (w := w.fdClr conn.sockfd) ⟨h.ids, h.fresh⟩ conn
      | some (b :: bs) =>
        -- without memory for the request the connection is dropped
        cases ho : o.malloc with
        | false =>
          dsimp only
          rw [serveStep_noMem w conn b bs ho]
          exact (h.afterRequest rfl).dropConn conn
        | true =>
          have hid := (keeps_execute_conn o (w.req conn (request (b :: bs)))
            (request (b :: bs))).id
          dsimp only
          rw [serveStep_request w conn b bs ho rfl]
          split
          · exact (h.afterRequest hid).dropConn _
          · exact h.afterRequest hid

end NucleoH743.Ftp
