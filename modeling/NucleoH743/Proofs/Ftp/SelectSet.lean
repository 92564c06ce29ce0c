import NucleoH743.Proofs.Ftp.Service

/-!
# `Proofs.Ftp.SelectSet`: what `select` waits for

`SelectSet` says that the next call of `select` gets the listening socket and the control
sockets of the connections, and nothing that is closed. A connection that the service loop
drops after its request stays in the set, and a command may close a descriptor that is not its
own. `SelectFits` leaves these steps out, and `select_set_exact` shows that every other run
keeps the set exact.

The set `readfds` of the thread grows where a connection is accepted and before `select`, which adds
the control sockets again, and it shrinks in one place only: where `recv` finds that the client has
gone. The invariant `SelectInv` says what is in the set between two steps, and which descriptors are
open.

Two more steps can break it besides the end of a connection behind its request. `PASV` and a
transfer close the number in `pasv_sockfd`, which may be the control socket of another session by
then, and without memory for a new connection the list of the connections is lost. The condition is
on the step alone, and on the state in front of it.
-/

set_option autoImplicit false

namespace NucleoH743.Ftp

open EventRun
open CStr (textBytes)

/-- The listening socket and the control sockets of the connections. -/
def World.Control (w : World) (fd : Int) : Prop := fd = w.sockfd ∨ ∃ c ∈ w.conns, c.sockfd = fd

instance (w : World) (fd : Int) : Decidable (w.Control fd) :=
  inferInstanceAs (Decidable (_ ∨ _))

/-- The descriptors at the next call of `select`. -/
def SelectSet (w : World) : Prop :=
  (∀ fd, fd ∈ (selectStep w).readfds ↔ w.Control fd) ∧
    ∀ fd ∈ (selectStep w).readfds, w.sockets fd = true

/-- The steps that keep the set exact: a request does not end its connection, a command that
closes `pasv_sockfd` finds no control socket there, and an accepted connection gets memory. -/
def SelectFits (w : World) : Event → Prop
  | .select => True
  | .accept _ _ mem => mem.isSome = true
  | .serve id recv o =>
    match w.conn? id, recv with
    | some conn, some (b :: bs) =>
      let line := request (b :: bs)
      o.malloc = true ∧ ¬ Ends o (w.req conn line) line ∧
        (ClosesPasv o (w.req conn line) line → ¬ w.Control conn.pasvSockfd)
    | _, _ => True

instance (w : World) (e : Event) : Decidable (SelectFits w e) :=
  match e with
  | .select => isTrue trivial
  | .accept _ _ _ => inferInstanceAs (Decidable (_ = _))
  | .serve id recv o =>
    show Decidable (match w.conn? id, recv with
      | some conn, some (b :: bs) =>
        let line := request (b :: bs)
        o.malloc = true ∧ ¬ Ends o (w.req conn line) line ∧
          (ClosesPasv o (w.req conn line) line → ¬ w.Control conn.pasvSockfd)
      | _, _ => True) from
    match w.conn? id, recv with
    | some _, some (_ :: _) => inferInstanceAs (Decidable (_ ∧ _ ∧ _))
    | some _, some [] | some _, none | none, some _ | none, none => isTrue trivial

/-- The set and the descriptors between the steps. -/
structure SelectInv (w : World) : Prop where
  list : ConnList w
  readfds : ∀ fd ∈ w.readfds, w.Control fd
  listening : w.sockfd ∈ w.readfds
  opened : ∀ fd, w.Control fd → w.sockets fd = true
  nonneg : ∀ fd, w.Control fd → 0 ≤ fd
  distinct : (w.conns.map Conn.sockfd).Nodup
  notListening : ∀ c ∈ w.conns, c.sockfd ≠ w.sockfd

/-- By the invariant the set is the listening socket and the sockets of the sessions. -/
theorem SelectInv.selectSet {w : World} (h : SelectInv w) : SelectSet w := by
  have hmem : ∀ fd, fd ∈ (selectStep w).readfds ↔ w.Control fd := by
    intro fd
    rw [mem_selectStep]
    constructor
    · rintro (hfd | hfd)
      · exact h.readfds fd hfd
      · exact Or.inr hfd
    · rintro (rfl | hfd)
      · exact Or.inl h.listening
      · exact Or.inr hfd
  exact ⟨hmem, fun fd hfd => h.opened fd ((hmem fd).1 hfd)⟩

/-- At the start the set is the listening socket. It is open, and there are no connections. -/
theorem selectInv_start (v : FatFs.Volume) (sockfd : Nat) : SelectInv (World.start v sockfd) where
  list := ⟨List.nodup_nil, by simp [World.start]⟩
  readfds := by
    intro fd hfd
    exact Or.inl (by simpa [World.start] using hfd)
  listening := List.mem_singleton_self _
  opened := by
    rintro fd (rfl | ⟨c, hc, -⟩)
    · show Function.update (fun _ => false) (sockfd : Int) true sockfd = true
      exact Function.update_self ..
    · simp [World.start] at hc
  nonneg := by
    rintro fd (rfl | ⟨c, hc, -⟩)
    · exact Int.natCast_nonneg _
    · simp [World.start] at hc
  distinct := List.nodup_nil
  notListening := by simp [World.start]

/-- `select` works on a copy of the set. -/
theorem selectInv_select {w : World} (h : SelectInv w) : SelectInv (selectStep w) := by
  have hmem := h.selectSet.1
  obtain ⟨readfds, heq⟩ := selectStep_frame w
  rw [heq] at hmem ⊢
  exact {
    list := ⟨h.list.ids, h.list.fresh⟩
    readfds := fun fd hfd => (hmem fd).1 hfd
    listening := (hmem _).2 (Or.inl rfl)
    opened := h.opened
    nonneg := h.nonneg
    distinct := h.distinct
    notListening := h.notListening }

/-- A new session adds its socket, where there is memory for it. Its descriptor was not in use, so
it is none of those in the set. Without memory for it the list of the connections is lost, and the
condition excludes this. -/
theorem selectInv_accept {w : World} (h : SelectInv w) (fd : Option Nat) (remote : UInt32)
    {mem : Option Fresh} (hmem : mem.isSome = true) : SelectInv (acceptStep w fd remote mem) := by
  rcases acceptStep_cases w fd remote hmem with heq | ⟨fd, m, hfree, heq⟩
  · rw [heq]
    exact h
  · rw [heq]
    -- the new descriptor is none of those in use
    have hpos : 0 ≤ (fd : Int) := Int.natCast_nonneg fd
    have hnew : ¬ w.Control fd := fun hcon => by simpa [hfree] using h.opened fd hcon
    exact {
      list := h.list.afterAccept fd remote m
      readfds := by
        intro fd' hfd'
        rcases List.mem_insert_iff.1 hfd' with rfl | hfd'
        · exact Or.inr ⟨_, List.mem_cons_self, rfl⟩
        · exact (h.readfds fd' hfd').imp id fun ⟨c, hc, heq⟩ => ⟨c, List.mem_cons_of_mem _ hc, heq⟩
      listening := List.mem_insert_of_mem h.listening
      opened := by
        intro fd' hfd'
        show Function.update w.sockets (fd : Int) true fd' = true
        by_cases heq : fd' = fd
        · rw [heq]
          exact Function.update_self ..
        · rw [Function.update_of_ne heq]
          rcases hfd' with hfd' | ⟨c, hc, hcfd⟩
          · exact h.opened fd' (Or.inl hfd')
          · rcases List.mem_cons.1 hc with rfl | hc
            · exact absurd hcfd.symm heq
            · exact h.opened fd' (Or.inr ⟨c, hc, hcfd⟩)
      nonneg := by
        rintro fd' (hfd' | ⟨c, hc, hcfd⟩)
        · exact h.nonneg fd' (Or.inl hfd')
        · rcases List.mem_cons.1 hc with rfl | hc
          · exact hcfd ▸ hpos
          · exact h.nonneg fd' (Or.inr ⟨c, hc, hcfd⟩)
      distinct := List.nodup_cons.2
        ⟨fun hmem => hnew (Or.inr (List.mem_map.1 hmem)), h.distinct⟩
      notListening := by
        intro c hc
        rcases List.mem_cons.1 hc with rfl | hc
        · exact fun heq => hnew (Or.inl heq)
        · exact h.notListening c hc }

/-- The client has gone: the set loses the control socket with the connection. `FD_CLR` and `close`
take the same descriptor, and no other connection has it. -/
theorem selectInv_disconnect {w : World} (h : SelectInv w) {conn : Conn} (hc : conn ∈ w.conns) :
    SelectInv ((w.fdClr conn.sockfd).dropConn conn) := by
  -- what is dropped is the one control descriptor that `FD_CLR` removes
  have hcontrol : ∀ fd, ((w.fdClr conn.sockfd).dropConn conn).Control fd ↔
      w.Control fd ∧ fd ≠ conn.sockfd := by
    intro fd
    constructor
    · rintro (hfd | ⟨c, hmem, hcfd⟩)
      · exact ⟨Or.inl hfd, fun heq => h.notListening conn hc (heq ▸ hfd)⟩
      · obtain ⟨hmem, hid⟩ := List.mem_filter.1 hmem
        refine ⟨Or.inr ⟨c, hmem, hcfd⟩, fun heq => ?_⟩
        have hsame : c = conn := List.inj_on_of_nodup_map h.distinct hmem hc (hcfd.trans heq)
        simp [hsame] at hid
    · rintro ⟨hfd | ⟨c, hmem, hcfd⟩, hne⟩
      · exact Or.inl hfd
      · refine Or.inr ⟨c, List.mem_filter.2 ⟨hmem, ?_⟩, hcfd⟩
        have hid : c.id ≠ conn.id := fun hid =>
          hne (hcfd ▸ congrArg Conn.sockfd (h.list.eq_of_id hmem hc hid))
        simpa using hid
  exact {
    list := ConnList.dropConn (w := w.fdClr conn.sockfd) ⟨h.list.ids, h.list.fresh⟩ conn
    readfds := by
      intro fd hfd
      obtain ⟨hmem, hne⟩ := List.mem_filter.1 hfd
      exact (hcontrol fd).2 ⟨h.readfds fd hmem, by simpa using hne⟩
    listening := List.mem_filter.2
      ⟨h.listening, by simpa using fun heq => h.notListening conn hc heq.symm⟩
    opened := by
      intro fd hfd
      obtain ⟨hfd, hne⟩ := (hcontrol fd).1 hfd
      show Function.update w.sockets conn.sockfd false fd = true
      rw [Function.update_of_ne hne]
      exact h.opened fd hfd
    nonneg := fun fd hfd => h.nonneg fd ((hcontrol fd).1 hfd).1
    distinct := h.distinct.sublist (List.filter_sublist.map Conn.sockfd)
    notListening := fun c hmem => h.notListening c (List.mem_filter.1 hmem).1 }

/-- A request that keeps the connection. By `Keeps` it has closed no control socket, and it has left
the set alone. -/
theorem selectInv_request {w : World} (h : SelectInv w) {conn : Conn} (hc : conn ∈ w.conns)
    {n : Nat} {q : Req} (hq : Keeps w.Control { vol := w.vol, sockets := w.sockets, conn } q) :
    SelectInv (w.afterRequest conn n q) := by
  have hmap : (w.afterRequest conn n q).conns.map Conn.sockfd = w.conns.map Conn.sockfd := by
    show (w.conns.map _).map Conn.sockfd = _
    rw [List.map_map]
    refine List.map_congr_left fun c hmem => ?_
    show (if c.id = conn.id then q.conn else c).sockfd = c.sockfd
    split
    · next hid => rw [hq.sockfd, h.list.eq_of_id hmem hc hid]
    · rfl
  have hcontrol : ∀ fd, (w.afterRequest conn n q).Control fd ↔ w.Control fd := by
    intro fd
    show fd = w.sockfd ∨ _ ↔ fd = w.sockfd ∨ _
    rw [← List.mem_map, ← List.mem_map, hmap]
  exact {
    list := h.list.afterRequest hq.id
    readfds := fun fd hfd => (hcontrol fd).2 (h.readfds fd hfd)
    listening := h.listening
    opened := fun fd hfd => hq.opened h.opened fd ((hcontrol fd).1 hfd)
    nonneg := fun fd hfd => h.nonneg fd ((hcontrol fd).1 hfd)
    distinct := hmap ▸ h.distinct
    notListening := by
      intro c hmem
      have hfd : c.sockfd ∈ w.conns.map Conn.sockfd := hmap ▸ List.mem_map_of_mem hmem
      obtain ⟨c', hc', heq⟩ := List.mem_map.1 hfd
      exact heq ▸ h.notListening c' hc' }

/-- Every step that fits keeps the set exact. By the event, and for a request by whether it ends its
connection. -/
theorem selectInv_step {w : World} {e : Event} (h : SelectInv w) (hfits : SelectFits w e) :
    SelectInv (step w e) := by
  cases e with
  | select => exact selectInv_select h
  | accept fd remote mem => exact selectInv_accept h fd remote hfits
  | serve id recv o =>
    dsimp only [step]
    cases hconn : w.conn? id with
    | none => exact h
    | some conn =>
      obtain ⟨hc, -⟩ := World.conn?_eq hconn
      cases recv with
      | none => exact selectInv_disconnect h hc
      | some chunk =>
        cases chunk with
        | nil => exact selectInv_disconnect h hc
        | cons b bs =>
          dsimp only [SelectFits] at hfits
          rw [hconn] at hfits
          obtain ⟨hmem, hends, hpasv⟩ := hfits
          dsimp only
          rw [serveStep_request w conn b bs hmem rfl,
            if_neg (mt (execute_fst_iff _ _ _).1 hends)]
          have hlog : Keeps w.Control { vol := w.vol, sockets := w.sockets, conn }
              (w.req conn (request (b :: bs))) := (Keeps.refl _).emit
          refine selectInv_request h hc (hlog.trans ?_)
          exact keeps_execute o _ h.opened (fun hneg => by have := h.nonneg _ hneg; omega) hpasv

/-- In a run whose steps all fit, each `select` waits for exactly the open control sockets. None
that is closed is in the set, and the listening socket always is. By the invariant `SelectInv`,
which each step that fits keeps. -/
theorem select_set_exact (v : FatFs.Volume) (sockfd : Nat) {es : List Event}
    (h : Along step SelectFits (World.start v sockfd) es) :
    SelectSet (run step (World.start v sockfd) es) :=
  (run_inv (fun _ _ => selectInv_step) (selectInv_start v sockfd) h).selectSet

/-- A client connects, asks for the working directory and goes. -/
theorem select_set_exact_pwd :
    SelectSet (run step (World.start emptyDisk 0)
      [.select, .accept (some 1) 0 (some ⟨false, 0, 0⟩),
        .serve 0 (some (textBytes "PWD\r\n")) {}, .select, .serve 0 none {}]) :=
  select_set_exact emptyDisk 0 (by decide)

/-- After `QUIT` the closed control socket stays in the set of the next `select`. -/
theorem quit_stays_in_set :
    let w := run step (World.start emptyDisk 0)
      [.select, .accept (some 1) 0 (some ⟨false, 0, 0⟩), .serve 0 (some (textBytes "QUIT\r\n")) {}]
    (1 : Int) ∈ (selectStep w).readfds ∧ w.sockets 1 = false ∧ ¬ SelectSet w := by
  intro w
  have hset : (1 : Int) ∈ (selectStep w).readfds := by decide
  have hclosed : w.sockets 1 = false := by decide
  refine ⟨hset, hclosed, fun h => ?_⟩
  have hopen := h.2 1 hset
  simp [hclosed] at hopen

end NucleoH743.Ftp
