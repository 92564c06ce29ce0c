import NucleoH743.Ftp.ConnList
import NucleoH743.Proofs.Ftp.Service

/-!
# `Proofs.Ftp.ConnList`: the connection list holds the live connections

`destroy_conn` looks for the connection before its argument, and the service loop saves the next
connection before its body can free the current one. Both are right because a connection stands
once in the list.

The list is one in memory: a head, and in each connection a pointer to the next one. A pointer to
memory that was freed is an error of the model, and a loop has a fuel. So the statement that a pass
comes to its end without an error says that no freed connection was read and no loop was endless.

`Holds` relates the pointers to a list of addresses. The three operations of the code are lemmas on
it: `alloc_new_conn` puts an address in front, `destroy_conn` takes one out, and a field that is not
the pointer changes nothing. In a pass the list splits in the connections that were visited and
those still to come, and the pointer that was saved is the first of the latter, whatever the visit
did to its own connection.

The service loop of `Ftp.Ftpd` works on a list of records and knows no pointers. Its steps change
the addresses exactly as the operations here change the list, which is what connects the two.

- `connList_correct`: after every history the list holds the live connections, a destroyed one
  leaves it, and a pass visits every connection once.
- `holds_step`: the connections of `Ftp.Ftpd` are such a list.
-/

set_option autoImplicit false

namespace NucleoH743.Ftp.ConnHeap

open LinkedList (Cell Heap Seg IsList seg_append)

variable {A V : Type} [DecidableEq A]

/-- `conn_list` is a list of the connections `l`, and no other structure is allocated. -/
structure Holds (s : Conns A V) (l : List A) : Prop where
  list : IsList s.heap s.connList l
  allocated : ∀ conn, (s.heap conn).isSome = true ↔ conn ∈ l

omit [DecidableEq A] in

/-- An empty list has no elements. -/
theorem Holds.empty : Holds (Conns.empty : Conns A V) [] where
  list := ⟨rfl, List.nodup_nil⟩
  allocated := fun conn => by simp [Conns.empty]

section Ops
variable {s : Conns A V} {l m : List A} {conn : A}

/-- A new connection stands in front. -/
theorem Holds.alloc (hs : Holds s l) (hfresh : conn ∉ l) (val : V) :
    Holds (allocNewConn s conn val) (conn :: l) where
  list := hs.list.cons hfresh val
  allocated := by
    intro b
    by_cases hb : b = conn
    · subst hb
      simp [allocNewConn]
    · simp [allocNewConn, hs.allocated b, hb]

/-- The search ends at the connection before its argument. By induction on the list in front of the
connection. Each turn of the loop follows one pointer, to a connection that is allocated. -/
theorem findPrev_eq {heap : Heap A V} {p : Option A} {prev : A}
    (hl : IsList heap p (l ++ prev :: conn :: m)) {list : A} (hp : p = some list) (k : Nat) :
    findPrev heap conn (l.length + 1 + k) list = some prev := by
  induction l generalizing p list with
  | nil =>
    obtain ⟨hhead, c, hc, htail⟩ := hl.cases
    obtain rfl : list = prev := Option.some.inj (hp.symm.trans hhead)
    have hnext : c.next = some conn := htail.cases.1
    rw [Nat.add_right_comm, findPrev, hc]
    exact if_pos hnext
  | cons b l ih =>
    obtain ⟨hhead, c, hc, htail⟩ := hl.cases
    obtain rfl : list = b := Option.some.inj (hp.symm.trans hhead)
    -- the next connection is not the argument, which stands behind `prev`
    obtain ⟨next, hnext, hne⟩ : ∃ next, c.next = some next ∧ next ≠ conn := by
      have hnodup := htail.nodup
      cases l with
      | nil =>
        have hne : prev ≠ conn := by
          rintro rfl
          exact (List.nodup_cons.1 hnodup).1 List.mem_cons_self
        exact ⟨prev, htail.cases.1, hne⟩
      | cons d l =>
        have hne : d ≠ conn := by
          rintro rfl
          exact (List.nodup_cons.1 hnodup).1
            (List.mem_append_right _ (List.mem_cons_of_mem _ List.mem_cons_self))
        exact ⟨d, htail.cases.1, hne⟩
    have hskip : ¬ c.next = some conn := by
      rw [hnext]
      exact fun h => hne (Option.some.inj h)
    have hfuel : (list :: l).length + 1 + k = l.length + 1 + k + 1 := by
      rw [List.length_cons]
      omega
    have hrest := ih htail hnext
    rw [hfuel]
    show (heap list).bind _ = _
    rw [hc, Option.bind_some, if_neg hskip, hnext]
    exact hrest

/-- Freeing a connection leaves the others. -/
theorem free_of_ne {heap : Heap A V} {b : A} (hb : b ≠ conn) : free heap conn b = heap b :=
  Function.update_of_ne hb ..

/-- What is written to a connection before it is freed does not matter. -/
theorem free_update (heap : Heap A V) (c : Option (Cell A V)) :
    free (Function.update heap conn c) conn = free heap conn := Function.update_idem ..

omit [DecidableEq A] in
/-- A connection stands once in the list. -/
theorem Holds.once (hs : Holds s (l ++ conn :: m)) : conn ∉ l ++ m := by
  have hperm : (l ++ conn :: m).Perm (conn :: (l ++ m)) := List.perm_middle
  exact (List.nodup_cons.1 (hperm.nodup_iff.1 hs.list.nodup)).1

/-- What is allocated after a connection was freed. -/
theorem isSome_free {heap : Heap A V} (hlive : ∀ b, (heap b).isSome = true ↔ b ∈ l ++ conn :: m)
    (honce : conn ∉ l ++ m) (b : A) : (free heap conn b).isSome = true ↔ b ∈ l ++ m := by
  by_cases hb : b = conn
  · subst hb
    have hnone : free heap b b = none := Function.update_self ..
    rw [hnone]
    exact iff_of_false Bool.false_ne_true honce
  · rw [free_of_ne hb, hlive b]
    simp [hb]

/-- Writing to a connection leaves what is allocated. -/
theorem isSome_update {heap : Heap A V} {c : Cell A V} (hc : heap conn = some c) (c' : Cell A V)
    (b : A) : (Function.update heap conn (some c') b).isSome = (heap b).isSome := by
  by_cases hb : b = conn
  · subst hb
    rw [Function.update_self, hc]
    rfl
  · rw [Function.update_of_ne hb]

/-- `destroy_conn` of the head. -/
theorem Holds.destroy_head (hs : Holds s (conn :: m)) (fuel : Nat) :
    ∃ p, destroyConn fuel s conn = some ⟨free s.heap conn, p⟩ ∧
      IsList (free s.heap conn) p m := by
  obtain ⟨hhead, c, hc, htail⟩ := hs.list.cases
  refine ⟨c.next, ?_, htail.update (List.nodup_cons.1 hs.list.nodup).1 none⟩
  rw [destroyConn, if_pos hhead, hc, setNext, hc]
  show some (Conns.mk (free (Function.update s.heap conn _) conn) c.next) = _
  rw [free_update]

/-- `destroy_conn` of a connection behind another one. The pointer of its predecessor is changed to
its successor, and the structure is freed. The others are not touched. -/
theorem Holds.destroy_behind {prev : A} (hs : Holds s (l ++ prev :: conn :: m)) (k : Nat) :
    ∃ heap, destroyConn (l.length + 1 + k) s conn = some ⟨free heap conn, s.connList⟩ ∧
      IsList (free heap conn) s.connList (l ++ prev :: m) ∧
      ∀ b, (heap b).isSome = (s.heap b).isSome := by
  have hshift : l ++ prev :: conn :: m = (l ++ [prev]) ++ conn :: m := by simp
  have honce : conn ∉ (l ++ [prev]) ++ m := (hshift ▸ hs).once
  obtain ⟨cp, hcp⟩ := hs.list.allocated (List.mem_append_right l List.mem_cons_self)
  obtain ⟨c, hc⟩ := hs.list.allocated
    (List.mem_append_right l (List.mem_cons_of_mem prev List.mem_cons_self))
  -- the head is another connection
  obtain ⟨list, hlist, hne⟩ : ∃ list, s.connList = some list ∧ list ≠ conn := by
    have hhead := hs.list.head
    cases l with
    | nil => exact ⟨prev, hhead, fun heq => honce (heq ▸ List.mem_cons_self)⟩
    | cons b l => exact ⟨b, hhead, fun heq => honce (heq ▸ List.mem_cons_self)⟩
  have hnot : ¬ s.connList = some conn := by
    rw [hlist]
    exact fun h => hne (Option.some.inj h)
  have hprev := findPrev_eq hs.list hlist k
  have hconn : conn ≠ prev := fun heq => honce (by simp [heq])
  have hc' : Function.update s.heap prev (some { cp with next := c.next }) conn = some c := by
    rw [Function.update_of_ne hconn, hc]
  refine ⟨Function.update s.heap prev (some { cp with next := c.next }), ?_,
    (hs.list.unlink hcp hc).update ?_ none, isSome_update hcp _⟩
  · rw [destroyConn, if_neg hnot, hlist]
    show (findPrev s.heap conn _ list).bind _ = _
    rw [hprev]
    show (s.heap conn).bind _ = _
    rw [hc]
    show (setNext s.heap prev c.next).bind _ = _
    rw [setNext, hcp]
    show (setNext (Function.update s.heap prev _) conn none).bind _ = _
    rw [setNext, hc']
    show some (Conns.mk (free (Function.update _ conn _) conn) (some list)) = _
    rw [free_update]
  · intro hmem
    exact honce (by simpa using hmem)

/-- `destroy_conn` takes its argument out of the list and leaves the order of the others. -/
theorem Holds.destroy (hs : Holds s (l ++ conn :: m)) (k : Nat) :
    ∃ s', destroyConn (l.length + k) s conn = some s' ∧ Holds s' (l ++ m) := by
  have honce := hs.once
  rcases List.eq_nil_or_concat l with rfl | ⟨init, prev, rfl⟩
  · obtain ⟨p, hrun, hlist⟩ := hs.destroy_head (0 + k)
    exact ⟨_, hrun, hlist, isSome_free hs.allocated honce⟩
  · have hshift : init.concat prev ++ conn :: m = init ++ prev :: conn :: m := by simp
    have hrest : init.concat prev ++ m = init ++ prev :: m := by simp
    have hlen : (init.concat prev).length + k = init.length + 1 + k := by simp
    obtain ⟨heap, hrun, hlist, hsome⟩ := (hshift ▸ hs).destroy_behind k
    rw [hlen]
    refine ⟨_, hrun, hrest ▸ hlist, isSome_free (fun b => ?_) honce⟩
    rw [hsome b]
    exact hs.allocated b

omit [DecidableEq A] in
/-- The saved pointer of a connection is the next one of the list. -/
theorem Holds.next (hs : Holds s (l ++ conn :: m)) {c : Cell A V} (hc : s.heap conn = some c) :
    c.next = m.head? := by
  obtain ⟨r, -, -, c', hc', htail⟩ := seg_append.1 hs.list.seg
  obtain rfl : c = c' := Option.some.inj (hc.symm.trans hc')
  have hnodup : m.Nodup := (List.nodup_cons.1 (List.nodup_append.1 hs.list.nodup).2.1).2
  exact IsList.head ⟨htail, hnodup⟩

/-- New fields of a connection leave the list. -/
theorem Holds.setVal (hs : Holds s l) {c : Cell A V} (hc : s.heap conn = some c) (val : V) :
    Holds { s with heap := Function.update s.heap conn (some { c with val }) } l where
  list := hs.list.setVal hc val
  allocated := fun b => by
    rw [isSome_update hc]
    exact hs.allocated b

/-- One turn of the service loop. -/
theorem servicePass_some {b : Serve A V} {fuel n : Nat} {c : Cell A V} (hc : s.heap conn = some c)
    {s₁ s₂ : Conns A V} {visited : List A} (hserve : serveConn b fuel s conn c = some s₁)
    (hrest : servicePass b fuel n s₁ c.next = some (s₂, visited)) :
    servicePass b fuel (n + 1) s (some conn) = some (s₂, conn :: visited) := by
  rw [servicePass, hc]
  show (serveConn b fuel s conn c).bind _ = _
  rw [hserve]
  show (servicePass b fuel n s₁ c.next).bind _ = _
  rw [hrest]
  rfl

/-- A pass from the middle of the list on. `done` are the connections before it that are still
there. By induction on the connections that are still to be visited. The saved pointer is read
before the body runs, so it does not matter whether the body frees its own connection. -/
theorem Holds.pass (b : Serve A V) {done todo : List A} (hs : Holds s (done ++ todo)) (k j : Nat) :
    ∃ s', servicePass b (done.length + todo.length + k) (todo.length + 1 + j) s todo.head? =
        some (s', todo) ∧
      Holds s' (done ++ todo.filter fun conn => !b.ends conn) := by
  induction todo generalizing s done k with
  | nil =>
    have hfuel : ([] : List A).length + 1 + j = j + 1 := Nat.add_comm _ _
    rw [hfuel]
    exact ⟨s, rfl, hs⟩
  | cons conn rest ih =>
    obtain ⟨c, hc⟩ := hs.list.allocated (List.mem_append_right done List.mem_cons_self)
    have hnext := hs.next hc
    have hserved := hs.setVal hc (b.fields conn c.val)
    have hfuel : (conn :: rest).length + 1 + j = rest.length + 1 + j + 1 := by
      rw [List.length_cons]
      omega
    cases hends : b.ends conn with
    | true =>
      -- the body frees the connection, and the saved pointer leads on
      have hdestroy : done.length + (conn :: rest).length + k =
          done.length + (rest.length + 1 + k) := by
        rw [List.length_cons]
        omega
      obtain ⟨s₁, hrun₁, hs₁⟩ := hserved.destroy (rest.length + 1 + k)
      obtain ⟨s₂, hrun₂, hs₂⟩ := ih hs₁ (k + 1)
      have hsame : done.length + rest.length + (k + 1) = done.length + (rest.length + 1 + k) := by
        omega
      rw [hsame] at hrun₂
      refine ⟨s₂, ?_, by simpa [hends] using hs₂⟩
      rw [hfuel, hdestroy]
      exact servicePass_some hc ((if_pos hends).trans hrun₁) (hnext ▸ hrun₂)
    | false =>
      have hmove : done ++ conn :: rest = (done ++ [conn]) ++ rest := by simp
      have hlen : (done ++ [conn]).length + rest.length + k =
          done.length + (conn :: rest).length + k := by
        simp only [List.length_append, List.length_cons, List.length_nil]
        omega
      have hkept : Holds _ ((done ++ [conn]) ++ rest) := hmove ▸ hserved
      obtain ⟨s₂, hrun₂, hs₂⟩ := ih hkept k
      rw [hlen] at hrun₂
      refine ⟨s₂, ?_, by simpa [hends] using hs₂⟩
      rw [hfuel]
      exact servicePass_some hc (if_neg (by simp [hends])) (hnext.symm ▸ hrun₂)

end Ops

/-! ### Histories -/

section Histories
variable {s : Conns A V} {l : List A}

/-- `destroy_conn` of a live connection, with a fuel of at least the length of the list. -/
theorem Holds.destroyConn (hs : Holds s l) {fuel : Nat} (hfuel : l.length ≤ fuel) {conn : A}
    (hconn : conn ∈ l) :
    ∃ s', ConnHeap.destroyConn fuel s conn = some s' ∧ Holds s' (l.erase conn) := by
  obtain ⟨init, rest, hfresh, rfl, herase⟩ := List.exists_erase_eq hconn
  obtain ⟨k, rfl⟩ : ∃ k, fuel = init.length + k :=
    ⟨fuel - init.length, by simp only [List.length_append] at hfuel; omega⟩
  obtain ⟨s', hrun, hs'⟩ := hs.destroy k
  exact ⟨s', hrun, herase ▸ hs'⟩

/-- A pass over the whole list. -/
theorem Holds.servicePass (hs : Holds s l) {fuel : Nat} (hfuel : l.length < fuel)
    (b : Serve A V) :
    ∃ s', ConnHeap.servicePass b fuel fuel s s.connList = some (s', l) ∧
      Holds s' (l.filter fun conn => !b.ends conn) := by
  obtain ⟨j, rfl⟩ : ∃ j, fuel = l.length + 1 + j := ⟨fuel - (l.length + 1), by omega⟩
  have hall : Holds s ([] ++ l) := hs
  have hpass := hall.pass b (1 + j) j
  have hlen : ([] : List A).length + l.length + (1 + j) = l.length + 1 + j := by
    rw [List.length_nil]
    omega
  rw [hlen, ← hs.list.head] at hpass
  exact hpass

/-- An event adds at most one connection. -/
theorem length_live_le (l : List A) (e : Event A V) : (live l e).length ≤ l.length + 1 := by
  cases e with
  | accept conn val =>
    show (if conn ∈ l then l else conn :: l).length ≤ _
    split
    · exact Nat.le_succ _
    · exact Nat.le_refl _
  | destroy conn =>
    have hle : (l.erase conn).length ≤ l.length := List.length_erase_le
    exact Nat.le_succ_of_le hle
  | pass b => exact Nat.le_succ_of_le (List.length_filter_le _ _)

/-- One event keeps the list. By the event. It needs no more fuel than there are connections, and
one. -/
theorem Holds.step (hs : Holds s l) {fuel : Nat} (hfuel : l.length < fuel) (e : Event A V) :
    ∃ s', ConnHeap.step fuel s e = some s' ∧ Holds s' (live l e) := by
  cases e with
  | accept conn val =>
    -- the allocator gives out no block that is in use
    by_cases hconn : conn ∈ l
    · have hsome := (hs.allocated conn).2 hconn
      refine ⟨s, if_pos hsome, ?_⟩
      rw [live, if_pos hconn]
      exact hs
    · have hnone : ¬ (s.heap conn).isSome = true := fun h => hconn ((hs.allocated conn).1 h)
      refine ⟨_, if_neg hnone, ?_⟩
      rw [live, if_neg hconn]
      exact hs.alloc hconn val
  | destroy conn =>
    by_cases hconn : conn ∈ l
    · obtain ⟨s', hrun, hs'⟩ := hs.destroyConn (Nat.le_of_lt hfuel) hconn
      exact ⟨s', (if_pos ((hs.allocated conn).2 hconn)).trans hrun, hs'⟩
    · have hnone : ¬ (s.heap conn).isSome = true := fun h => hconn ((hs.allocated conn).1 h)
      refine ⟨s, if_neg hnone, ?_⟩
      rw [live, List.erase_of_not_mem hconn]
      exact hs
  | pass b =>
    obtain ⟨s', hrun, hs'⟩ := hs.servicePass hfuel b
    refine ⟨s', ?_, hs'⟩
    rw [ConnHeap.step, hrun]
    rfl

/-- A history keeps the list, with a fuel above the number of its events. By induction on the
events; each adds one connection at most. -/
theorem Holds.run (hs : Holds s l) {fuel : Nat} (es : List (Event A V))
    (hfuel : l.length + es.length < fuel) :
    ∃ s', es.foldlM (ConnHeap.step fuel) s = some s' ∧ Holds s' (es.foldl live l) ∧
      (es.foldl live l).length ≤ l.length + es.length := by
  induction es generalizing s l with
  | nil => exact ⟨s, rfl, hs, Nat.le_refl _⟩
  | cons e es ih =>
    rw [List.length_cons] at hfuel
    have hlen := length_live_le l e
    have hfirst : l.length < fuel := by omega
    -- an event adds one connection at most, so that the fuel lasts
    have hthen : (live l e).length + es.length < fuel := by omega
    obtain ⟨s₁, hrun, hs₁⟩ := hs.step hfirst e
    obtain ⟨s₂, hrest, hs₂, hle⟩ := ih hs₁ hthen
    refine ⟨s₂, ?_, hs₂, ?_⟩
    · rw [List.foldlM_cons, hrun]
      exact hrest
    · rw [List.foldl_cons, List.length_cons]
      omega

end Histories

/-- After every history `conn_list` is a finite list of exactly the live connections, each once.
Destroying one of them takes it out and leaves the order of the others, and a pass visits every
one of them once, whichever it destroys. -/
theorem connList_correct (es : List (Event A V)) (k : Nat) :
    ∃ s, run (es.length + 1 + k) es = some s ∧ Holds s (es.foldl live []) ∧
      (∀ conn ∈ es.foldl live [], ∃ s', destroyConn (es.length + 1 + k) s conn = some s' ∧
        Holds s' ((es.foldl live []).erase conn)) ∧
      ∀ b : Serve A V, ∃ s',
        servicePass b (es.length + 1 + k) (es.length + 1 + k) s s.connList =
          some (s', es.foldl live []) ∧
        Holds s' ((es.foldl live []).filter fun conn => !b.ends conn) := by
  have hfuel : ([] : List A).length + es.length < es.length + 1 + k := by
    rw [List.length_nil]
    omega
  obtain ⟨s, hrun, hs, hle⟩ := Holds.empty.run es hfuel
  rw [List.length_nil] at hle
  refine ⟨s, hrun, hs, fun conn hconn => ?_, fun b => ?_⟩
  · exact hs.destroyConn (by omega) hconn
  · exact hs.servicePass (by omega) b

/-! ### The connections of `Ftp.Ftpd` -/

section Ftpd
variable {w : World}

/-- The addresses of the connections. -/
def ids (w : World) : List Nat := w.conns.map Conn.id

/-- Dropping a connection takes its address out. -/
theorem ids_dropConn (hw : ConnList w) (conn : Conn) :
    ids (w.dropConn conn) = (ids w).erase conn.id := by
  have herase := List.Nodup.erase_eq_filter hw.ids conn.id
  show (w.conns.filter fun c => c.id ≠ conn.id).map Conn.id = (w.conns.map Conn.id).erase conn.id
  rw [herase, List.filter_map]
  congr 1
  exact List.filter_congr fun c _ => by simp [bne, Bool.beq_eq_decide_eq]

/-- A request keeps the address of its connection, which is stored or dropped. -/
theorem serveStep_cases (w : World) (conn : Conn) (b : UInt8) (bs : List UInt8) (o : Outcome) :
    ∃ q : Req, q.conn.id = conn.id ∧
      (serveStep w conn (some (b :: bs)) o = w.afterRequest conn (b :: bs).length q ∨
        serveStep w conn (some (b :: bs)) o =
          (w.afterRequest conn (b :: bs).length q).dropConn q.conn) := by
  cases ho : o.malloc with
  | false => exact ⟨_, rfl, .inr (serveStep_noMem w conn b bs ho)⟩
  | true =>
    have hid := (keeps_execute_conn o (w.req conn (request (b :: bs))) (request (b :: bs))).id
    refine ⟨(execute o (w.req conn (request (b :: bs))) (request (b :: bs))).2, hid, ?_⟩
    rw [serveStep_request w conn b bs ho rfl]
    split
    · exact .inr rfl
    · exact .inl rfl

/-- A step of the service loop leaves the addresses, puts a new one in front, or takes one out. By
the event: `select` leaves them, an accepted connection gets a new address, and a served one keeps
its own or is dropped with it. -/
theorem ids_step (hw : ConnList w) (e : Ftp.Event)
    (hmem : ∀ fd remote, e ≠ .accept fd remote none) :
    ids (Ftp.step w e) = ids w ∨ ids (Ftp.step w e) = w.nextConn :: ids w ∨
      ∃ id ∈ ids w, ids (Ftp.step w e) = (ids w).erase id := by
  cases e with
  | select =>
    obtain ⟨readfds, hsel⟩ := selectStep_frame w
    refine .inl ?_
    show ids (selectStep w) = _
    rw [hsel]
    rfl
  | accept fd remote mem =>
    cases mem with
    | none => exact absurd rfl (hmem fd remote)
    | some m =>
      have hsome : (some m).isSome = true := rfl
      -- `accept` itself may have failed
      rcases acceptStep_cases w fd remote hsome with h | ⟨n, m', -, h⟩
      · exact .inl (congrArg ids h)
      · exact .inr (.inl (congrArg ids h))
  | serve id recv o =>
    dsimp only [Ftp.step]
    cases hconn : w.conn? id with
    | none => exact .inl rfl
    | some conn =>
      have hin : conn.id ∈ ids w := List.mem_map_of_mem (World.conn?_eq hconn).1
      match recv with
      -- the peer has closed, and its connection is destroyed
      | none | some [] =>
        have hclr : ConnList (w.fdClr conn.sockfd) := ⟨hw.ids, hw.fresh⟩
        exact .inr (.inr ⟨conn.id, hin, ids_dropConn hclr conn⟩)
      | some (b :: bs) =>
        obtain ⟨q, hid, hserve⟩ := serveStep_cases w conn b bs o
        have hids : ids (w.afterRequest conn (b :: bs).length q) = ids w :=
          ConnList.ids_afterRequest w hid
        rcases hserve with h | h
        · exact .inl ((congrArg ids h).trans hids)
        · refine .inr (.inr ⟨conn.id, hin, ?_⟩)
          rw [← hids, ← hid]
          exact (congrArg ids h).trans (ids_dropConn (hw.afterRequest hid) q.conn)

/-- The connections of the service loop stay a list in memory: each step leaves it, or is
`alloc_new_conn` or `destroy_conn` on it. -/
theorem holds_step {s : Conns Nat Conn} (hw : ConnList w) (hs : Holds s (ids w)) (e : Ftp.Event)
    (hmem : ∀ fd remote, e ≠ .accept fd remote none) (val : Conn) :
    ∃ s', Holds s' (ids (Ftp.step w e)) ∧
      (s' = s ∨ s' = allocNewConn s w.nextConn val ∨
        ∃ id ∈ ids w, destroyConn (ids w).length s id = some s') := by
  rcases ids_step hw e hmem with h | h | ⟨id, hid, h⟩
  · exact ⟨s, h ▸ hs, .inl rfl⟩
  -- the new block is none of those in the list
  · have hfresh : w.nextConn ∉ ids w := by
      intro hin
      obtain ⟨c, hc, heq⟩ := List.mem_map.1 hin
      have hlt := hw.fresh c hc
      omega
    exact ⟨_, h ▸ hs.alloc hfresh val, .inr (.inl rfl)⟩
  · obtain ⟨s', hrun, hs'⟩ := hs.destroyConn (Nat.le_refl _) hid
    exact ⟨s', h ▸ hs', .inr (.inr ⟨id, hid, hrun⟩)⟩

end Ftpd

end NucleoH743.Ftp.ConnHeap
