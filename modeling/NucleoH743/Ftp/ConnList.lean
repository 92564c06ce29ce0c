import NucleoH743.Lib.LinkedList

/-!
# `Ftp.ConnList`: the connection list of the FTP server in memory

`alloc_new_conn`, `destroy_conn` and the service loop of `ftpd_thread` on the heap. `A` are the
addresses of the connection structures, and `V` are their fields other than `next`. A function is
`none` where the code follows a null pointer or one to memory that is not allocated, or where a
loop has no more fuel.

`Ftp.Ftpd` has the connections as a list of structures, and removes one from it. The code has
pointers: `destroy_conn` looks for the predecessor of the structure, and the loop of `ftpd_thread`
reads `next` of a structure that its own body may have freed. That the pointers of the code are such
a list, and that no freed memory is read, is what `Proofs.Ftp.ConnList` shows of this model.
-/

set_option autoImplicit false

namespace NucleoH743.Ftp.ConnHeap

open LinkedList (Cell Heap)

variable {A V : Type} [DecidableEq A]

/-- The connection structures, and `conn_list`. -/
structure Conns (A V : Type) where
  heap : Heap A V
  connList : Option A

/-- No connection. -/
def Conns.empty : Conns A V := ⟨fun _ => none, none⟩

/-- `conn->next = next` -/
def setNext (heap : Heap A V) (conn : A) (next : Option A) : Option (Heap A V) :=
  (heap conn).map fun c => Function.update heap conn (some { c with next })

/-- `free(conn)` -/
def free (heap : Heap A V) (conn : A) : Heap A V := Function.update heap conn none

/-- `alloc_new_conn`, where `malloc` returns `conn`, and what the caller writes to the structure. -/
def allocNewConn (s : Conns A V) (conn : A) (val : V) : Conns A V where
  heap := Function.update s.heap conn (some ⟨s.connList, val⟩)
  connList := some conn

/-- `while (list->next != conn) list = list->next;` -/
def findPrev (heap : Heap A V) (conn : A) : Nat → A → Option A
  | 0, _ => none
  | fuel + 1, list => do
    let c ← heap list
    if c.next = some conn then some list
    else
      let next ← c.next
      findPrev heap conn fuel next

/-- `destroy_conn` -/
def destroyConn (fuel : Nat) (s : Conns A V) (conn : A) : Option (Conns A V) :=
  if s.connList = some conn then do
    let c ← s.heap conn
    let heap ← setNext s.heap conn none
    some ⟨free heap conn, c.next⟩
  else do
    let list ← s.connList
    let prev ← findPrev s.heap conn fuel list
    let c ← s.heap conn
    let heap ← setNext s.heap prev c.next
    let heap ← setNext heap conn none
    some ⟨free heap conn, s.connList⟩

/-- What a pass does to a connection: its fields afterwards, and whether it ends. -/
structure Serve (A V : Type) where
  fields : A → V → V
  ends : A → Bool

/-- The body of the service loop, which may free the structure. -/
def serveConn (b : Serve A V) (fuel : Nat) (s : Conns A V) (conn : A) (c : Cell A V) :
    Option (Conns A V) :=
  let c := { c with val := b.fields conn c.val }
  let s := { s with heap := Function.update s.heap conn (some c) }
  if b.ends conn then destroyConn fuel s conn else some s

/-- The service loop from the pointer `conn` on, with the connections that it visits. -/
def servicePass (b : Serve A V) (fuel : Nat) : Nat → Conns A V → Option A →
    Option (Conns A V × List A)
  | 0, _, _ => none
  | _ + 1, s, none => some (s, [])
  | n + 1, s, some conn => do
    let c ← s.heap conn
    let next := c.next
    let s ← serveConn b fuel s conn c
    let (s, visited) ← servicePass b fuel n s next
    some (s, conn :: visited)

/-! ### Histories -/

/-- What happens to the list. -/
inductive Event (A V : Type) where
  /-- a connection is accepted, and `malloc` returns `conn` -/
  | accept (conn : A) (val : V)
  | destroy (conn : A)
  | pass (b : Serve A V)

/-- One event. `malloc` does not return memory that is allocated, and only a live connection is
destroyed. -/
def step (fuel : Nat) (s : Conns A V) : Event A V → Option (Conns A V)
  | .accept conn val => if (s.heap conn).isSome then some s else some (allocNewConn s conn val)
  | .destroy conn => if (s.heap conn).isSome then destroyConn fuel s conn else some s
  | .pass b => (servicePass b fuel fuel s s.connList).map Prod.fst

/-- A history. -/
def run (fuel : Nat) (es : List (Event A V)) : Option (Conns A V) :=
  es.foldlM (step fuel) Conns.empty

/-- The live connections after an event, newest first. -/
def live (l : List A) : Event A V → List A
  | .accept conn _ => if conn ∈ l then l else conn :: l
  | .destroy conn => l.erase conn
  | .pass b => l.filter fun conn => !b.ends conn

end NucleoH743.Ftp.ConnHeap
