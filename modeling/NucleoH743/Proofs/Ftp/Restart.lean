import NucleoH743.Proofs.Ftp.Service
import NucleoH743.Proofs.Ftp.Transfer

/-!
# `Proofs.Ftp.Restart`: the restart offset

`REST` stores an offset in the session, and every later `RETR` uses it: only the failure of
`do_get_filesize` resets it. `pendingRestart` is what the protocol asks for instead, the offset
of a `REST` that no `RETR` or `STOR` has used up. It is kept beside the service loop.

The comparison runs beside the service loop. `Tracked` holds the thread and the pending restart of
every session; `RestartInv` says that a pending restart is the offset that the session has stored.
The converse does not hold: an offset stays after it was used.

What one `RETR` sends is then arithmetic on two positions of the file: where the code starts and
where the protocol wants it to start. They are equal, or both at or behind the end, except where an
offset is left over and lies inside the file, or where the restart is at the very end of it, and
there the code starts at the first byte.

- `restart_offset_iff`: a run sends the right bytes in every `RETR` iff no `RETR` meets an
  offset that was left over and lies inside the file, and none asks for the end of the file.
-/

set_option autoImplicit false

namespace NucleoH743.Ftp

open NucleoH743.FatFs
open EventRun
open CStr (textBytes)

/-! ### The pending restart -/

/-- The pending `REST` of a session after a command. -/
def pendingRestart (r : Option Nat) (line : List UInt8) : Option Nat :=
  match doParseCommand line with
  | .rest =>
    match parameterPtr line with
    | some s => if 0 ≤ atoi s then some (atoi s).toNat else r
    | none => none
  | .retr | .stor => none
  | _ => r

/-- The first byte that a `RETR` of a file of `size` bytes has to send. -/
def restartAt (r : Option Nat) (size : Nat) : Nat :=
  match r with
  | some n => if n ≤ size then n else 0
  | none => 0

/-- The service loop, and the pending `REST` of each session. -/
structure Tracked where
  world : World
  pending : Nat → Option Nat

/-- One step of the service loop. -/
def Tracked.step (s : Tracked) (e : Event) : Tracked where
  world := Ftp.step s.world e
  pending :=
    match e with
    | .serve id (some (b :: bs)) o =>
      if (s.world.conn? id).isSome ∧ o.malloc = true then
        Function.update s.pending id (pendingRestart (s.pending id) (request (b :: bs)))
      else s.pending
    | _ => s.pending

/-- The path of a `RETR`. -/
def retrPath (o : Outcome) (conn : Conn) (line : List UInt8) : List UInt8 :=
  paramPath o conn.currentdir (parameterPtr line)

/-- If the step is a `RETR` that opens its file, it meets `P`. -/
def AtRetr (w : World) (P : Outcome → Conn → List UInt8 → Prop) : Event → Prop
  | .serve id (some (b :: bs)) o =>
    match w.conn? id with
    | some conn =>
      o.malloc = true → doParseCommand (request (b :: bs)) = .retr →
        CanSend w.vol (retrPath o conn (request (b :: bs))) → P o conn (request (b :: bs))
    | none => True
  | _ => True

instance (w : World) (P : Outcome → Conn → List UInt8 → Prop) [∀ o c l, Decidable (P o c l)]
    (e : Event) : Decidable (AtRetr w P e) :=
  match e with
  | .serve id (some (b :: bs)) o =>
    show Decidable (match w.conn? id with
      | some conn => o.malloc = true → doParseCommand (request (b :: bs)) = .retr →
        CanSend w.vol (retrPath o conn (request (b :: bs))) → P o conn (request (b :: bs))
      | none => True) from
    match w.conn? id with
    | some _ => inferInstanceAs (Decidable (_ → _ → _ → _))
    | none => isTrue trivial
  | .serve _ (some []) _ | .serve _ none _ | .select | .accept _ _ _ => isTrue trivial

/-- `RETR` sends the file from the pending restart on. -/
def RetrRight (s : Tracked) (e : Event) : Prop :=
  AtRetr s.world (fun o conn line =>
    ∃ es data, (execute o (s.world.req conn line) line).2.out =
        (s.world.req conn line).out ++ es ∧
      fileContent s.world.vol (retrPath o conn line) = some data ∧
      Delivers conn.pasvSockfd es (data.drop (restartAt (s.pending conn.id) data.length))) e

/-- The offset of the session and the pending restart mean the same for a file. With a pending
restart at `n`, this fails at the end of the file. Without one, it fails if the session still has
an offset inside the file. -/
def OffsetFits (r : Option Nat) (offset size : Nat) : Prop :=
  match r with
  | some n => ¬ (0 < n ∧ size % 2 ^ 32 ≤ n ∧ n ≤ size)
  | none => ¬ (0 < offset ∧ offset < size % 2 ^ 32)

instance (r : Option Nat) (offset size : Nat) : Decidable (OffsetFits r offset size) :=
  match r with
  | some _ => inferInstanceAs (Decidable (¬ _))
  | none => inferInstanceAs (Decidable (¬ _))

/-- The steps whose `RETR`, if any, finds an offset that fits. -/
def RestartFits (s : Tracked) (e : Event) : Prop :=
  AtRetr s.world (fun o conn line => OffsetFits (s.pending conn.id) conn.offset
    ((fileContent s.world.vol (retrPath o conn line)).getD []).length) e

instance (s : Tracked) (e : Event) : Decidable (RestartFits s e) := by
  unfold RestartFits
  infer_instance

/-! ### One `RETR` -/

/-- The test in `CMD_RETR`, where the size has gone through an `int`: it comes out as the size
modulo 2^32. -/
theorem seeks_iff (offset size : Nat) :
    seeks offset (toInt32 size) ↔ 0 < offset ∧ offset < size % 2 ^ 32 := by
  have hmod : (toInt32 size % 2 ^ 32).toNat = size % 2 ^ 32 := by
    have h : toInt32 size % ((2 ^ 32 : Nat) : Int) = size % ((2 ^ 32 : Nat) : Int) :=
      Int.bmod_emod
    omega
  unfold seeks
  rw [hmod]

/-- The code starts where the protocol wants it to. -/
theorem offsetFits_iff {r : Option Nat} {offset size : Nat} (h : ∀ n, r = some n → offset = n) :
    OffsetFits r offset size ↔
      (if seeks offset (toInt32 size) then offset else 0) = restartAt r size := by
  have hle : size % 2 ^ 32 ≤ size := Nat.mod_le _ _
  simp only [seeks_iff]
  cases r with
  | none =>
    show ¬ (0 < offset ∧ offset < size % 2 ^ 32) ↔ _ = 0
    split_ifs <;> omega
  | some n =>
    obtain rfl := h n rfl
    show ¬ (0 < offset ∧ size % 2 ^ 32 ≤ offset ∧ offset ≤ size) ↔
      _ = if offset ≤ size then offset else 0
    split_ifs <;> omega

/-- `drop` tells two positions of a list apart. -/
theorem drop_inj {α : Type} {l : List α} {m n : Nat} (hm : m ≤ l.length) (hn : n ≤ l.length)
    (h : l.drop m = l.drop n) : m = n := by
  have hlen := congrArg List.length h
  rw [List.length_drop, List.length_drop] at hlen
  omega

/-- A restart lies inside the file or at its end. -/
theorem restartAt_le (r : Option Nat) (size : Nat) : restartAt r size ≤ size := by
  cases r with
  | none => exact Nat.zero_le _
  | some n =>
    show (if n ≤ size then n else 0) ≤ size
    split <;> omega

/-- A `RETR` that opens its file sends it from the pending restart on iff its offset fits. The two
positions are compared by `drop_inj`: what is sent is the file from one of them on, and they are the
same where both are at its end or equal. -/
theorem retr_right_iff {o : Outcome} {q : Req} {line : List UInt8} {r : Option Nat}
    (hcmd : doParseCommand line = .retr) (hsend : CanSend q.vol (retrPath o q.conn line))
    (hoffset : ∀ n, r = some n → q.conn.offset = n) :
    (∃ es data, (execute o q line).2.out = q.out ++ es ∧
        fileContent q.vol (retrPath o q.conn line) = some data ∧
        Delivers q.conn.pasvSockfd es (data.drop (restartAt r data.length))) ↔
      OffsetFits r q.conn.offset
        ((fileContent q.vol (retrPath o q.conn line)).getD []).length := by
  obtain ⟨es, data, hes, hdata, hdeliver⟩ := cmdRetr_delivers o q (parameterPtr line) line hsend
  have hexec : (execute o q line).2 = cmdRetr o q (parameterPtr line) line := by
    simp only [execute, hcmd]
  rw [hexec]
  unfold retrPath
  rw [hdata, Option.getD_some, offsetFits_iff hoffset]
  -- the file is sent from the offset, or from its begin if no seek takes place
  have hfrom : (if seeks q.conn.offset (toInt32 data.length) then data.drop q.conn.offset
      else data) =
      data.drop (if seeks q.conn.offset (toInt32 data.length) then q.conn.offset else 0) := by
    split <;> rfl
  rw [hfrom] at hdeliver
  have hstart : (if seeks q.conn.offset (toInt32 data.length) then q.conn.offset else 0) ≤
      data.length := by
    have hle : data.length % 2 ^ 32 ≤ data.length := Nat.mod_le _ _
    simp only [seeks_iff]
    split <;> omega
  constructor
  · rintro ⟨es', data', hes', hdata', hright⟩
    cases hdata'
    rw [List.append_cancel_left (hes'.symm.trans hes)] at hright
    exact drop_inj hstart (restartAt_le _ _) (hdeliver.unique hright)
  · intro hsame
    rw [hsame] at hdeliver
    exact ⟨es, data, hes, rfl, hdeliver⟩

/-! ### The offset of a session -/

section Offset
variable (o : Outcome) (q : Req) (p : Option (List UInt8))

/-- `PORT` with a socket leaves the offset alone. -/
theorem portConnect_offset (fd : Int) (addr : UInt32) (port : UInt16) :
    (portConnect o q fd addr port).conn.offset = q.conn.offset := by
  dsimp only [portConnect]
  split
  · rw [reply_conn]
    dsimp only
    split <;> rfl
  · rw [close_conn, reply_conn]
    split <;> rfl

/-- `PORT` as a whole does too. -/
theorem cmdPort_offset : (cmdPort o q p).conn.offset = q.conn.offset := by
  have hread : (portRead o q p).2.conn = q.conn := by
    dsimp only [portRead]
    split <;> simp
  have hnew : ((portRead o q p).2.newFd o.socket).2.conn.offset = q.conn.offset := by
    rw [newFd_conn, hread]
  dsimp only [cmdPort]
  split
  · rw [close_conn, reply_conn]
    exact hnew
  · rw [portConnect_offset]
    exact hnew

/-- `PASV` leaves the offset alone behind `listen`. -/
theorem pasvAccept_offset (ret : Nat) (sockfd : Int) :
    (pasvAccept o q ret sockfd).2.conn.offset = q.conn.offset := by
  dsimp only [pasvAccept]
  generalize hq₁ : (q.reply (passiveMode o)).emit (.select sockfd) = q₁
  have hconn : q₁.conn.offset = q.conn.offset := by rw [← hq₁, emit_conn, reply_conn]
  have hnew : (q₁.newFd o.accept).2.conn.offset = q.conn.offset := by rw [newFd_conn, hconn]
  split
  · exact hconn
  · split
    · rw [reply_conn]
      exact hnew
    · exact hnew

/-- It leaves it alone in front of it. By the branches on which it ends. -/
theorem pasvOpen_offset : (pasvOpen o q).2.conn.offset = q.conn.offset := by
  have hnew : (q.newFd o.socket).2.conn.offset = q.conn.offset := by rw [newFd_conn]
  dsimp only [pasvOpen]
  split
  · rw [reply_conn]
    exact hnew
  · generalize hq₁ : Req.emit (if o.bind then _ else _) (.listen _) = q₁
    have hconn : q₁.conn.offset = q.conn.offset := by
      rw [← hq₁, emit_conn]
      split
      · exact hnew
      · rw [reply_conn]
        exact hnew
    split
    · rw [reply_conn]
      exact hconn
    · rw [pasvAccept_offset]
      exact hconn

/-- Its clean-up leaves it alone too. -/
theorem cmdPasv_offset : (cmdPasv o q).conn.offset = q.conn.offset := by
  dsimp only [cmdPasv]
  split
  · rw [close_conn]
    exact pasvOpen_offset o _
  · exact pasvOpen_offset o _

/-- A listing leaves it alone, if its loop does. -/
theorem listing_offset {list : Req → Int → List Filinfo → Req}
    (hlist : ∀ q fd readdir, (list q fd readdir).conn.offset = q.conn.offset) :
    (listing o q list).conn.offset = q.conn.offset := by
  dsimp only [listing]
  rw [reply_conn]
  dsimp only
  rw [close_conn, hlist, reply_conn]

/-- Every command leaves the offset alone but `REST`, which stores one, and `RETR`, which sets it
back where it finds no file. `STOR` is left out, since it uses a restart up in any case. The other
data commands are taken apart, as they change other fields of the connection. -/
theorem execute_offset (line : List UInt8) (hrest : doParseCommand line ≠ .rest)
    (hretr : doParseCommand line ≠ .retr) (hstor : doParseCommand line ≠ .stor) :
    (execute o q line).2.conn.offset = q.conn.offset := by
  have hpath := fun p => (paramPath_conn o q p).2.2
  dsimp only [execute]
  cases hcmd : doParseCommand line with
  | rest => exact absurd hcmd hrest
  | retr => exact absurd hcmd hretr
  | stor => exact absurd hcmd hstor
  | list =>
    refine listing_offset o q fun q fd readdir => ?_
    dsimp only [doFullList]
    split <;> simp
  | nlst =>
    refine listing_offset o q fun q fd readdir => ?_
    dsimp only [doSimpleList]
    split <;> simp
  | port => exact cmdPort_offset o q _
  | pasv => exact cmdPasv_offset o q
  | type =>
    dsimp only [cmdType]
    split <;> simp
  | size =>
    dsimp only [cmdSize]
    split <;> simpa using hpath _
  | cwd => simpa [cmdCwd] using hpath _
  | cdup => simp [cmdCdup]
  | mkd =>
    dsimp only [cmdMkd]
    split <;> simpa using hpath _
  | dele =>
    dsimp only [cmdDele]
    split <;> simpa using hpath _
  | rmd =>
    dsimp only [cmdRmd]
    split <;> simpa using hpath _
  | user | pass | pwd | mdtm | syst | feat | quit | unknown =>
    dsimp only
    rw [reply_conn]

/-- `REST` stores its number if it is not negative, and keeps the old offset otherwise. -/
theorem cmdRest_offset (s : List UInt8) : (cmdRest o q (some s)).conn.offset =
    if 0 ≤ atoi s then (atoi s).toNat else q.conn.offset := by
  show (if 0 ≤ atoi s then _ else q : Req).conn.offset = _
  split
  · rw [reply_conn]
  · rfl

/-- A pending restart is the offset of the session. Before the command it is so by hypothesis.
`REST` sets both to its number, `RETR` and `STOR` use the restart up, and the others change
neither. -/
theorem execute_pending (line : List UInt8) {r : Option Nat}
    (h : ∀ n, r = some n → q.conn.offset = n) :
    ∀ n, pendingRestart r line = some n → (execute o q line).2.conn.offset = n := by
  intro n hn
  unfold pendingRestart at hn
  -- REST sets the offset, RETR and STOR end its validity, the others keep it
  by_cases hrest : doParseCommand line = .rest
  · rw [hrest] at hn
    cases hp : parameterPtr line with
    | none => simp [hp] at hn
    | some s =>
      have hexec : (execute o q line).2 = cmdRest o q (some s) := by
        simp only [execute, hrest, hp]
      rw [hexec, cmdRest_offset]
      simp only [hp] at hn
      split at hn
      · next hpos =>
        rw [if_pos hpos]
        exact Option.some.inj hn
      · next hneg =>
        rw [if_neg hneg]
        exact h n hn
  · by_cases hretr : doParseCommand line = .retr
    · simp [hretr] at hn
    · by_cases hstor : doParseCommand line = .stor
      · simp [hstor] at hn
      · rw [execute_offset o q line hrest hretr hstor]
        refine h n ?_
        split at hn
        · next hcmd => exact absurd hcmd hrest
        · cases hn
        · cases hn
        · exact hn

end Offset

/-! ### The service loop -/

/-- A pending restart is the offset of its session, and sessions to come have none. -/
structure RestartInv (s : Tracked) : Prop where
  list : ConnList s.world
  offset : ∀ c ∈ s.world.conns, ∀ n, s.pending c.id = some n → c.offset = n
  fresh : ∀ id, s.world.nextConn ≤ id → s.pending id = none

/-- The FTP thread at its start: no `REST` is pending. -/
def Tracked.start (v : Volume) (sockfd : Nat) : Tracked where
  world := World.start v sockfd
  pending := fun _ => none

/-- At the start no session has an offset. -/
theorem restartInv_start (v : Volume) (sockfd : Nat) : RestartInv (Tracked.start v sockfd) where
  list := ⟨List.nodup_nil, by simp [Tracked.start, World.start]⟩
  offset := by simp [Tracked.start, World.start]
  fresh := fun _ _ => rfl

namespace RestartInv

variable {w : World} {r : Nat → Option Nat}

/-- A session that ends takes its offset with it. -/
theorem dropConn (h : RestartInv ⟨w, r⟩) (conn : Conn) : RestartInv ⟨w.dropConn conn, r⟩ where
  list := h.list.dropConn conn
  offset := fun c hc => h.offset c (List.mem_filter.1 hc).1
  fresh := h.fresh

/-- A new session begins with the offset 0 and without a pending restart. It has an address that no
session had, and for such an address nothing is pending. -/
theorem accept (h : RestartInv ⟨w, r⟩) (fd : Option Nat) (remote : UInt32) (mem : Option Fresh) :
    RestartInv ⟨acceptStep w fd remote mem, r⟩ := by
  cases mem with
  -- without memory the whole list is lost, and no offset with a session is left
  | none =>
    unfold acceptStep
    split
    · exact h
    · exact {
        list := ⟨List.nodup_nil, by simp⟩
        offset := by simp
        fresh := fun id hid => h.fresh id (Nat.le_of_succ_le hid) }
  | some m =>
    rcases acceptStep_cases w fd remote (show (some m).isSome = true from rfl) with
      heq | ⟨fd, m, -, heq⟩
    · rw [heq]
      exact h
    · rw [heq]
      refine ⟨h.list.afterAccept fd remote m, ?_, ?_⟩
      · intro c hc n hn
        rcases List.mem_cons.1 hc with rfl | hc
        · have hn : r w.nextConn = some n := hn
          have hnone : r w.nextConn = none := h.fresh w.nextConn (Nat.le_refl _)
          simp [hnone] at hn
        · exact h.offset c hc n hn
      · exact fun id hid => h.fresh id (Nat.le_of_succ_le hid)

/-- A request changes the pending restart of its session only. The invariant is asked of that
session alone, and holds of the others as before. -/
theorem afterRequest (h : RestartInv ⟨w, r⟩) {conn : Conn} (hc : conn ∈ w.conns) (n : Nat)
    {q : Req} (hid : q.conn.id = conn.id) {r' : Option Nat}
    (hq : ∀ n, r' = some n → q.conn.offset = n) :
    RestartInv ⟨w.afterRequest conn n q, Function.update r conn.id r'⟩ := by
  refine ⟨h.list.afterRequest hid, ?_, ?_⟩
  · intro c hmem m hm
    -- the served session has the new offset, the others theirs
    rcases (h.list.mem_afterRequest hc).1 hmem with rfl | ⟨hmem, hne⟩
    · have hm : Function.update r conn.id r' q.conn.id = some m := hm
      rw [hid, Function.update_self] at hm
      exact hq m hm
    · have hm : Function.update r conn.id r' c.id = some m := hm
      rw [Function.update_of_ne fun heq => hne (h.list.eq_of_id hmem hc heq)] at hm
      exact h.offset c hmem m hm
  · intro id hid'
    have hlt : conn.id < w.nextConn := h.list.fresh conn hc
    have hle : w.nextConn ≤ id := hid'
    show Function.update r conn.id r' id = none
    rw [Function.update_of_ne (by omega)]
    exact h.fresh id hle

/-- A request that gets its memory. -/
theorem request (h : RestartInv ⟨w, r⟩) {conn : Conn} (hc : conn ∈ w.conns) (b : UInt8)
    (bs : List UInt8) {o : Outcome} (ho : o.malloc = true) :
    RestartInv ⟨serveStep w conn (some (b :: bs)) o,
      Function.update r conn.id (pendingRestart (r conn.id) (Ftp.request (b :: bs)))⟩ := by
  generalize hline : Ftp.request (b :: bs) = line
  have hid := (keeps_execute_conn o (w.req conn line) line).id
  have hafter := execute_pending o (w.req conn line) line (h.offset conn hc)
  have hinv := h.afterRequest hc (b :: bs).length hid hafter
  rw [serveStep_request w conn b bs ho rfl, hline]
  split
  · exact hinv.dropConn _
  · exact hinv

/-- A request without memory for `sbuf` stores what was there. -/
theorem noMem (h : RestartInv ⟨w, r⟩) {conn : Conn} (hc : conn ∈ w.conns) (b : UInt8)
    (bs : List UInt8) {o : Outcome} (ho : o.malloc = false) :
    RestartInv ⟨serveStep w conn (some (b :: bs)) o, r⟩ := by
  have hinv := h.afterRequest hc (b :: bs).length (q := ⟨w.vol, w.sockets, conn, []⟩) rfl
    (h.offset conn hc)
  rw [Function.update_eq_self] at hinv
  rw [serveStep_noMem w conn b bs ho]
  exact hinv.dropConn _

/-- Every step keeps a pending restart equal to the offset of its session. -/
theorem step {s : Tracked} (h : RestartInv s) (e : Event) : RestartInv (s.step e) := by
  obtain ⟨w, r⟩ := s
  cases e with
  | select =>
    obtain ⟨readfds, heq⟩ := selectStep_frame w
    show RestartInv ⟨selectStep w, r⟩
    rw [heq]
    exact ⟨⟨h.list.ids, h.list.fresh⟩, h.offset, h.fresh⟩
  | accept fd remote mem => exact h.accept fd remote mem
  | serve id recv o =>
    cases hconn : w.conn? id with
    | none =>
      have hsame : Tracked.step ⟨w, r⟩ (.serve id recv o) = ⟨w, r⟩ := by
        obtain _ | _ | ⟨b, bs⟩ := recv <;> simp [Tracked.step, Ftp.step, hconn]
      rw [hsame]
      exact h
    | some conn =>
      obtain ⟨hc, rfl⟩ := World.conn?_eq hconn
      -- a dropped connection takes its offset with it
      have hgone : RestartInv ⟨(w.fdClr conn.sockfd).dropConn conn, r⟩ :=
        dropConn (w := w.fdClr conn.sockfd) ⟨⟨h.list.ids, h.list.fresh⟩, h.offset, h.fresh⟩ conn
      obtain _ | _ | ⟨b, bs⟩ := recv
      · simpa only [Tracked.step, Ftp.step, hconn, serveStep] using hgone
      · simpa only [Tracked.step, Ftp.step, hconn, serveStep] using hgone
      · simp only [Tracked.step, Ftp.step, hconn, Option.isSome_some, true_and]
        cases ho : o.malloc with
        | false => exact h.noMem hc b bs ho
        | true => exact h.request hc b bs ho

end RestartInv

/-- A `RETR` sends the file from the pending restart on iff it finds an offset that fits: by the
invariant the two differ only where no restart is pending and an offset is left over. -/
theorem restart_step_iff {s : Tracked} (h : RestartInv s) (e : Event) :
    RetrRight s e ↔ RestartFits s e := by
  obtain ⟨w, r⟩ := s
  unfold RetrRight RestartFits AtRetr
  split
  · next id b bs o =>
    cases hconn : w.conn? id with
    | none => exact Iff.rfl
    | some conn =>
      obtain ⟨hc, -⟩ := World.conn?_eq hconn
      refine imp_congr_right fun _ => imp_congr_right fun hcmd => imp_congr_right fun hsend => ?_
      exact retr_right_iff (q := w.req conn (request (b :: bs))) hcmd hsend (h.offset conn hc)
  · exact Iff.rfl

/-- Every `RETR` of a run does so iff every one finds an offset that fits. -/
theorem along_retrRight {s : Tracked} (h : RestartInv s) (es : List Event) :
    Along Tracked.step RetrRight s es ↔ Along Tracked.step RestartFits s es := by
  have hstep : ∀ s e, RestartInv s → RetrRight s e → RestartInv (s.step e) :=
    fun _ e hs _ => hs.step e
  have hiff : ∀ s e, RestartInv s → (RetrRight s e ↔ RestartFits s e) :=
    fun _ e hs => restart_step_iff hs e
  exact along_congr hstep hiff h es

/-- A run sends the right bytes in every `RETR` that opens its file iff every such `RETR` finds an
offset that fits. The run is one of the service loop with any number of sessions, beside which the
pending restarts are tracked. An offset that a `RETR` has used is still in its session at the next
one. -/
theorem restart_offset_iff (v : Volume) (sockfd : Nat) (es : List Event) :
    Along Tracked.step RetrRight (Tracked.start v sockfd) es ↔
      Along Tracked.step RestartFits (Tracked.start v sockfd) es :=
  along_retrRight (restartInv_start v sockfd) es

/-- A disk with the file `/f`. -/
def threeBytes : Volume :=
  { emptyDisk with nodes := fun e => if e = textBytes "/f" then some (.file [1, 2, 3]) else none }

/-- The second `RETR` after a `REST` starts at the old offset again, instead of at the first
byte. -/
theorem rest_stays :
    let es : List Event :=
      [.accept (some 1) 0 (some ⟨false, 3, 0⟩), .serve 0 (some (textBytes "REST 2\r\n")) {},
        .serve 0 (some (textBytes "RETR /f\r\n")) {}, .serve 0 (some (textBytes "RETR /f\r\n")) {}]
    ((run step (World.start threeBytes 0) es).trace.filter (· = (0, .send 3 [3] 1))).length = 2 ∧
      ¬ Along Tracked.step RetrRight (Tracked.start threeBytes 0) es := by
  intro es
  have hfits : ¬ Along Tracked.step RestartFits (Tracked.start threeBytes 0) es := by
    decide
  exact ⟨by decide, mt (along_retrRight (restartInv_start threeBytes 0) es).1 hfits⟩

end NucleoH743.Ftp
