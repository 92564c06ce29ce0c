import NucleoH743.Proofs.Ftp.Service

/-!
# `Proofs.Ftp.Paths`: the paths that a request builds

A request stores strings in `spare_buf`, and changes the current directory of its session.
Every command with a path argument does both through `do_full_path`.

What a request does to the memory of the server is computed here once (`writes_execute`), as a list
of effects beside the new current directory: strings stored in `spare_buf`, reads through a null
pointer where a parameter is missing, and reads behind the end of the line. A command is a sequence
of parts, and each part has a lemma on the effects that it adds; loops and replies add none.

The modules on the buffers, on the directories and on requests without an argument read their parts
off this list. For the directories there is also the step of the service loop (`dirs_step`): a
property that holds of the root directory, and that every served command hands on, holds of every
session in every run.

- `builds_execute`: the strings that a command stores in `spare_buf`, and the current directory
  after it.
-/

set_option autoImplicit false

namespace NucleoH743.Ftp

open NucleoH743.FatFs
open CStr (textBytes)

/-- The effect is a store to `spare_buf` or `ftp_buf`. -/
def Effect.stores : Effect → Bool
  | .spareBuf _ | .ftpBuf _ => true
  | _ => false

/-- The stores of a request. -/
def Req.stored (q : Req) : List Effect := q.out.filter Effect.stores

/-- The effect is one on the memory of the server. -/
def Effect.memory : Effect → Bool
  | .spareBuf _ | .ftpBuf _ | .nullPtr | .pastEnd => true
  | _ => false

/-- What a request does to the memory of the server. -/
def Req.memory (q : Req) : List Effect := q.out.filter Effect.memory

/-- The stores are among these effects. -/
theorem stored_eq (q : Req) : q.stored = q.memory.filter Effect.stores := by
  rw [Req.stored, Req.memory, List.filter_filter]
  congr 1
  funext e
  cases e <;> rfl

/-- What it costs to use `parameter_ptr` when it is null. -/
def nullParam : Option (List UInt8) → List Effect
  | none => [.nullPtr]
  | some _ => []

/-! ### The parts of a request -/

section Parts
variable (o : Outcome) (q : Req) (p : Option (List UInt8))

/-- An effect is added to those on memory iff it is one. -/
@[simp] theorem emit_memory (e : Effect) :
    (q.emit e).memory = q.memory ++ [e].filter Effect.memory := List.filter_append _ _

/-- A store to `spare_buf` is one of them. -/
@[simp] theorem spare_memory (s : List UInt8) :
    (q.spare s).memory = q.memory ++ [.spareBuf s] := emit_memory q (.spareBuf s)

/-- A read through a null pointer is an effect on memory. -/
@[simp] theorem memory_nullPtr : Effect.memory .nullPtr = true := rfl

/-- So is a read behind the end of the line. -/
@[simp] theorem memory_pastEnd : Effect.memory .pastEnd = true := rfl

/-- A store to `spare_buf` counts as a store. -/
@[simp] theorem stores_spareBuf (s : List UInt8) : Effect.stores (.spareBuf s) = true := rfl

/-- Neither the volume, the sockets nor the connection matter. -/
@[simp] theorem update_memory (vol : Volume) (sockets : Int → Bool) (conn : Conn) :
    ({ q with vol, sockets, conn } : Req).memory = q.memory := rfl

/-- `close` has no effect on memory. -/
@[simp] theorem close_memory (fd : Int) : (q.close fd).memory = q.memory := by
  simp [Req.memory, Req.close, Req.emit, Effect.memory]

/-- Nor has `do_send_reply`: it sends from the buffer and leaves it alone. -/
@[simp] theorem doSendReply_memory (sock : Int) (text : List UInt8) :
    (doSendReply q sock text).memory = q.memory := by
  unfold doSendReply
  split
  · rfl
  · simp [Effect.memory]

/-- Nor has a reply. -/
@[simp] theorem reply_memory (text : List UInt8) : (q.reply text).memory = q.memory :=
  doSendReply_memory q _ text

/-- The lines of a listing are sent without an effect on memory. By induction on the lines. -/
@[simp] theorem sendLines_memory (sock : Int) (lines : List (List UInt8)) :
    (sendLines q sock lines).memory = q.memory := by
  induction lines generalizing q with
  | nil => rfl
  | cons l ls ih => exact (ih _).trans (doSendReply_memory q sock l)

/-- The parameter costs a read through a null pointer where the line holds none. -/
@[simp] theorem param_memory : (q.param o p).2.memory = q.memory ++ nullParam p := by
  cases p with
  | none => simp [Req.param, nullParam]
  | some s => exact (List.append_nil _).symm

/-- What stands in the place of a null parameter is what the memory at address 0 holds. -/
@[simp] theorem param_fst : (q.param o p).1 = p.getD o.stray := by
  cases p <;> rfl

/-- The path is stored. -/
@[simp] theorem paramPath_memory :
    (q.paramPath o p).2.memory =
      q.memory ++ (nullParam p ++ [.spareBuf (paramPath o q.conn.currentdir p)]) := by
  have hparam := param_memory o q p
  have hconn := param_conn o q p
  have hfst := param_fst o q p
  have hpath : (q.paramPath o p).2.memory =
      (q.param o p).2.memory ++
        [.spareBuf (doFullPath (q.param o p).2.conn.currentdir (q.param o p).1).1] :=
    spare_memory _ _
  rw [hpath, hparam, hconn, hfst, List.append_assoc]
  rfl

/-- The `..` branch changes the current directory. -/
@[simp] theorem paramPath_currentdir :
    (q.paramPath o p).2.conn.currentdir =
      (doFullPath q.conn.currentdir (p.getD o.stray)).2 := by
  cases p <;> rfl

/-- What `RETR` copies of the line before it builds the path. -/
def copied (o : Outcome) (line : List UInt8) : List UInt8 :=
  if line.length < 5 then o.stray else line.drop 5

/-- What `RETR` does to memory when it copies the line. -/
def copyEffects (o : Outcome) (line : List UInt8) : List Effect :=
  (if line.length < 5 then [.pastEnd] else []) ++ [.spareBuf (copied o line)]

/-- `RETR` copies the line from its sixth byte on to `spare_buf`. The byte lies behind the end of a
line with fewer than five characters. -/
@[simp] theorem copyLine_memory (line : List UInt8) :
    (copyLine o q line).memory = q.memory ++ copyEffects o line := by
  unfold copyLine copyEffects copied
  split <;> simp [List.filter_cons]

/-- A new descriptor has no effect on memory. -/
@[simp] theorem newFd_memory (n : Option Nat) : (q.newFd n).2.memory = q.memory := by
  rcases newFd_cases q n with h | ⟨fd, -, h⟩
  · rw [h]
  · rw [h]
    rfl

/-- The loop of `RETR` stores nothing, and leaves the connection alone. By induction on its
turns. -/
theorem retrLoop_memory (turns : Nat) (file : Fil) :
    (retrLoop turns q file).1.memory = q.memory ∧
      (retrLoop turns q file).1.conn = q.conn := by
  induction turns generalizing q file with
  | zero => exact ⟨rfl, rfl⟩
  | succ turns ih =>
    dsimp only [retrLoop]
    split
    · rw [(ih _ _).1, (ih _ _).2]
      simp [Effect.memory]
    · exact ⟨rfl, rfl⟩

/-- The loop of `STOR` stores nothing, and leaves the connection alone. By induction on what it
receives. -/
theorem storLoop_memory (file : Fil) (ds : List DataIn) :
    (storLoop q file ds).2.memory = q.memory ∧ (storLoop q file ds).2.conn = q.conn := by
  induction ds generalizing q file with
  | nil => simp [storLoop, Effect.memory]
  | cons d ds ih =>
    obtain ⟨recv, room⟩ := d
    -- the select and the receive store nothing
    have hrecv : ((q.emit (.select q.conn.pasvSockfd)).emit (.recv q.conn.pasvSockfd)).memory =
        q.memory := by simp [Effect.memory]
    cases recv with
    | none => exact ⟨hrecv, rfl⟩
    | some bytes =>
      cases bytes with
      | nil =>
        dsimp only [storLoop]
        exact ⟨(reply_memory _ _).trans hrecv, reply_conn _ _⟩
      | cons b bs =>
        have hrest := ih ((q.emit (.select q.conn.pasvSockfd)).emit (.recv q.conn.pasvSockfd))
          (fWrite q.vol file (b :: bs) room).2.2
        exact ⟨hrest.1.trans hrecv, hrest.2⟩

end Parts

/-! ### The commands -/

section Commands
variable (o : Outcome) (q : Req) (p : Option (List UInt8))

/-- The current directory after a command with a path argument other than `CWD`. -/
def dirAfter (o : Outcome) (currentdir : List UInt8) (p : Option (List UInt8)) : List UInt8 :=
  (doFullPath currentdir (p.getD o.stray)).2

/-- The part of a request from `q` to `q'` has the effects `es` on memory and no others, and
leaves the session in `dir`. -/
def Writes (es : List Effect) (dir : List UInt8) (q q' : Req) : Prop :=
  q'.memory = q.memory ++ es ∧ q'.conn.currentdir = dir

/-- `LIST` takes no parameter. It strips the slash at the end of the current directory of its
session. -/
theorem writes_cmdList : Writes [] (trimSlash q.conn.currentdir) q (cmdList o q) := by
  dsimp only [cmdList, listing, doFullList]
  split <;> simp [Writes]

/-- `NLST` stores nothing and leaves the session where it is. -/
theorem writes_cmdNlst : Writes [] q.conn.currentdir q (cmdNlst o q) := by
  dsimp only [cmdNlst, listing, doSimpleList]
  split <;> simp [Writes]

/-- `TYPE` reads its parameter, and so reads through a null pointer where there is none. -/
theorem writes_cmdType : Writes (nullParam p) q.conn.currentdir q (cmdType o q p) := by
  dsimp only [cmdType]
  split <;> simp [Writes]

/-- `REST` does the same. -/
theorem writes_cmdRest : Writes (nullParam p) q.conn.currentdir q (cmdRest o q p) := by
  dsimp only [cmdRest]
  split <;> simp [Writes]

/-- The effects on memory of a command that only builds a path. -/
def pathEffects (o : Outcome) (currentdir : List UInt8) (p : Option (List UInt8)) : List Effect :=
  nullParam p ++ [.spareBuf (paramPath o currentdir p)]

/-- `CWD` builds its path in `spare_buf`, and the path is the new current directory. -/
theorem writes_cmdCwd : Writes (pathEffects o q.conn.currentdir p)
    (paramPath o q.conn.currentdir p) q (cmdCwd o q p) := by
  dsimp only [cmdCwd]
  simp [Writes, pathEffects]

/-- `CDUP` copies the current directory to `spare_buf`, and steps down in the session. -/
theorem writes_cmdCdup :
    Writes [.spareBuf q.conn.currentdir] (doStepDown q.conn.currentdir) q (cmdCdup q) := by
  dsimp only [cmdCdup]
  simp [Writes]

/-- `SIZE` builds its path, and leaves the session in the directory that `do_full_path` leaves. -/
theorem writes_cmdSize : Writes (pathEffects o q.conn.currentdir p)
    (dirAfter o q.conn.currentdir p) q (cmdSize o q p) := by
  dsimp only [cmdSize]
  split <;> simp [Writes, pathEffects, dirAfter]

/-- `MKD` does the same on both of its replies. -/
theorem writes_cmdMkd : Writes (pathEffects o q.conn.currentdir p)
    (dirAfter o q.conn.currentdir p) q (cmdMkd o q p) := by
  dsimp only [cmdMkd]
  split <;> simp [Writes, pathEffects, dirAfter]

/-- So does `DELE`. -/
theorem writes_cmdDele : Writes (pathEffects o q.conn.currentdir p)
    (dirAfter o q.conn.currentdir p) q (cmdDele o q p) := by
  dsimp only [cmdDele]
  split <;> simp [Writes, pathEffects, dirAfter]

/-- So does `RMD`. -/
theorem writes_cmdRmd : Writes (pathEffects o q.conn.currentdir p)
    (dirAfter o q.conn.currentdir p) q (cmdRmd o q p) := by
  dsimp only [cmdRmd]
  split <;> simp [Writes, pathEffects, dirAfter]

/-- The transfer of `RETR` stores nothing. -/
theorem writes_retrTransfer (path : List UInt8) (numBytes : Int) (file : Fil) :
    Writes [] q.conn.currentdir q (retrTransfer q path numBytes file) := by
  dsimp only [retrTransfer]
  simp [Writes, retrLoop_memory]

/-- `RETR` copies the line first and then builds its path, both in `spare_buf`. By the results of
the two opens, which store nothing. -/
theorem writes_cmdRetr (line : List UInt8) :
    Writes (copyEffects o line ++ pathEffects o q.conn.currentdir p)
      (dirAfter o q.conn.currentdir p) q (cmdRetr o q p line) := by
  have hpath : Writes (copyEffects o line ++ pathEffects o q.conn.currentdir p)
      (dirAfter o q.conn.currentdir p) q ((copyLine o q line).paramPath o p).2 := by
    simp [Writes, pathEffects, dirAfter]
  dsimp only [cmdRetr]
  split
  · simpa [Writes] using hpath
  · split
    · simpa [Writes] using hpath
    · have hsend := writes_retrTransfer
      simp only [Writes, List.append_nil] at hsend hpath ⊢
      rw [(hsend _ _ _ _).1, (hsend _ _ _ _).2]
      exact hpath

/-- `STOR` builds its path, on every branch of the transfer. -/
theorem writes_cmdStor : Writes (pathEffects o q.conn.currentdir p)
    (dirAfter o q.conn.currentdir p) q (cmdStor o q p).2 := by
  dsimp only [cmdStor]
  split <;> simp [Writes, pathEffects, dirAfter, storLoop_memory]

/-- The text of the address that `PORT` was given. -/
def portText (o : Outcome) (p : Option (List UInt8)) : List UInt8 :=
  let com (i : Nat) : Int := (portcom o (strtok (textBytes ".,;()") (p.getD o.stray))).getD i 0
  formatInt (com 0) ++ textBytes "." ++ formatInt (com 1) ++ textBytes "." ++
    formatInt (com 2) ++ textBytes "." ++ formatInt (com 3)

/-- What `PORT` does to memory: a missing token is a null pointer. -/
def portEffects (o : Outcome) (p : Option (List UInt8)) : List Effect :=
  nullParam p ++ (if (strtok (textBytes ".,;()") (p.getD o.stray)).length < 6 then [.nullPtr]
    else []) ++ [.spareBuf (portText o p)]

/-- `PORT` takes its parameter apart, where a missing token is a null pointer, and prints the
address into `spare_buf`. -/
theorem writes_portRead : Writes (portEffects o p) q.conn.currentdir q (portRead o q p).2 := by
  dsimp only [portRead]
  rw [param_fst]
  split <;> simp [Writes, portEffects, portText, List.filter_cons, *]

/-- What follows in `PORT` stores nothing. -/
theorem writes_portConnect (fd : Int) (addr : UInt32) (port : UInt16) :
    Writes [] q.conn.currentdir q (portConnect o q fd addr port) := by
  dsimp only [portConnect]
  split <;> split <;> simp [Writes, Effect.memory]

/-- So the effects of `PORT` are those of its tokens. -/
theorem writes_cmdPort : Writes (portEffects o p) q.conn.currentdir q (cmdPort o q p) := by
  obtain ⟨hmem, hdir⟩ := writes_portRead o q p
  dsimp only [cmdPort]
  split
  · simp [Writes, Effect.memory, hmem, hdir]
  · have hconn := writes_portConnect
    simp only [Writes, List.append_nil] at hconn ⊢
    rw [(hconn _ _ _ _ _).1, (hconn _ _ _ _ _).2]
    simp [Effect.memory, hmem, hdir]

/-- The end of `PASV` stores nothing. -/
theorem writes_pasvAccept (ret : Nat) (sockfd : Int) :
    Writes [] q.conn.currentdir q (pasvAccept o q ret sockfd).2 := by
  dsimp only [pasvAccept]
  split
  · simp [Writes, Effect.memory]
  · split <;> simp [Writes, Effect.memory]

/-- Nor does what comes before it. -/
theorem writes_pasvOpen : Writes [] q.conn.currentdir q (pasvOpen o q).2 := by
  dsimp only [pasvOpen]
  split
  · simp [Writes, Effect.memory]
  · have haccept := writes_pasvAccept
    simp only [Writes, List.append_nil] at haccept ⊢
    split <;> split <;> simp [haccept, Effect.memory]

/-- So `PASV` has no effect on memory, and leaves the session where it is. -/
theorem writes_cmdPasv : Writes [] q.conn.currentdir q (cmdPasv o q) := by
  have hopen := writes_pasvOpen
  simp only [Writes, List.append_nil] at hopen
  dsimp only [cmdPasv]
  split <;> simp [Writes, hopen]

end Commands

/-! ### Every command -/

/-- The current directory after a command. -/
def nextDir (o : Outcome) (currentdir line : List UInt8) : List UInt8 :=
  match doParseCommand line with
  | .list => trimSlash currentdir
  | .cwd => paramPath o currentdir (parameterPtr line)
  | .cdup => doStepDown currentdir
  | .retr | .stor | .size | .mkd | .dele | .rmd => dirAfter o currentdir (parameterPtr line)
  | .user | .pass | .nlst | .pwd | .type | .pasv | .mdtm | .syst | .port | .rest | .feat | .quit
  | .unknown => currentdir

/-- The strings that a command stores in `spare_buf`. -/
def storedBy (o : Outcome) (currentdir line : List UInt8) : List (List UInt8) :=
  match doParseCommand line with
  | .cdup => [currentdir]
  | .port => [portText o (parameterPtr line)]
  | .retr => [copied o line, paramPath o currentdir (parameterPtr line)]
  | .cwd | .stor | .size | .mkd | .dele | .rmd => [paramPath o currentdir (parameterPtr line)]
  | .list | .user | .pass | .nlst | .pwd | .type | .pasv | .mdtm | .syst | .rest | .feat | .quit
  | .unknown => []

/-- What a command does to memory. -/
def memoryBy (o : Outcome) (currentdir line : List UInt8) : List Effect :=
  match doParseCommand line with
  | .cdup => [.spareBuf currentdir]
  | .type | .rest => nullParam (parameterPtr line)
  | .port => portEffects o (parameterPtr line)
  | .retr => copyEffects o line ++ pathEffects o currentdir (parameterPtr line)
  | .cwd | .stor | .size | .mkd | .dele | .rmd => pathEffects o currentdir (parameterPtr line)
  | .list | .user | .pass | .nlst | .pwd | .pasv | .mdtm | .syst | .feat | .quit | .unknown => []

/-- What a command does to memory, and where it leaves the session. By the command; each has its
lemma above. -/
theorem writes_execute (o : Outcome) (q : Req) (line : List UInt8) :
    Writes (memoryBy o q.conn.currentdir line) (nextDir o q.conn.currentdir line) q
      (execute o q line).2 := by
  dsimp only [execute, memoryBy, nextDir]
  cases doParseCommand line with
  | list => exact writes_cmdList o q
  | nlst => exact writes_cmdNlst o q
  | type => exact writes_cmdType o q _
  | rest => exact writes_cmdRest o q _
  | cwd => exact writes_cmdCwd o q _
  | cdup => exact writes_cmdCdup q
  | size => exact writes_cmdSize o q _
  | mkd => exact writes_cmdMkd o q _
  | dele => exact writes_cmdDele o q _
  | rmd => exact writes_cmdRmd o q _
  | retr => exact writes_cmdRetr o q _ line
  | stor => exact writes_cmdStor o q _
  | port => exact writes_cmdPort o q _
  | pasv => exact writes_cmdPasv o q
  | user | pass | mdtm | syst | pwd | feat | quit | unknown =>
    dsimp only
    simp [Writes]

/-- The part of a request from `q` to `q'` stores the strings `ss` in `spare_buf` and nothing
else, and leaves the session in `dir`. -/
def Builds (ss : List (List UInt8)) (dir : List UInt8) (q q' : Req) : Prop :=
  q'.stored = q.stored ++ ss.map Effect.spareBuf ∧ q'.conn.currentdir = dir

/-- Using a null pointer stores nothing. -/
@[simp] theorem nullParam_stores (p : Option (List UInt8)) :
    (nullParam p).filter Effect.stores = [] := by
  cases p <;> rfl

/-- The strings are the stores among the effects on memory. By the command. The others are reads
through a null pointer or behind the line. -/
theorem memoryBy_stores (o : Outcome) (currentdir line : List UInt8) :
    (memoryBy o currentdir line).filter Effect.stores =
      (storedBy o currentdir line).map Effect.spareBuf := by
  unfold memoryBy storedBy
  cases doParseCommand line with
  | cdup => rfl
  | type | rest => exact nullParam_stores _
  | port =>
    dsimp only [portEffects]
    split <;> simp [Effect.stores]
  | retr =>
    dsimp only [copyEffects, pathEffects]
    split <;> simp [List.filter_cons, Effect.stores]
  | cwd | stor | size | mkd | dele | rmd => simp [pathEffects, Effect.stores]
  | list | user | pass | nlst | pwd | pasv | mdtm | syst | feat | quit | unknown => rfl

/-- What a command stores, and where it leaves the session. -/
theorem builds_execute (o : Outcome) (q : Req) (line : List UInt8) :
    Builds (storedBy o q.conn.currentdir line) (nextDir o q.conn.currentdir line) q
      (execute o q line).2 := by
  obtain ⟨hmem, hdir⟩ := writes_execute o q line
  refine ⟨?_, hdir⟩
  rw [stored_eq, stored_eq, hmem, List.filter_append, memoryBy_stores]

/-! ### The directories of the sessions -/

/-- Nothing is cut from a path without a slash. -/
theorem cutLastSlash_none {bs : List UInt8} (h : cutLastSlash bs = none) : 47 ∉ bs := by
  induction bs with
  | nil => exact List.not_mem_nil
  | cons b bs ih =>
    rw [cutLastSlash] at h
    cases hcut : cutLastSlash bs with
    | some r => simp [hcut] at h
    | none =>
      have hb : b ≠ 47 := by
        rintro rfl
        simp [hcut] at h
      exact List.not_mem_cons_of_ne_of_not_mem hb.symm (ih hcut)

/-- `cut_last_slash` keeps what stands before the last slash. What is behind it has no slash in it.
By induction on the path. -/
theorem cutLastSlash_eq {bs r : List UInt8} (h : cutLastSlash bs = some r) :
    ∃ t, bs = r ++ 47 :: t ∧ 47 ∉ t := by
  induction bs generalizing r with
  | nil => cases h
  | cons b bs ih =>
    rw [cutLastSlash] at h
    cases hcut : cutLastSlash bs with
    | some r' =>
      rw [hcut] at h
      cases h
      obtain ⟨t, rfl, ht⟩ := ih hcut
      exact ⟨t, rfl, ht⟩
    | none =>
      rw [hcut] at h
      dsimp only at h
      split at h
      · next hb =>
        cases h
        exact ⟨bs, by rw [hb]; rfl, cutLastSlash_none hcut⟩
      · cases h

/-- If the step serves a request of a session, `P` holds of the session and of the line. -/
def Served (w : World) (P : Outcome → Conn → List UInt8 → Prop) : Event → Prop
  | .serve id (some (b :: bs)) o =>
    ∀ conn, w.conn? id = some conn → o.malloc = true → P o conn (request (b :: bs))
  | _ => True

/-- A property of the served requests may be replaced by one that is equivalent for the connections
of the server. -/
theorem Served.congr {w : World} {P Q : Outcome → Conn → List UInt8 → Prop}
    (h : ∀ o line, ∀ conn ∈ w.conns, P o conn line ↔ Q o conn line) (e : Event) :
    Served w P e ↔ Served w Q e := by
  match e with
  | .serve id (some (b :: bs)) o =>
    refine forall₃_congr fun conn hconn _ => ?_
    exact h o (request (b :: bs)) conn (World.conn?_eq hconn).1
  | .serve _ (some []) _ | .serve _ none _ | .select | .accept _ _ _ => exact Iff.rfl

/-- A new session starts in the root directory, and the others stay where they are. -/
theorem acceptStep_dirs (w : World) (fd : Option Nat) (remote : UInt32) (mem : Option Fresh) :
    ∀ c ∈ (acceptStep w fd remote mem).conns, c ∈ w.conns ∨ c.currentdir = [47] := by
  dsimp only [acceptStep]
  split
  · exact fun c hc => .inl hc
  · cases mem with
    | none => simp
    | some m =>
      intro c hc
      rcases List.mem_cons.1 hc with rfl | hc
      · exact .inr rfl
      · exact .inl hc

/-- A property of the directories is kept by every step in which the command, unless it ends its
session, leaves the session in a directory with the property. -/
theorem dirs_step {D : List UInt8 → Prop} (hroot : D [47]) {w : World} (hw : ConnList w)
    (hD : ∀ c ∈ w.conns, D c.currentdir) (e : Event) :
    (∀ c ∈ (step w e).conns, D c.currentdir) ↔
      Served w (fun o conn line =>
        Ends o (w.req conn line) line ∨ D (nextDir o conn.currentdir line)) e := by
  match e with
  | .select =>
    obtain ⟨readfds, hsel⟩ := selectStep_frame w
    show (∀ c ∈ (selectStep w).conns, D c.currentdir) ↔ True
    rw [hsel, iff_true]
    exact hD
  | .accept fd remote mem =>
    refine iff_of_true (fun c hc => ?_) trivial
    rcases acceptStep_dirs w fd remote mem c hc with hc | hc
    · exact hD c hc
    · exact hc ▸ hroot
  | .serve id none o | .serve id (some []) o =>
    refine iff_of_true (fun c hc => ?_) trivial
    dsimp only [step] at hc
    cases hconn : w.conn? id with
    | none => exact hD c (by rwa [hconn] at hc)
    | some conn =>
      rw [hconn] at hc
      exact hD c (List.mem_filter.1 hc).1
  | .serve id (some (b :: bs)) o =>
    dsimp only [step, Served]
    cases hconn : w.conn? id with
    | none => simpa using hD
    | some conn =>
      have hmem := (World.conn?_eq hconn).1
      cases ho : o.malloc with
      | false =>
        dsimp only
        rw [serveStep_noMem w conn b bs ho]
        refine iff_of_true (fun c hc => ?_) (by simp)
        rcases (hw.mem_afterRequest hmem).1 (List.mem_filter.1 hc).1 with rfl | ⟨hc, -⟩
        · exact hD _ hmem
        · exact hD c hc
      | true =>
        have hid := (keeps_execute_conn o (w.req conn (request (b :: bs)))
          (request (b :: bs))).id
        have hdir := (builds_execute o (w.req conn (request (b :: bs)))
          (request (b :: bs))).2
        have hret := execute_fst_iff o (w.req conn (request (b :: bs))) (request (b :: bs))
        dsimp only
        rw [serveStep_request w conn b bs ho rfl]
        simp only [Option.some.injEq, forall_eq', forall_const]
        by_cases hends : Ends o (w.req conn (request (b :: bs))) (request (b :: bs))
        · rw [if_pos (hret.2 hends)]
          -- the session is dropped, and the others keep their directories
          refine iff_of_true (fun c hc => ?_) (.inl hends)
          obtain ⟨hc, hne⟩ := List.mem_filter.1 hc
          rcases (hw.mem_afterRequest hmem).1 hc with rfl | ⟨hc, -⟩
          · simp at hne
          · exact hD c hc
        · rw [if_neg fun h => hends (hret.1 h)]
          simp only [hw.mem_afterRequest hmem, hends, false_or]
          rw [← World.req_conn w conn (request (b :: bs)), ← hdir]
          exact ⟨fun h => h _ (.inl rfl), fun h c hc => hc.elim (fun heq => heq ▸ h)
            fun hc => hD c hc.1⟩

end NucleoH743.Ftp
