import NucleoH743.Lib.Run
import NucleoH743.Proofs.Ftp.Paths

/-!
# `Proofs.Ftp.Buffers`: what fits into the buffers of the FTP server

`recv` may fill `ftp_buf`, and the NUL is stored behind what it received. `do_full_path` gets the
size of `spare_buf` and never looks at it. The address that `PORT` prints always fits.

The server has three buffers of fixed size. `ftp_buf` takes a request as it was received,
`spare_buf` takes the path or the text that a command builds, and each session keeps its current
directory in 256 characters. Every store is an effect of the model (`spareBuf`, `ftpBuf`), so that a
run stores inside the buffers is a property of its trace.

The proof goes from the inside out. The length of a path that `do_full_path` builds is that of its
parts, by the branch that it takes (`doFullPath_fits_iff`). `RETR` copies the line as well, and
`CDUP` the directory. A numeral of `PORT` is an `int` and has at most eleven characters, so the text
of its address needs no condition. Then one step of the service loop stores inside the buffers iff
its request fits.

A current directory that is too long is one more way out of the buffers, as the next relative path
is joined to it. So the invariant of a run keeps every directory below 256 characters beside the
bound on the stores.

- `buffers_inBounds_iff`: a run stores only inside the buffers, and keeps every current directory
  below 256 characters, iff every request is short enough for them.
-/

set_option autoImplicit false

namespace NucleoH743.Ftp

open CStr (textBytes)
open EventRun (run Along along_congr)

/-- The size of `spare_buf` -/
def spareBufSize : Nat := 256

/-- A store of a string, with its NUL, or of a NUL, stays inside its buffer. -/
def Effect.InBounds : Effect → Prop
  | .ftpBuf i => i < ftpBufferSize
  | .spareBuf s => s.length < spareBufSize
  | _ => True

instance : DecidablePred Effect.InBounds := fun e =>
  match e with
  | .ftpBuf i => inferInstanceAs (Decidable (i < ftpBufferSize))
  | .spareBuf s => inferInstanceAs (Decidable (s.length < spareBufSize))
  | .requested _ | .socket _ | .bind _ _ | .listen _ | .connect _ _ _ _ | .accept _ _ | .select _
  | .recv _ | .send _ _ _ | .close _ | .nullPtr | .pastEnd | .accepted _ | .disconnected _ =>
    isTrue trivial

/-- The server has stored only inside its buffers, and every current directory fits into
`spare_buf`. -/
structure InBounds (w : World) : Prop where
  stores : ∀ x ∈ w.trace, x.2.InBounds
  dirs : ∀ c ∈ w.conns, c.currentdir.length < spareBufSize

instance (w : World) : Decidable (InBounds w) :=
  decidable_of_iff ((∀ x ∈ w.trace, x.2.InBounds) ∧
    ∀ c ∈ w.conns, c.currentdir.length < spareBufSize)
    ⟨fun h => ⟨h.1, h.2⟩, fun h => ⟨h.stores, h.dirs⟩⟩

/-! ### Lengths -/

/-- A printed `int` has at most 11 characters. -/
theorem formatInt_length {n : Int} (hlo : -2 ^ 31 ≤ n) (hhi : n ≤ 2 ^ 31) :
    (formatInt n).length ≤ 11 := by
  have hlen : (formatInt n).length = (toString n).length := by
    rw [formatInt, textBytes, List.length_map, String.length_toList]
  rw [hlen, Int.toString_eq_repr, Int.repr_eq_if]
  split
  · have hrepr : n.toNat.repr.length ≤ 10 := (Nat.length_repr_le_iff (by decide)).2 (by omega)
    omega
  · have hrepr : (-n).toNat.repr.length ≤ 10 := (Nat.length_repr_le_iff (by decide)).2 (by omega)
    rw [String.length_append]
    have hsign : "-".length = 1 := by decide
    omega

/-- `atoi` gives an `int`. -/
theorem atoi_range (s : List UInt8) : -2 ^ 31 ≤ atoi s ∧ atoi s ≤ 2 ^ 31 := by
  unfold atoi
  split <;> omega

/-- A field of `PORT` is what `atoi` makes of a token, so it has the size of an `int`. -/
theorem portcom_range (o : Outcome) (tokens : List (List UInt8)) (i : Nat) :
    -2 ^ 31 ≤ (portcom o tokens).getD i 0 ∧ (portcom o tokens).getD i 0 ≤ 2 ^ 31 := by
  rw [List.getD_eq_getElem?_getD]
  cases h : (portcom o tokens)[i]? with
  | none => decide
  | some n =>
    obtain ⟨j, -, hj⟩ := List.mem_map.1 (List.mem_of_getElem? h)
    rw [← hj]
    exact atoi_range _

/-- The address of `PORT` fits. -/
theorem portText_fits (o : Outcome) (p : Option (List UInt8)) :
    (portText o p).length < spareBufSize := by
  have hdot : (textBytes ".").length = 1 := by decide
  have hnum (i : Nat) : (formatInt ((portcom o (strtok (textBytes ".,;()")
      (p.getD o.stray))).getD i 0)).length ≤ 11 :=
    formatInt_length (portcom_range _ _ i).1 (portcom_range _ _ i).2
  have h0 := hnum 0
  have h1 := hnum 1
  have h2 := hnum 2
  have h3 := hnum 3
  simp only [portText, List.length_append, hdot, spareBufSize]
  omega

/-- A path that is cut at its last slash gets shorter. -/
theorem cutLastSlash_length {bs r : List UInt8} (h : cutLastSlash bs = some r) :
    r.length < bs.length := by
  obtain ⟨t, rfl, -⟩ := cutLastSlash_eq h
  rw [List.length_append, List.length_cons]
  omega

/-- Stepping down gives no longer path, or the root. -/
theorem doStepDown_fits {path : List UInt8} (h : path.length < spareBufSize) :
    (doStepDown path).length < spareBufSize := by
  cases path with
  | nil => decide
  | cons b bs =>
    show (((cutLastSlash bs).map (b :: ·)).getD [47]).length < spareBufSize
    cases hcut : cutLastSlash bs with
    | none => exact Nat.lt_of_le_of_lt (Nat.succ_le_succ (Nat.zero_le _)) h
    | some r => exact Nat.lt_trans (Nat.succ_lt_succ (cutLastSlash_length hcut)) h

/-- A path gets no longer by the loss of its slash. -/
theorem trimSlash_fits {path : List UInt8} (h : path.length < spareBufSize) :
    (trimSlash path).length < spareBufSize := by
  unfold trimSlash
  split
  · rw [List.length_dropLast]
    omega
  · exact h

/-! ### Requests -/

/-- The path that `do_full_path` builds of the argument fits: an absolute one, or one in the
root directory, by its own length, and another by its length behind the directory and a slash,
unless it is a step down. -/
def PathFits (currentdir arg : List UInt8) : Prop :=
  if arg.head? = some 47 ∨ currentdir = [47] then arg.length < spareBufSize
  else arg.take 2 = [46, 46] ∨ currentdir.length + 1 + arg.length < spareBufSize

/-- The path of a command fits the buffer iff the lengths that its branch adds up do. -/
theorem doFullPath_fits_iff {currentdir : List UInt8} (h : currentdir.length < spareBufSize)
    (arg : List UInt8) :
    (doFullPath currentdir arg).1.length < spareBufSize ↔ PathFits currentdir arg := by
  unfold doFullPath PathFits
  by_cases habs : arg.head? = some 47
  · rw [if_pos habs, if_pos (.inl habs)]
  · by_cases hroot : currentdir = [47]
    · rw [if_neg habs, if_pos hroot, if_pos (.inr hroot)]
    · rw [if_neg habs, if_neg hroot, if_neg (not_or.2 ⟨habs, hroot⟩)]
      by_cases hup : arg.take 2 = [46, 46]
      · rw [if_pos hup]
        exact iff_of_true (doStepDown_fits h) (.inl hup)
      · rw [if_neg hup, or_iff_right hup, List.length_append, List.length_cons]
        omega

/-- The `..` branch of `do_full_path` keeps the directory short. -/
theorem doFullPath_dir_fits {currentdir : List UInt8} (h : currentdir.length < spareBufSize)
    (arg : List UInt8) : (doFullPath currentdir arg).2.length < spareBufSize := by
  unfold doFullPath
  split_ifs
  · exact h
  · exact h
  · exact doStepDown_fits h
  · exact h

/-- What the command makes of its argument fits into `spare_buf`. -/
def ArgFits (o : Outcome) (currentdir line : List UInt8) : Prop :=
  match doParseCommand line with
  | .retr => (copied o line).length < spareBufSize ∧
      PathFits currentdir ((parameterPtr line).getD o.stray)
  | .cwd | .stor | .size | .mkd | .dele | .rmd =>
    PathFits currentdir ((parameterPtr line).getD o.stray)
  | .list | .user | .pass | .nlst | .pwd | .type | .pasv | .mdtm | .syst | .cdup | .port | .rest
  | .feat | .quit | .unknown => True

/-- The strings that a command stores fit iff its argument does. -/
theorem storedBy_fits_iff (o : Outcome) {currentdir : List UInt8}
    (h : currentdir.length < spareBufSize) (line : List UInt8) :
    (∀ s ∈ storedBy o currentdir line, s.length < spareBufSize) ↔
      ArgFits o currentdir line := by
  have hpath : (paramPath o currentdir (parameterPtr line)).length < spareBufSize ↔
      PathFits currentdir ((parameterPtr line).getD o.stray) := doFullPath_fits_iff h _
  unfold storedBy ArgFits
  cases doParseCommand line with
  | cdup => simpa using h
  | port => simpa using portText_fits o (parameterPtr line)
  | retr => simp [hpath]
  | cwd | stor | size | mkd | dele | rmd => simp [hpath]
  | list | user | pass | nlst | pwd | type | pasv | mdtm | syst | rest | feat | quit | unknown =>
    simp

/-- A command whose argument fits leaves the session in a directory that fits. `CWD` makes its path
the directory, and this was stored before; the others only cut from it. -/
theorem nextDir_fits {o : Outcome} {currentdir line : List UInt8}
    (h : currentdir.length < spareBufSize) (hfits : ArgFits o currentdir line) :
    (nextDir o currentdir line).length < spareBufSize := by
  have hstored := (storedBy_fits_iff o h line).2 hfits
  unfold nextDir
  unfold storedBy at hstored
  cases hcmd : doParseCommand line with
  | cwd =>
    rw [hcmd] at hstored
    exact hstored _ (List.mem_singleton_self _)
  | list => exact trimSlash_fits h
  | cdup => exact doStepDown_fits h
  | retr | stor | size | mkd | dele | rmd => exact doFullPath_dir_fits h _
  | user | pass | nlst | pwd | type | pasv | mdtm | syst | port | rest | feat | quit | unknown =>
    exact h

/-! ### The service loop -/

/-- If the step serves a request, it is shorter than `ftp_buf`, and its argument fits. -/
def Fits (w : World) : Event → Prop
  | .serve id (some (b :: bs)) o => ∀ conn, w.conn? id = some conn →
      (b :: bs).length < ftpBufferSize ∧
        (o.malloc = true → ArgFits o conn.currentdir (request (b :: bs)))
  | _ => True

/-- Only the stores of a request can leave a buffer. -/
theorem out_inBounds_iff (q : Req) :
    (∀ e ∈ q.out, e.InBounds) ↔ ∀ e ∈ q.stored, e.InBounds := by
  constructor
  · exact fun h e he => h e (List.mem_filter.1 he).1
  · intro h e he
    cases hst : e.stores with
    | true => exact h e (List.mem_filter.2 ⟨he, hst⟩)
    | false =>
      cases e with
      | ftpBuf _ | spareBuf _ => cases hst
      | _ => trivial

/-- A command stores inside `spare_buf` iff its argument fits. -/
theorem execute_inBounds_iff {w : World} {conn : Conn} (h : conn.currentdir.length < spareBufSize)
    (o : Outcome) (line : List UInt8) :
    (∀ e ∈ (execute o (w.req conn line) line).2.out, e.InBounds) ↔
      ArgFits o conn.currentdir line := by
  have hreq : (w.req conn line).stored = [] := rfl
  rw [out_inBounds_iff, (builds_execute o (w.req conn line) line).1, hreq, List.nil_append,
    ← storedBy_fits_iff o h line]
  exact List.forall_mem_map

/-- The stores after a request. -/
theorem afterRequest_stores_iff {w : World} (h : ∀ x ∈ w.trace, x.2.InBounds) (conn : Conn)
    (n : Nat) (q : Req) :
    (∀ x ∈ (w.afterRequest conn n q).trace, x.2.InBounds) ↔
      n < ftpBufferSize ∧ ∀ e ∈ q.out, e.InBounds := by
  have htrace : (w.afterRequest conn n q).trace =
      w.trace ++ [(conn.id, .ftpBuf n)] ++ q.out.map (Prod.mk conn.id) := rfl
  rw [htrace]
  simp only [List.mem_append, List.mem_singleton, or_imp, forall_and, forall_eq,
    List.forall_mem_map]
  exact ⟨fun hall => ⟨hall.1.2, hall.2⟩, fun hall => ⟨⟨h, hall.1⟩, hall.2⟩⟩

/-- Dropping a connection stores nothing. -/
theorem dropConn_stores_iff (w : World) (conn : Conn) :
    (∀ x ∈ (w.dropConn conn).trace, x.2.InBounds) ↔ ∀ x ∈ w.trace, x.2.InBounds := by
  have htrace : (w.dropConn conn).trace = w.trace ++ [(conn.id, .disconnected conn.sockfd)] := rfl
  have hdisc : (Effect.disconnected conn.sockfd).InBounds := trivial
  rw [htrace]
  simp [or_imp, forall_and, hdisc]

/-- Accepting a connection stores nothing. Its welcome message is sent from a constant. -/
theorem acceptStep_stores {w : World} (h : ∀ x ∈ w.trace, x.2.InBounds) (fd : Option Nat)
    (remote : UInt32) (mem : Option Fresh) :
    ∀ x ∈ (acceptStep w fd remote mem).trace, x.2.InBounds := by
  dsimp only [acceptStep]
  split
  · exact h
  · have hrec : ∀ (w : World) (id : Nat) (es : List Effect), (∀ x ∈ w.trace, x.2.InBounds) →
        (∀ e ∈ es, e.InBounds) → ∀ x ∈ (w.record id es).trace, x.2.InBounds := by
      intro w id es hw hes x hx
      rcases List.mem_append.1 hx with hx | hx
      · exact hw x hx
      · obtain ⟨e, he, rfl⟩ := List.mem_map.1 hx
        exact hes e he
    cases mem with
    | none =>
      refine hrec _ _ _ (hrec _ _ _ h ?_) ?_
      · simp [Effect.InBounds]
      · simp [Effect.InBounds]
    | some m =>
      refine hrec _ _ _ h ?_
      simp [Effect.InBounds]

/-- One step stays inside the buffers iff its request fits. Only a request stores in the buffers.
Without memory for `sbuf` it is not served, but the NUL behind what was received is stored
before. -/
theorem inBounds_step_iff {w : World} (hw : ConnList w) (h : InBounds w) (e : Event) :
    InBounds (step w e) ↔ Fits w e := by
  have hdirs := dirs_step (D := fun d => d.length < spareBufSize) (by decide) hw h.dirs e
  match e with
  -- neither of these stores anything in the buffers
  | .select =>
    obtain ⟨readfds, hsel⟩ := selectStep_frame w
    show InBounds (selectStep w) ↔ True
    rw [hsel, iff_true]
    exact ⟨h.stores, h.dirs⟩
  | .accept fd remote mem =>
    exact iff_of_true ⟨acceptStep_stores h.stores fd remote mem, hdirs.2 trivial⟩ trivial
  | .serve id none o | .serve id (some []) o =>
    refine iff_of_true ⟨?_, hdirs.2 trivial⟩ trivial
    dsimp only [step]
    cases w.conn? id with
    | none => exact h.stores
    | some conn => exact (dropConn_stores_iff (w.fdClr conn.sockfd) conn).2 h.stores
  | .serve id (some (b :: bs)) o =>
    dsimp only [step, Fits] at hdirs ⊢
    cases hconn : w.conn? id with
    | none => simpa using h
    | some conn =>
      have hdir := h.dirs conn (World.conn?_eq hconn).1
      rw [hconn] at hdirs
      simp only [Served, hconn, Option.some.injEq, forall_eq'] at hdirs ⊢
      -- without memory for `sbuf` the request itself is not served, but its NUL is stored
      cases ho : o.malloc with
      | false =>
        rw [serveStep_noMem w conn b bs ho] at hdirs ⊢
        have hall := hdirs.2 (by simp [ho])
        have hst := (dropConn_stores_iff _ conn).trans (afterRequest_stores_iff h.stores conn
          (b :: bs).length { vol := w.vol, sockets := w.sockets, conn })
        constructor
        · exact fun hin => ⟨(hst.1 hin.stores).1, by simp⟩
        · exact fun hfit => ⟨hst.2 ⟨hfit.1, by simp⟩, hall⟩
      | true =>
        have hst := afterRequest_stores_iff h.stores conn (b :: bs).length
          (execute o (w.req conn (request (b :: bs))) (request (b :: bs))).2
        rw [execute_inBounds_iff hdir] at hst
        have hstep : (∀ x ∈ (serveStep w conn (some (b :: bs)) o).trace, x.2.InBounds) ↔
            (b :: bs).length < ftpBufferSize ∧
              ArgFits o conn.currentdir (request (b :: bs)) := by
          rw [serveStep_request w conn b bs ho rfl]
          split
          · exact (dropConn_stores_iff _ _).trans hst
          · exact hst
        constructor
        · exact fun hin => ⟨(hstep.1 hin.stores).1, fun _ => (hstep.1 hin.stores).2⟩
        · exact fun hfit => ⟨hstep.2 ⟨hfit.1, hfit.2 rfl⟩,
            hdirs.2 fun _ => .inr (nextDir_fits hdir (hfit.2 rfl))⟩

/-- A run stays inside the buffers iff all its requests fit. A request fits if it leaves room for
its NUL in `ftp_buf`, and if the path that it asks for, joined to the current directory where that
is done, leaves room for its own in `spare_buf`. -/
theorem buffers_inBounds_iff (v : FatFs.Volume) (sockfd : Nat) (es : List Event) :
    Along step (fun w e => InBounds (step w e)) (World.start v sockfd) es ↔
      Along step Fits (World.start v sockfd) es := by
  have hstep : ∀ w e, ConnList w ∧ InBounds w → InBounds (step w e) →
      ConnList (step w e) ∧ InBounds (step w e) :=
    fun w e hw he => ⟨hw.1.step e, he⟩
  have hiff : ∀ w e, ConnList w ∧ InBounds w → (InBounds (step w e) ↔ Fits w e) :=
    fun w e hw => inBounds_step_iff hw.1 hw.2 e
  have hstart : ConnList (World.start v sockfd) ∧ InBounds (World.start v sockfd) :=
    ⟨⟨List.nodup_nil, by simp [World.start]⟩, ⟨by simp [World.start], by simp [World.start]⟩⟩
  exact along_congr hstep hiff hstart es

/-- A chunk of 4096 bytes puts the NUL behind `ftp_buf`, and `SIZE` with an argument of 300
letters overflows `spare_buf`. -/
theorem buffers_overflow :
    (¬ Along step (fun w e => InBounds (step w e)) (World.start emptyDisk 3)
      [.accept (some 4) 0 (some { pasvActive := false, pasvSockfd := 0, pasvPort := 0 }),
        .serve 0 (some (List.replicate 4096 65)) {}]) ∧
    ¬ Along step (fun w e => InBounds (step w e)) (World.start emptyDisk 3)
      [.accept (some 4) 0 (some { pasvActive := false, pasvSockfd := 0, pasvPort := 0 }),
        .serve 0 (some (textBytes "SIZE " ++ List.replicate 300 97)) {}] := by
  decide +kernel

end NucleoH743.Ftp
