import NucleoH743.Proofs.Ftp.Service
import Mathlib.Data.List.TakeWhile

/-!
# `Proofs.Ftp.Segmentation`: the control stream and its chunks

The service loop takes each result of `recv` for one command line. `session` is the run of one
connection over the chunks of its control stream, where the request number `n` finds the
outcomes `env n`. `dialogue` is what the run executes and replies.

`segmentation_iff`: two cuttings of a stream give the same dialogue, whatever the outcomes, iff
their chunks show the same lines (`SameLines`): pairwise the same bytes before the first CR, LF
or NUL, up to a `QUIT`. `sameLines_iff_linewise`: a cutting shows the lines of the stream only
if every chunk is one line.

Which outcomes the requests meet is not fixed by the stream, so the statement quantifies over them:
the same dialogue under all outcomes. In one direction equal lines are served alike, chunk by chunk,
where two chunks of different length differ in the NUL that is put behind them and in nothing that
the dialogue shows (`Alike`). In the other direction an outcome that gives every request its memory
makes the dialogue show the line of each chunk, so that equal dialogues have equal lines.

A `QUIT` ends a connection, and what comes behind it is not served; so the lines are compared up to
there.

The last part says what this means for a cutting of lines that all end with CR and LF. By counting
the bytes that end no line, a chunk can hold nothing besides its own line.
-/

set_option autoImplicit false

namespace NucleoH743.Ftp

open EventRun
open CStr (textBytes)

/-- A line on the wire. -/
def crlf (line : List UInt8) : List UInt8 := line ++ [13, 10]

/-- The chunks are what `recv` can return of the stream. -/
structure Cutting (stream : List UInt8) (chunks : List (List UInt8)) : Prop where
  flatten : chunks.flatten = stream
  nonempty : ∀ c ∈ chunks, c ≠ []
  fits : ∀ c ∈ chunks, c.length ≤ ftpBufferSize

/-- The run of the connection `id` over the chunks. -/
def session (w : World) (id : Nat) (env : Nat → Outcome) (chunks : List (List UInt8)) : World :=
  run step w (chunks.mapIdx fun n c => .serve id (some c) (env n))

/-- The effects that make up the dialogue: an executed line, and a reply. -/
def Shown (fd : Int) : Effect → Bool
  | .requested _ => true
  | .send fd' _ _ => fd' = fd
  | _ => false

/-- The lines that the connection `id` executed and the replies on its control socket. -/
def dialogue (id : Nat) (fd : Int) (trace : List (Nat × Effect)) : List Effect :=
  (trace.filter fun p => p.1 = id && Shown fd p.2).map Prod.snd

/-- The chunks show the same lines, up to a `QUIT`. -/
def SameLines : List (List UInt8) → List (List UInt8) → Prop
  | [], [] => True
  | c :: cs, d :: ds =>
    request c = request d ∧ (doParseCommand (request c) = .quit ∨ SameLines cs ds)
  | _, _ => False

/-! ### Dialogues -/

section Dialogue
variable (id : Nat) (fd : Int)

/-- The dialogue of a run in two parts is that of the first and then that of the second. -/
@[simp] theorem dialogue_append (t t' : List (Nat × Effect)) :
    dialogue id fd (t ++ t') = dialogue id fd t ++ dialogue id fd t' := by
  simp [dialogue]

/-- A step only adds to the trace. By the result of `recv`, of `malloc` and of the request. -/
theorem step_trace (w : World) (recv : Option (List UInt8)) (o : Outcome) :
    w.trace <+: (step w (.serve id recv o)).trace := by
  dsimp only [step]
  cases w.conn? id with
  | none => exact List.prefix_refl _
  | some conn =>
    cases recv with
    | none => exact List.prefix_append _ _
    | some chunk =>
      cases chunk with
      | nil => exact List.prefix_append _ _
      | cons b bs =>
        dsimp only
        rw [serveStep_eq w conn b bs o rfl]
        have hreq : ∀ q : Req, w.trace <+: (w.afterRequest conn (b :: bs).length q).trace :=
          fun q => (List.prefix_append _ _).trans (List.prefix_append _ _)
        split
        · exact (hreq _).trans (List.prefix_append _ _)
        · exact hreq _

/-- Without a chunk nothing happens. -/
theorem session_nil (w : World) (env : Nat → Outcome) : session w id env [] = w := rfl

/-- The first chunk is served, and then the others, each under its own outcome. -/
theorem session_cons (w : World) (env : Nat → Outcome) (c : List UInt8)
    (cs : List (List UInt8)) :
    session w id env (c :: cs) =
      session (step w (.serve id (some c) (env 0))) id (fun n => env (n + 1)) cs := by
  simp [session, List.mapIdx_cons]

/-- A session only adds to the trace. By induction on the chunks. -/
theorem session_trace (w : World) (env : Nat → Outcome) (cs : List (List UInt8)) :
    w.trace <+: (session w id env cs).trace := by
  induction cs generalizing w env with
  | nil => exact List.prefix_refl _
  | cons c cs ih =>
    rw [session_cons]
    exact (step_trace id w _ _).trans (ih _ _)

/-- A session without its connection does nothing. -/
theorem session_gone {w : World} (hgone : w.conn? id = none) (env : Nat → Outcome)
    (cs : List (List UInt8)) : session w id env cs = w := by
  induction cs generalizing env with
  | nil => rfl
  | cons c cs ih =>
    have hstep : step w (.serve id (some c) (env 0)) = w := by
      dsimp only [step]
      rw [hgone]
    rw [session_cons, hstep]
    exact ih _

end Dialogue

/-! ### One request -/

/-- Two threads that differ at most in the effects outside the dialogue of the connection. -/
structure Alike (id : Nat) (fd : Int) (w w' : World) : Prop where
  vol : w'.vol = w.vol
  sockets : w'.sockets = w.sockets
  conns : w'.conns = w.conns
  dialogue : dialogue id fd w'.trace = dialogue id fd w.trace

/-- Two threads that are alike stay so behind the same request, however long the chunk was that it
came in. -/
theorem alike_afterRequest {id : Nat} {fd : Int} {w w' : World} (h : Alike id fd w w')
    (conn : Conn) (n n' : Nat) (q : Req) :
    Alike id fd (w.afterRequest conn n q) (w'.afterRequest conn n' q) := by
  refine ⟨rfl, rfl, ?_, ?_⟩
  · show w'.conns.map _ = w.conns.map _
    rw [h.conns]
  · have hbuf : ∀ n, dialogue id fd [(conn.id, .ftpBuf n)] = [] := by simp [dialogue, Shown]
    show dialogue id fd (w'.trace ++ [_] ++ _) = dialogue id fd (w.trace ++ [_] ++ _)
    simp only [dialogue_append, hbuf, h.dialogue]

/-- They stay so where the connection is dropped. -/
theorem alike_dropConn {id : Nat} {fd : Int} {w w' : World} (h : Alike id fd w w')
    (conn : Conn) : Alike id fd (w.dropConn conn) (w'.dropConn conn) := by
  refine ⟨h.vol, ?_, ?_, ?_⟩
  · show Function.update w'.sockets _ _ = Function.update w.sockets _ _
    rw [h.sockets]
  · show w'.conns.filter _ = w.conns.filter _
    rw [h.conns]
  · show dialogue id fd (w'.trace ++ _) = dialogue id fd (w.trace ++ _)
    rw [dialogue_append, dialogue_append, h.dialogue]

/-- Two chunks that show the same line have the same effect. The requests are equal, so they run
alike; the two NULs stand at different places of `ftp_buf`, which the dialogue does not show. -/
theorem alike_serve {id : Nat} {fd : Int} {w w' : World} (h : Alike id fd w w')
    {c d : List UInt8} (hc : c ≠ []) (hd : d ≠ []) (heq : request c = request d) (o : Outcome) :
    Alike id fd (step w (.serve id (some c) o)) (step w' (.serve id (some d) o)) := by
  obtain ⟨b, bs, rfl⟩ := List.exists_cons_of_ne_nil hc
  obtain ⟨b', bs', rfl⟩ := List.exists_cons_of_ne_nil hd
  have hfind : w'.conn? id = w.conn? id := by rw [World.conn?, World.conn?, h.conns]
  dsimp only [step]
  rw [hfind]
  cases w.conn? id with
  | none => exact h
  | some conn =>
    dsimp only
    -- the request is the same on both sides
    have hreq : ftpProcessRequest o { vol := w'.vol, sockets := w'.sockets, conn }
        (b' :: bs' ++ [0]) =
        ftpProcessRequest o { vol := w.vol, sockets := w.sockets, conn } (b :: bs ++ [0]) := by
      have hline : CStr.ofBytes (stripEol (b' :: bs' ++ [0])) =
          CStr.ofBytes (stripEol (b :: bs ++ [0])) := heq.symm
      simp only [ftpProcessRequest, h.vol, h.sockets, hline]
    rw [serveStep_eq w' conn b' bs' o hreq, serveStep_eq w conn b bs o rfl]
    split
    · exact alike_dropConn (alike_afterRequest h conn _ _ _) _
    · exact alike_afterRequest h conn _ _ _

section OneRequest
variable {id : Nat} {w : World} {conn : Conn} {c : List UInt8} {o : Outcome}

/-- The line of a request is the next entry of the dialogue. -/
theorem serve_requested (hconn : w.conn? id = some conn) (hc : c ≠ []) (ho : o.malloc = true) :
    ∃ rest, dialogue id conn.sockfd (step w (.serve id (some c) o)).trace =
      dialogue id conn.sockfd w.trace ++ .requested (request c) :: rest := by
  obtain ⟨b, bs, rfl⟩ := List.exists_cons_of_ne_nil hc
  have hid : conn.id = id := (World.conn?_eq hconn).2
  have hkeep := keeps_execute_conn o (w.req conn (request (b :: bs))) (request (b :: bs))
  obtain ⟨es, hes⟩ := hkeep.out
  dsimp only [step]
  rw [hconn]
  dsimp only
  rw [serveStep_request w conn b bs ho rfl]
  generalize execute o (w.req conn (request (b :: bs))) (request (b :: bs)) = r at hes ⊢
  have hout : r.2.out = .requested (request (b :: bs)) :: es := hes.symm
  -- what follows the log line, with or without the end of the connection
  obtain ⟨rest, hrest⟩ : ∃ rest, dialogue id conn.sockfd
      (w.afterRequest conn (b :: bs).length r.2).trace =
        dialogue id conn.sockfd w.trace ++ .requested (request (b :: bs)) :: rest := by
    refine ⟨dialogue id conn.sockfd (es.map (Prod.mk conn.id)), ?_⟩
    show dialogue id conn.sockfd (w.trace ++ [(conn.id, _)] ++ r.2.out.map (Prod.mk conn.id)) = _
    rw [hout]
    simp [dialogue, Shown, hid]
  split
  · refine ⟨rest ++ dialogue id conn.sockfd
      [(r.2.conn.id, .disconnected r.2.conn.sockfd)], ?_⟩
    show dialogue id conn.sockfd ((w.afterRequest conn (b :: bs).length r.2).trace ++ [_]) = _
    rw [dialogue_append, hrest]
    simp
  · exact ⟨rest, hrest⟩

/-- A command that ends the connection, or a failed `malloc`, drops it. From then on the session
executes nothing. -/
theorem serve_gone (hconn : w.conn? id = some conn) (hc : c ≠ [])
    (hends : o.malloc = false ∨ Ends o (w.req conn (request c)) (request c)) :
    (step w (.serve id (some c) o)).conn? id = none := by
  obtain ⟨b, bs, rfl⟩ := List.exists_cons_of_ne_nil hc
  obtain ⟨-, rfl⟩ := World.conn?_eq hconn
  dsimp only [step]
  rw [hconn]
  dsimp only
  cases ho : o.malloc with
  | false =>
    rw [serveStep_noMem w conn b bs ho]
    exact World.conn?_dropConn _ _
  | true =>
    have hkeep := keeps_execute_conn o (w.req conn (request (b :: bs))) (request (b :: bs))
    have hret := (execute_fst_iff o _ _).2 (hends.resolve_left (by simp [ho]))
    rw [serveStep_request w conn b bs ho rfl, if_pos hret]
    have hid : (execute o (w.req conn (request (b :: bs))) (request (b :: bs))).2.conn.id =
      conn.id := hkeep.id
    rw [← hid]
    exact World.conn?_dropConn _ _

/-- Every other request keeps the connection and its control socket. -/
theorem serve_stays (hconn : w.conn? id = some conn) (hc : c ≠ []) (ho : o.malloc = true)
    (hends : ¬ Ends o (w.req conn (request c)) (request c)) :
    ∃ conn', (step w (.serve id (some c) o)).conn? id = some conn' ∧
      conn'.sockfd = conn.sockfd := by
  obtain ⟨b, bs, rfl⟩ := List.exists_cons_of_ne_nil hc
  have hkeep := keeps_execute_conn o (w.req conn (request (b :: bs))) (request (b :: bs))
  dsimp only [step]
  rw [hconn]
  dsimp only
  rw [serveStep_request w conn b bs ho rfl, if_neg (mt (execute_fst_iff o _ _).1 hends)]
  exact ⟨_, World.conn?_afterRequest hconn hkeep.id, hkeep.sockfd⟩

end OneRequest

/-- A longer trace has a longer dialogue. -/
theorem dialogue_mono {id : Nat} {fd : Int} {t t' : List (Nat × Effect)} (h : t <+: t') :
    dialogue id fd t <+: dialogue id fd t' := by
  obtain ⟨s, rfl⟩ := h
  rw [dialogue_append]
  exact List.prefix_append _ _

/-- With memory for its first request, a session shows the line of its first chunk. -/
theorem session_requested {id : Nat} {w : World} {conn : Conn} (hconn : w.conn? id = some conn)
    {c : List UInt8} (hc : c ≠ []) (cs : List (List UInt8)) (env : Nat → Outcome)
    (ho : (env 0).malloc = true) :
    dialogue id conn.sockfd w.trace ++ [.requested (request c)] <+:
      dialogue id conn.sockfd (session w id env (c :: cs)).trace := by
  obtain ⟨rest, hrest⟩ := serve_requested (o := env 0) hconn hc ho
  rw [session_cons]
  refine List.IsPrefix.trans ?_ (dialogue_mono (session_trace id _ _ cs))
  rw [hrest]
  exact ⟨rest, by simp⟩

/-! ### Two cuttings -/

/-- Chunks that show the same lines give the same dialogue. By induction on the chunks of the one
cutting, with those of the other. Two threads that are alike before a line are alike behind it. -/
theorem dialogue_of_sameLines {id : Nat} {fd : Int} {cs ds : List (List UInt8)}
    (hcs : ∀ c ∈ cs, c ≠ []) (hds : ∀ d ∈ ds, d ≠ []) (hsame : SameLines cs ds)
    {w w' : World} (h : Alike id fd w w') (env : Nat → Outcome) :
    dialogue id fd (session w id env cs).trace = dialogue id fd (session w' id env ds).trace := by
  induction cs generalizing ds w w' env with
  | nil =>
    cases ds with
    | nil => exact h.dialogue.symm
    | cons d ds => exact hsame.elim
  | cons c cs ih =>
    cases ds with
    | nil => exact hsame.elim
    | cons d ds =>
      obtain ⟨hline, hrest⟩ := hsame
      have hc : c ≠ [] := hcs c List.mem_cons_self
      have hd : d ≠ [] := hds d List.mem_cons_self
      have hstep := alike_serve h hc hd hline (env 0)
      rw [session_cons, session_cons]
      rcases hrest with hquit | hrest
      · -- whatever the outcomes, the connection is gone on both sides
        have hgone : (step w (.serve id (some c) (env 0))).conn? id = none := by
          cases hconn : w.conn? id with
          | none =>
            dsimp only [step]
            rw [hconn]
            exact hconn
          | some conn =>
            refine serve_gone hconn hc ?_
            cases ho : (env 0).malloc with
            | false => exact Or.inl rfl
            | true => exact Or.inr (by simp [Ends, hquit])
        have hgone' : (step w' (.serve id (some d) (env 0))).conn? id = none := by
          rw [World.conn?, hstep.conns]
          exact hgone
        rw [session_gone id hgone, session_gone id hgone']
        exact hstep.dialogue.symm
      · exact ih (fun c hc => hcs c (List.mem_cons_of_mem _ hc))
          (fun d hd => hds d (List.mem_cons_of_mem _ hd)) hrest hstep _

/-- The same dialogue under all outcomes comes from chunks that show the same lines. The outcomes
are chosen for it: with memory for every request the dialogue shows each line that is served, and
the first difference of the lines is one of the dialogues. -/
theorem sameLines_of_dialogue {id : Nat} {cs ds : List (List UInt8)}
    (hcs : ∀ c ∈ cs, c ≠ []) (hds : ∀ d ∈ ds, d ≠ []) {w w' : World} {conn : Conn}
    (hconn : w.conn? id = some conn) (h : Alike id conn.sockfd w w')
    (hdia : ∀ env, dialogue id conn.sockfd (session w id env cs).trace =
      dialogue id conn.sockfd (session w' id env ds).trace) : SameLines cs ds := by
  have hconn' : w'.conn? id = some conn := by
    rw [World.conn?, h.conns]
    exact hconn
  induction cs generalizing ds w w' conn with
  | nil =>
    cases ds with
    | nil => trivial
    | cons d ds =>
      -- the second session shows a line, the first one none
      have hmore := session_requested hconn' (hds d List.mem_cons_self) ds
        (fun _ => {}) rfl
      rw [← hdia, session_nil, h.dialogue] at hmore
      have hlen := hmore.length_le
      simp only [List.length_append, List.length_singleton] at hlen
      omega
  | cons c cs ih =>
    have hc : c ≠ [] := hcs c List.mem_cons_self
    cases ds with
    | nil =>
      have hmore := session_requested hconn hc cs (fun _ => {}) rfl
      rw [hdia, session_nil, h.dialogue] at hmore
      have hlen := hmore.length_le
      simp only [List.length_append, List.length_singleton] at hlen
      omega
    | cons d ds =>
      have hd : d ≠ [] := hds d List.mem_cons_self
      have hline : request c = request d := by
        have hfst := session_requested hconn hc cs (fun _ => {}) rfl
        have hsnd := session_requested hconn' hd ds (fun _ => {}) rfl
        rw [hdia] at hfst
        rw [h.dialogue] at hsnd
        have heq : request c = request d ∨ request d = request c := by
          simpa using List.prefix_or_prefix_of_prefix hfst hsnd
        exact heq.elim (fun h => h) Eq.symm
      refine ⟨hline, ?_⟩
      by_cases hquit : doParseCommand (request c) = .quit
      · exact Or.inl hquit
      · -- with outcomes that end no other command, the sessions go on side by side
        have hends : ∀ q : Req, ¬ Ends {} q (request c) := by
          intro q
          unfold Ends
          split
          · next hcmd => exact absurd hcmd hquit
          · simp [recvFails]
          · exact fun h => h
        obtain ⟨next, hnext, hfd⟩ := serve_stays (o := {}) hconn hc rfl (hends _)
        have hstep := alike_serve h hc hd hline {}
        refine Or.inr (ih (fun c hc => hcs c (List.mem_cons_of_mem _ hc))
          (fun d hd => hds d (List.mem_cons_of_mem _ hd)) hnext (hfd.symm ▸ hstep) ?_ ?_)
        · intro env
          have hall := hdia fun n => n.casesOn {} env
          rw [session_cons, session_cons] at hall
          rw [hfd]
          exact hall
        · rw [World.conn?, hstep.conns]
          exact hnext

/-- Two cuttings of a stream of lines give the same commands and replies under all outcomes iff
their chunks show the same lines. The outcomes are those of the calls that a request makes, so the
statement leaves no choice to the network. A chunk with two lines shows the first of them, and one
with a part of a line shows that part. -/
theorem segmentation_iff {w : World} {id : Nat} {conn : Conn} (hconn : w.conn? id = some conn)
    {lines cs ds : List (List UInt8)} (hcs : Cutting (lines.map crlf).flatten cs)
    (hds : Cutting (lines.map crlf).flatten ds) :
    (∀ env, dialogue id conn.sockfd (session w id env cs).trace =
      dialogue id conn.sockfd (session w id env ds).trace) ↔ SameLines cs ds := by
  have hrefl : Alike id conn.sockfd w w := ⟨rfl, rfl, rfl, rfl⟩
  constructor
  · exact sameLines_of_dialogue hcs.nonempty hds.nonempty hconn hrefl
  · intro hsame env
    exact dialogue_of_sameLines hcs.nonempty hds.nonempty hsame hrefl env

/-- The connection of one client. -/
def oneConn : Conn :=
  { id := 0, sockfd := 1, remote := 0, pasvActive := false, pasvSockfd := 0, pasvPort := 0,
    currentdir := [47] }

/-- The thread with one client. -/
def oneClient : World :=
  step (World.start emptyDisk 0) (.accept (some 1) 0 (some ⟨false, 0, 0⟩))

/-- Two cuttings of a line and an empty line that show the same lines. -/
theorem segmentation_iff_empty_line :
    dialogue 0 1 (session oneClient 0 (fun _ => {})
        [textBytes "PWD\r\n", textBytes "\r\n"]).trace =
      dialogue 0 1 (session oneClient 0 (fun _ => {})
        [textBytes "PWD\r", textBytes "\n\r\n"]).trace := by
  have hconn : oneClient.conn? 0 = some oneConn := by decide
  have hlines : Cutting ([textBytes "PWD", []].map crlf).flatten
      [textBytes "PWD\r\n", textBytes "\r\n"] :=
    ⟨by decide, by decide, by decide⟩
  have hother : Cutting ([textBytes "PWD", []].map crlf).flatten
      [textBytes "PWD\r", textBytes "\n\r\n"] :=
    ⟨by decide, by decide, by decide⟩
  refine (segmentation_iff hconn hlines hother).2 ⟨?_, Or.inr ⟨?_, Or.inr trivial⟩⟩ fun _ => {}
  · decide
  · decide

/-- Two lines in one chunk: the second one is lost. -/
theorem second_line_lost :
    let lines := [textBytes "PWD", textBytes "SYST"]
    let cs := [textBytes "PWD\r\nSYST\r\n"]
    let ds := [textBytes "PWD\r\n", textBytes "SYST\r\n"]
    Cutting (lines.map crlf).flatten cs ∧ Cutting (lines.map crlf).flatten ds ∧
      dialogue 0 1 (session oneClient 0 (fun _ => {}) cs).trace ≠
        dialogue 0 1 (session oneClient 0 (fun _ => {}) ds).trace := by
  refine ⟨⟨?_, ?_, ?_⟩, ⟨?_, ?_, ?_⟩, ?_⟩
  all_goals decide

/-! ### One line in each chunk -/

section Linewise

/-- A command line that is no `QUIT`. -/
structure IsLine (l : List UInt8) : Prop where
  nonempty : l ≠ []
  bytes : ∀ b ∈ l, ¬ EndsLine b
  noQuit : doParseCommand l ≠ .quit

/-- The bytes of a text that end no line. -/
def content (l : List UInt8) : Nat := l.countP (¬ EndsLine ·)

/-- The bytes that end no line are counted part by part. -/
theorem content_append (l m : List UInt8) : content (l ++ m) = content l + content m :=
  List.countP_append

/-- The request of a chunk is its first line: what follows the carriage return is not read. -/
theorem request_crlf {l : List UInt8} (hl : ∀ b ∈ l, ¬ EndsLine b) (rest : List UInt8) :
    request (l ++ 13 :: rest) = l := by
  rw [request_eq, List.takeWhile_append_of_pos (by simpa using hl)]
  simp [EndsLine]

/-- A chunk has at least the bytes of the line that it shows. -/
theorem length_request_le (c : List UInt8) : (request c).length ≤ content c := by
  rw [request_eq]
  have hall : content (c.takeWhile (¬ EndsLine ·)) = (c.takeWhile (¬ EndsLine ·)).length := by
    refine List.countP_eq_length.2 fun b hb => ?_
    exact List.mem_takeWhile_imp (p := fun b => decide ¬ EndsLine b) hb
  rw [← hall]
  exact (List.takeWhile_prefix _).sublist.countP_le

/-- The requests together hold no more bytes than the chunks have. -/
theorem length_requests_le (cs : List (List UInt8)) :
    (cs.map request).flatten.length ≤ content cs.flatten := by
  induction cs with
  | nil => exact Nat.zero_le _
  | cons c cs ih =>
    have hc := length_request_le c
    simp only [List.map_cons, List.flatten_cons, List.length_append, content_append]
    omega

/-- Lines on the wire have the bytes of the lines. -/
theorem content_lines {lines : List (List UInt8)} (h : ∀ l ∈ lines, IsLine l) :
    content (lines.map crlf).flatten = lines.flatten.length := by
  induction lines with
  | nil => rfl
  | cons l ls ih =>
    have hl : content l = l.length :=
      List.countP_eq_length.2 fun b hb => by simpa using (h l List.mem_cons_self).bytes b hb
    have hend : content [13, 10] = 0 := by decide
    have hls := ih fun l hl => h l (List.mem_cons_of_mem _ hl)
    simp only [List.map_cons, crlf, List.flatten_cons, List.length_append, content_append]
    omega

/-- Without a `QUIT`, the chunks show pairwise the same lines. By induction on the lines. None of
them ends the dialogue, so both sides go on to the end. -/
theorem map_request_of_sameLines {cs lines : List (List UInt8)} (h : ∀ l ∈ lines, IsLine l)
    (hsame : SameLines cs (lines.map crlf)) : cs.map request = lines := by
  induction lines generalizing cs with
  | nil =>
    cases cs with
    | nil => rfl
    | cons c cs => exact hsame.elim
  | cons l ls ih =>
    have hl := h l List.mem_cons_self
    cases cs with
    | nil => exact hsame.elim
    | cons c cs =>
      obtain ⟨hline, hrest⟩ := hsame
      rw [crlf, request_crlf hl.bytes] at hline
      have hrest := hrest.resolve_left (hline ▸ hl.noQuit)
      rw [List.map_cons, hline, ih (fun l hl => h l (List.mem_cons_of_mem _ hl)) hrest]

/-- A text that shows a line starts with a byte of it. -/
theorem head_of_request {d : List UInt8} (h : request d ≠ []) :
    ∃ b rest, d = b :: rest ∧ ¬ EndsLine b := by
  rw [request_eq] at h
  cases d with
  | nil => simp at h
  | cons b rest =>
    refine ⟨b, rest, rfl, fun hb => h ?_⟩
    simp [hb]

/-- So does a sequence of such texts. -/
theorem head_of_requests {cs : List (List UInt8)} (h : ∀ l ∈ cs.map request, IsLine l) {b : UInt8}
    (hb : cs.flatten.head? = some b) : ¬ EndsLine b := by
  cases cs with
  | nil => simp at hb
  | cons d cs =>
    obtain ⟨b', rest, rfl, hb'⟩ := head_of_request (h _ List.mem_cons_self).nonempty
    obtain rfl : b' = b := by simpa using hb
    exact hb'

/-- A cutting shows the lines of the stream only if every chunk is one line. The bytes that end no
line are counted on both sides. A chunk with more than its own line would have to hold bytes of the
next one, which are then missing. -/
theorem sameLines_iff_linewise {cs lines : List (List UInt8)} (h : ∀ l ∈ lines, IsLine l)
    (hflat : cs.flatten = (lines.map crlf).flatten) :
    SameLines cs (lines.map crlf) ↔ cs = lines.map crlf := by
  constructor
  · intro hsame
    have hmap := map_request_of_sameLines h hsame
    clear hsame
    induction lines generalizing cs with
    | nil => simpa using hmap
    | cons l ls ih =>
      have hl := h l List.mem_cons_self
      have hls : ∀ l ∈ ls, IsLine l := fun l hl => h l (List.mem_cons_of_mem _ hl)
      obtain _ | ⟨c, cs⟩ := cs
      · simp at hmap
      obtain ⟨hline, htail⟩ : request c = l ∧ cs.map request = ls := by simpa using hmap
      -- the first chunk starts with the first line
      obtain ⟨s, rfl⟩ : l <+: c := by
        rw [← hline, request_eq]
        exact List.takeWhile_prefix _
      have hrest : s ++ cs.flatten = 13 :: 10 :: (ls.map crlf).flatten := by
        simpa [crlf] using hflat
      -- a later chunk starts with a byte of its line
      have hhead : ∀ b, cs.flatten.head? = some b → ¬ EndsLine b :=
        fun b => head_of_requests (htail.symm ▸ hls)
      obtain _ | ⟨a, _ | ⟨b, s⟩⟩ := s
      · exact absurd (Or.inr (Or.inl rfl)) (hhead 13 (by simpa using congrArg List.head? hrest))
      · obtain ⟨-, hrest⟩ := List.cons.inj hrest
        exact absurd (Or.inr (Or.inr rfl)) (hhead 10 (by simpa using congrArg List.head? hrest))
      · obtain ⟨ha, hrest⟩ := List.cons.inj hrest
        obtain ⟨hb, hrest⟩ := List.cons.inj hrest
        -- the bytes of the other lines are all in the other chunks
        have hcount : content s = 0 := by
          have hle := length_requests_le cs
          have hsum := congrArg content hrest
          rw [htail] at hle
          rw [List.append_eq, content_append, content_lines hls] at hsum
          omega
        have hnil : s = [] := by
          cases s with
          | nil => rfl
          | cons b' s =>
            have hb' : ¬ EndsLine b' := by
              have hreq : (ls.map crlf).map request = ls := by
                rw [List.map_map]
                exact (List.map_congr_left fun l hl => request_crlf (hls l hl).bytes [10]).trans
                  (List.map_id ls)
              exact head_of_requests (hreq.symm ▸ hls) (by simp [← hrest])
            simp [content, hb'] at hcount
        subst hnil ha hb
        rw [List.map_cons, ih hls (by simpa using hrest) htail]
        rfl
  · rintro rfl
    clear hflat
    induction lines with
    | nil => trivial
    | cons l ls ih => exact ⟨rfl, Or.inr (ih fun l hl => h l (List.mem_cons_of_mem _ hl))⟩

end Linewise

end NucleoH743.Ftp
