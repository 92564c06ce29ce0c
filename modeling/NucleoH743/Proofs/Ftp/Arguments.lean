import NucleoH743.Proofs.FatFs.Calls
import NucleoH743.Proofs.FatFs.Follow
import NucleoH743.Proofs.Ftp.Paths

/-!
# `Proofs.Ftp.Arguments`: commands without their argument

`parameter_ptr` is a null pointer when the line has no space, and points to the NUL when nothing
follows the space. No command looks at it before it is used, and no command asks whether the
argument is empty. A command with an empty argument is refused only where FatFs refuses the path
that is made of it: nothing in the root directory, and elsewhere the current directory with a
slash behind it.

FatFs refuses such a path as long as all its bytes are visible, since no name stands behind the
slash. But `create_name` takes a space, and every byte below it, for the end of the path, and the
server lets a directory have one: after `CWD a b` the path is `a b/`, which denotes the entry `A`
of the root directory, and `DELE` without a name deletes it.

- `refused_cmdSize_iff` and the five lemmas behind it: a command with an empty argument is refused
  iff FatFs cannot do what the command asks of the path.
- `grants_visible`: with visible bytes in the current directory it never can.
- `arguments_checked_iff`: whatever the session and the outcomes of its calls, a line is safe and a
  missing argument is refused iff the line has the argument its command takes (and `PORT` its six
  fields), or the argument is empty and FatFs refuses the path.
- `argGiven_visible_iff`: what is left of the condition in a directory of visible bytes.
-/

set_option autoImplicit false

namespace NucleoH743.Ftp

open NucleoH743.FatFs
open CStr (textBytes)

/-- The commands that use `parameter_ptr`. -/
def Cmd.takesParam : Cmd → Bool
  | .user | .type | .retr | .stor | .size | .cwd | .port | .rest | .mkd | .dele | .rmd => true
  | _ => false

/-- The command of the line needs an argument, and the line has none. -/
def Lacks (line : List UInt8) : Prop :=
  (doParseCommand line).takesParam = true ∧ (parameterPtr line).getD [] = []

/-- A null pointer is followed, or the line is read behind its end. -/
def Effect.faults : Effect → Bool
  | .nullPtr | .pastEnd => true
  | _ => false

/-- The effect is a call that a request makes to the network. -/
def Effect.calls : Effect → Bool
  | .requested _ | .spareBuf _ | .ftpBuf _ | .nullPtr | .pastEnd | .accepted _
  | .disconnected _ => false
  | _ => true

/-- The calls of a request to the network. -/
def Req.calls (q : Req) : List Effect := q.out.filter Effect.calls

/-- The text has a reply code 4xx or 5xx. -/
def IsError (text : List UInt8) : Prop := text.head? = some 52 ∨ text.head? = some 53

instance : DecidablePred IsError := fun _ => inferInstanceAs (Decidable (_ ∨ _))

/-- The request is answered with one error reply, and has no effect: the session, the descriptors
and the directory entries are what they were. -/
structure Refused (q q' : Req) : Prop where
  reply : ∃ text, IsError text ∧ q'.calls = [.send q.conn.sockfd (text.take 255) text.length]
  conn : q'.conn = q.conn
  sockets : q'.sockets = q.sockets
  nodes : q'.vol.nodes = q.vol.nodes

/-- The argument of the line is checked: no null pointer is followed and nothing is read behind
the end of the line, and a line that lacks an argument is refused. -/
structure ArgChecked (q q' : Req) (line : List UInt8) : Prop where
  safe : ∀ e ∈ q'.out, e.faults = false
  refused : Lacks line → Refused q q'

/-- The path that `do_full_path` makes of an empty argument. -/
def emptyPath (currentdir : List UInt8) : List UInt8 :=
  if currentdir = [47] then [] else currentdir ++ [47]

/-- FatFs can do what the command asks of the path: the file is there and has a size to report, it
can be opened or made, the directory can be made, or the entry removed. -/
def Grants (o : Outcome) (v : Volume) (path : Path) : Cmd → Prop
  | .retr | .size => ∃ data, OpensFile v path false data ∧ toInt32 data.length ≠ -1
  | .stor => (∃ data, OpensFile v path true data) ∨ OpensNew v path o.slot
  | .mkd => MakesDir v path o.slot
  | .dele | .rmd => Removes v path o.removable
  | _ => False

/-- The line has the argument that its command takes, and `PORT` its six fields; or the argument
is empty and FatFs refuses the path. `RETR` also sets the offset back. A request that finds no
memory for `sbuf` is not answered at all. -/
def ArgGiven (o : Outcome) (v : Volume) (conn : Conn) (line : List UInt8) : Prop :=
  if o.malloc then
    match doParseCommand line with
    | .port => 6 ≤ (strtok (textBytes ".,;()") ((parameterPtr line).getD [])).length
    | .retr => parameterPtr line ≠ none ∧ (parameterPtr line = some [] →
        conn.offset = 0 ∧ ¬ Grants o v (emptyPath conn.currentdir) .retr)
    | .stor | .size | .mkd | .dele | .rmd => parameterPtr line ≠ none ∧
        (parameterPtr line = some [] →
          ¬ Grants o v (emptyPath conn.currentdir) (doParseCommand line))
    | .user | .type | .cwd | .rest => (parameterPtr line).getD [] ≠ []
    | .pass | .list | .nlst | .pwd | .pasv | .mdtm | .syst | .cdup | .feat | .quit
    | .unknown => True
  else ¬ Lacks line

/-! ### The line -/

/-- A text that begins with another one. By induction on the two texts, which the function compares
byte by byte. -/
theorem strBeginWith_prefix {src mat : List UInt8} (h : strBeginWith src mat = true) :
    mat <+: src := by
  -- on the name that is looked for
  induction mat generalizing src with
  | nil => exact List.nil_prefix
  | cons m mat ih =>
    cases src with
    | nil => cases h
    | cons s src =>
      rw [strBeginWith] at h
      split at h
      · cases h
      · next heq =>
        rw [not_not.1 heq]
        exact List.prefix_cons_inj s |>.2 (ih h)

/-- The name of `RETR` is in the line. -/
theorem retr_prefix {line : List UInt8} (h : doParseCommand line = .retr) :
    textBytes "RETR" <+: line := by
  have hname : ∀ n ∈ cmdNames, n.2 = .retr → n.1 = "RETR" := by decide
  unfold doParseCommand at h
  cases hfind : cmdNames.find? (fun n => strBeginWith line (textBytes n.1)) with
  | none =>
    rw [hfind] at h
    cases h
  | some n =>
    rw [hfind] at h
    have hbegin : strBeginWith line (textBytes n.1) = true := by simpa using List.find?_some hfind
    have hprefix := strBeginWith_prefix hbegin
    rwa [hname n (List.mem_of_find?_eq_some hfind) h] at hprefix

/-- A `RETR` with a space has the five bytes that are skipped. -/
theorem five_le_length {line s : List UInt8} (h : doParseCommand line = .retr)
    (hs : parameterPtr line = some s) : 5 ≤ line.length := by
  obtain ⟨rest, rfl⟩ := retr_prefix h
  cases rest with
  | nil =>
    have hno : parameterPtr (textBytes "RETR" ++ []) = none := by decide
    rw [hno] at hs
    cases hs
  | cons b rest =>
    have hlen : (textBytes "RETR").length = 4 := by decide
    rw [List.length_append, List.length_cons, hlen]
    omega

/-! ### Safety -/

/-- What `PORT` needs to find its fields. -/
theorem strtok_nil (delim : List UInt8) : strtok delim [] = [] := by
  simp [strtok]

/-- What the command follows is there: its parameter, and for `PORT` the six fields. -/
def ParamThere (line : List UInt8) : Prop :=
  match doParseCommand line with
  | .port => 6 ≤ (strtok (textBytes ".,;()") ((parameterPtr line).getD [])).length
  | .type | .rest | .retr | .cwd | .stor | .size | .mkd | .dele | .rmd =>
    parameterPtr line ≠ none
  | .user | .pass | .list | .nlst | .pwd | .pasv | .mdtm | .syst | .cdup | .feat | .quit
  | .unknown => True

/-- The effects of a command on memory are free of faults iff what it follows is there. -/
theorem memoryBy_safe_iff (o : Outcome) (currentdir line : List UInt8) :
    (∀ e ∈ memoryBy o currentdir line, e.faults = false) ↔ ParamThere line := by
  -- a path and a plain use both follow the parameter
  have hpath (p : Option (List UInt8)) :
      (∀ e ∈ pathEffects o currentdir p, e.faults = false) ↔ p ≠ none := by
    cases p <;> simp [pathEffects, nullParam, Effect.faults]
  have hnull (p : Option (List UInt8)) :
      (∀ e ∈ nullParam p, e.faults = false) ↔ p ≠ none := by
    cases p <;> simp [nullParam, Effect.faults]
  unfold memoryBy ParamThere
  cases hcmd : doParseCommand line with
  | type | rest => exact hnull _
  | cwd | stor | size | mkd | dele | rmd => exact hpath _
  | port =>
    cases parameterPtr line with
    | none => simp [portEffects, nullParam, strtok_nil, Effect.faults]
    | some s =>
      dsimp only [portEffects, nullParam, Option.getD_some]
      split
      · next hlt => simp [Effect.faults, Nat.not_le.2 hlt]
      · next hge => simpa [Effect.faults] using Nat.not_lt.1 hge
  | retr =>
    cases hp : parameterPtr line with
    | none =>
      simp only [List.mem_append, or_imp, forall_and, hpath]
      simp
    | some s =>
      have hlen := five_le_length hcmd hp
      simp only [List.mem_append, or_imp, forall_and, hpath]
      simp [copyEffects, Nat.not_lt.2 hlen, Effect.faults]
  | list | user | pass | nlst | pwd | pasv | mdtm | syst | feat | quit | unknown => simp
  | cdup => simp [Effect.faults]

/-- The faults are among the effects on memory. -/
theorem safe_iff_memory (q : Req) :
    (∀ e ∈ q.out, e.faults = false) ↔ ∀ e ∈ q.memory, e.faults = false := by
  constructor
  · exact fun h e he => h e (List.mem_filter.1 he).1
  · intro h e he
    cases hfault : e.faults with
    | false => rfl
    | true =>
      have hmem : e.memory = true := by
        cases e <;> first | rfl | cases hfault
      exact absurd (h e (List.mem_filter.2 ⟨he, hmem⟩)) (by simp [hfault])

/-! ### Refusals -/

section Parts
variable (o : Outcome) (q : Req)

/-- An effect is added to the calls iff it is one. -/
@[simp] theorem emit_calls (e : Effect) :
    (q.emit e).calls = q.calls ++ [e].filter Effect.calls := List.filter_append _ _

/-- A store to `spare_buf` is no call. -/
@[simp] theorem spare_calls (s : List UInt8) : (q.spare s).calls = q.calls := by
  simp [Req.spare, Effect.calls]

/-- The copy of the line is none either. -/
@[simp] theorem copyLine_calls (line : List UInt8) : (copyLine o q line).calls = q.calls := by
  unfold copyLine
  split <;> simp [Effect.calls]

/-- It opens and closes nothing. -/
@[simp] theorem copyLine_sockets (line : List UInt8) :
    (copyLine o q line).sockets = q.sockets := by
  unfold copyLine
  split <;> rfl

/-- A reply is sent. -/
theorem reply_calls {text : List UInt8} (h : text ≠ []) :
    (q.reply text).calls = q.calls ++ [.send q.conn.sockfd (text.take 255) text.length] := by
  rw [Req.reply, doSendReply, if_neg h, emit_calls]
  rfl

/-- Nor does a reply. -/
@[simp] theorem reply_sockets (text : List UInt8) : (q.reply text).sockets = q.sockets := by
  unfold Req.reply doSendReply
  split <;> rfl

/-- An empty argument makes a path without a name at its end, and leaves the session alone. -/
theorem paramPath_nil :
    q.paramPath o (some []) =
      (emptyPath q.conn.currentdir, q.spare (emptyPath q.conn.currentdir)) := by
  have hpath : doFullPath q.conn.currentdir [] =
      (emptyPath q.conn.currentdir, q.conn.currentdir) := by
    unfold doFullPath emptyPath
    rw [if_neg (by decide)]
    split
    · rfl
    · rw [if_neg (by decide)]
  dsimp only [Req.paramPath, Req.param, Req.fullPath]
  rw [hpath]

end Parts

/-- A request only adds to its calls. -/
theorem Talks.calls {data : Bool} {q q' : Req} (h : Talks data q q') : q.calls <+: q'.calls := by
  obtain ⟨es, hout, -⟩ := h.out
  refine ⟨es.filter Effect.calls, ?_⟩
  rw [Req.calls, Req.calls, hout, List.filter_append]

/-- `close` is one more call behind those that were made. -/
theorem calls_close (q : Req) (fd : Int) : q.calls <+: (q.close fd).calls := by
  rw [Req.close, emit_calls]
  exact List.prefix_append _ _

/-- A file that was opened for reading and is closed leaves the entries as they were. By the result
of `f_open`. An open for reading creates nothing, and the close has nothing to write. -/
theorem doGetFilesize_cases (v : Volume) (path : Path) :
    (∃ data, OpensFile v path false data ∧ toInt32 data.length ≠ -1) ∧
      (doGetFilesize v path).1 ≠ -1 ∨
    (¬ ∃ data, OpensFile v path false data ∧ toInt32 data.length ≠ -1) ∧
      (doGetFilesize v path).1 = -1 ∧ (doGetFilesize v path).2.nodes = v.nodes := by
  obtain ⟨rc, file, v', hopen⟩ :
      ∃ rc file v', fOpen v Fil.null path { faRead := true } false = (rc, file, v') :=
    ⟨_, _, _, rfl⟩
  have hcases := fOpen_cases v Fil.null path { faRead := true } false rfl
  unfold doGetFilesize
  rw [hopen] at hcases ⊢
  dsimp only at hcases ⊢
  obtain ⟨data, hfile, rfl⟩ | ⟨⟨hcreates, -⟩, -⟩ | ⟨hno, -, hrc, hnodes⟩ := hcases
  · rw [if_pos rfl]
    -- the file is the one that the path denotes
    have hspec := fOpen_spec hopen
    have hdata : ∀ data', OpensFile v path false data' → file.data = data' := by
      rintro data' ⟨fs, e, -, he, hnode, -⟩
      obtain rfl := Follow.entry.inj (hspec.entry.symm.trans he)
      have hexisted := hspec.existed rfl
      rw [hnode] at hexisted
      cases hexisted
      rfl
    obtain rfl := hdata data hfile
    dsimp only
    by_cases hbig : toInt32 file.data.length = -1
    · refine .inr ⟨?_, hbig, ?_⟩
      · rintro ⟨data', hfile', hne⟩
        rw [← hdata data' hfile'] at hne
        exact hne hbig
      · have hmod := (fOpen_data hopen rfl).2
        rw [hspec.existed rfl] at hmod
        rw [fClose_nodes hspec.valid, hmod]
        exact hspec.nodes_eq rfl
    · exact .inl ⟨⟨file.data, hfile, hbig⟩, hbig⟩
  · cases hcreates
  · rw [if_neg hrc]
    exact .inr ⟨fun ⟨data, hfile, _⟩ => hno data hfile, rfl, hnodes⟩

/-- An error reply with nothing else refuses the request. -/
theorem Refused.of_reply {q q' : Req} {text : List UInt8} (ht : IsError text)
    (hcalls : q'.calls = []) (hconn : q'.conn = q.conn) (hsockets : q'.sockets = q.sockets)
    (hnodes : q'.vol.nodes = q.vol.nodes) : Refused q (q'.reply text) where
  reply := by
    have hne : text ≠ [] := by
      rintro rfl
      exact absurd ht (by decide)
    exact ⟨text, ht, by rw [reply_calls q' hne, hcalls, hconn, List.nil_append]⟩
  conn := (reply_conn q' text).trans hconn
  sockets := (reply_sockets q' text).trans hsockets
  nodes := by rw [reply_vol, hnodes]

/-- What follows the code does not matter. -/
theorem head?_append_code {a : List UInt8} {c : UInt8} (h : a.head? = some c) (b : List UInt8) :
    (a ++ b).head? = some c := by
  rw [List.head?_append, h]
  rfl

/-- A text that goes on behind its error code is still an error reply. -/
theorem IsError.append {a : List UInt8} (h : IsError a) (b : List UInt8) : IsError (a ++ b) :=
  h.imp (head?_append_code · b) (head?_append_code · b)

/-- A request whose first call is a reply with another code is not refused. A client sees the first
reply, and it is no error. -/
theorem not_refused (q₁ : Req) {q q' : Req} {text : List UInt8} {c : UInt8} (hcalls : q₁.calls = [])
    (hfd : q₁.conn.sockfd = q.conn.sockfd) (hhead : text.head? = some c)
    (hcode : c ≠ 52 ∧ c ≠ 53) (hfirst : (q₁.reply text).calls <+: q'.calls) : ¬ Refused q q' := by
  intro h
  obtain ⟨text', ht', hreply⟩ := h.reply
  have hne : text ≠ [] := by
    rintro rfl
    cases hhead
  rw [reply_calls _ hne, hcalls, hfd, hreply, List.nil_append] at hfirst
  have hsend := (List.cons_prefix_cons.1 hfirst).1
  simp only [Effect.send.injEq, true_and] at hsend
  -- the codes stand in the part that is sent
  have hsame : text.head? = text'.head? := by
    have htake := congrArg List.head? hsend.1
    rwa [List.head?_take, List.head?_take, if_neg (by decide), if_neg (by decide)] at htake
  rcases ht' with h4 | h5
  · exact hcode.1 (Option.some.inj (hhead.symm.trans (hsame.trans h4)))
  · exact hcode.2 (Option.some.inj (hhead.symm.trans (hsame.trans h5)))

/-! ### Commands with an empty argument -/

/-- A reply `550 path: text`. -/
theorem isError_path {a : List UInt8} (h : IsError a) (b c : List UInt8) : IsError (a ++ b ++ c) :=
  (h.append b).append c

/-- The reply to a path that is no regular file is an error reply. -/
theorem isError_notRegular (path : List UInt8) : IsError (notRegular path) :=
  isError_path (by decide) _ _

/-- The code of a text that begins with it. -/
theorem code_append {name : String} {c : UInt8} (h : (textBytes name).head? = some c)
    (a b : List UInt8) : (textBytes name ++ a ++ b).head? = some c :=
  head?_append_code (head?_append_code h a) b

/-- `MKD` and `RMD` succeed with a code 2xx. -/
theorem directoryWas_head (path : List UInt8) (verb : String) :
    (directoryWas path verb).head? = some 50 :=
  head?_append_code (head?_append_code (code_append (by decide) _ _) _) _

/-- `RETR` begins its transfer with a code 1xx, in both forms of the text. -/
theorem retrOpening_head (offset : Nat) (numBytes : Int) (path : List UInt8) :
    (retrOpening offset numBytes path).head? = some 49 := by
  unfold retrOpening
  split
  · have hcode : (textBytes "150 Opening binary mode data connection for partial ").head? =
        some 49 := by decide
    exact head?_append_code (head?_append_code (head?_append_code (head?_append_code
      (code_append hcode _ _) _) _) _) _
  · have hcode : (textBytes "150 Opening binary mode data connection for ").head? = some 49 := by
      decide
    exact head?_append_code (head?_append_code (code_append hcode _ _) _) _

/-- The transfer of `RETR` begins with its reply. -/
theorem retrTransfer_calls (q : Req) (path : List UInt8) (numBytes : Int) (file : Fil) :
    (q.reply (retrOpening q.conn.offset numBytes path)).calls <+:
      (retrTransfer q path numBytes file).calls := by
  dsimp only [retrTransfer]
  exact ((talks_retrLoop (Talks.refl true _)).reply.vol).calls.trans (calls_close _ _)

/-- An error reply after a call of FatFs that leaves the entries as they were. -/
theorem refused_call {q : Req} (hq : q.calls = []) (path text : List UInt8) {vol : Volume}
    (hnodes : vol.nodes = q.vol.nodes) (ht : IsError text) :
    Refused q ({ q.spare path with vol := vol }.reply text) :=
  Refused.of_reply ht ((spare_calls q path).trans hq) rfl rfl hnodes

/-- A reply with another code after a call of FatFs that did what was asked. -/
theorem not_refused_call {q : Req} (hq : q.calls = []) (path text : List UInt8) (vol : Volume)
    {c : UInt8} (hhead : text.head? = some c) (hcode : c ≠ 52 ∧ c ≠ 53) :
    ¬ Refused q ({ q.spare path with vol := vol }.reply text) :=
  not_refused { q.spare path with vol := vol } ((spare_calls q path).trans hq) rfl hhead
    hcode List.prefix_rfl

section Empty
variable (o : Outcome) {q : Req} (hq : q.calls = [])
include hq

/-- `SIZE` refuses an empty argument iff the directory that it stands for is no file with a size to
report. A session is in a directory, as a rule, but `CWD` takes any path. -/
theorem refused_cmdSize_iff :
    Refused q (cmdSize o q (some [])) ↔ ¬ Grants o q.vol (emptyPath q.conn.currentdir) .size := by
  have hsize := doGetFilesize_cases q.vol (emptyPath q.conn.currentdir)
  rw [cmdSize, paramPath_nil]
  dsimp only [Grants]
  obtain ⟨hgrants, hfound⟩ | ⟨hno, hsize, hnodes⟩ := hsize
  · refine iff_of_false ?_ (not_not_intro hgrants)
    rw [spare_vol, if_neg hfound]
    have hcode : (textBytes "213 ").head? = some 50 := by decide
    exact not_refused_call hq _ _ _ (code_append hcode _ _) (by decide)
  · refine iff_of_true ?_ hno
    rw [spare_vol, if_pos hsize]
    exact refused_call hq _ _ hnodes (isError_notRegular _)

/-- `MKD` refuses it iff the directory cannot be made. -/
theorem refused_cmdMkd_iff :
    Refused q (cmdMkd o q (some [])) ↔ ¬ Grants o q.vol (emptyPath q.conn.currentdir) .mkd := by
  have hmkdir := fMkdir_cases q.vol (emptyPath q.conn.currentdir) o.slot
  rw [cmdMkd, paramPath_nil]
  dsimp only [Grants]
  obtain ⟨hgrants, hok⟩ | ⟨hno, hres, hnodes⟩ := hmkdir
  · refine iff_of_false ?_ (not_not_intro hgrants)
    rw [spare_vol, if_neg (not_not_intro hok)]
    exact not_refused_call hq _ _ _ (directoryWas_head _ _) (by decide)
  · refine iff_of_true ?_ hno
    rw [spare_vol, if_pos hres]
    exact refused_call hq _ _ hnodes (isError_path (by decide) _ _)

/-- `DELE` refuses it iff the entry cannot be removed. -/
theorem refused_cmdDele_iff :
    Refused q (cmdDele o q (some [])) ↔ ¬ Grants o q.vol (emptyPath q.conn.currentdir) .dele := by
  have hunlink := fUnlink_cases q.vol (emptyPath q.conn.currentdir) o.removable
  rw [cmdDele, paramPath_nil]
  dsimp only [Grants]
  obtain ⟨hgrants, hok⟩ | ⟨hno, hres, hnodes⟩ := hunlink
  · refine iff_of_false ?_ (not_not_intro hgrants)
    rw [spare_vol, if_pos hok]
    have hcode : (textBytes "250 file ").head? = some 50 := by decide
    exact not_refused_call hq _ _ _ (code_append hcode _ _) (by decide)
  · refine iff_of_true ?_ hno
    rw [spare_vol, if_neg hres]
    exact refused_call hq _ _ hnodes (isError_path (by decide) _ _)

/-- `RMD` asks the same of FatFs, and so refuses the same paths. -/
theorem refused_cmdRmd_iff :
    Refused q (cmdRmd o q (some [])) ↔ ¬ Grants o q.vol (emptyPath q.conn.currentdir) .rmd := by
  have hunlink := fUnlink_cases q.vol (emptyPath q.conn.currentdir) o.removable
  rw [cmdRmd, paramPath_nil]
  dsimp only [Grants]
  obtain ⟨hgrants, hok⟩ | ⟨hno, hres, hnodes⟩ := hunlink
  · refine iff_of_false ?_ (not_not_intro hgrants)
    rw [spare_vol, if_neg (not_not_intro hok)]
    exact not_refused_call hq _ _ _ (directoryWas_head _ _) (by decide)
  · refine iff_of_true ?_ hno
    rw [spare_vol, if_pos hres]
    exact refused_call hq _ _ hnodes (isError_path (by decide) _ _)

/-- `STOR` answers 150 to a path that it opens. An open that fails has made a file where the table
of open objects holds an entry that is not there. -/
theorem refused_cmdStor_iff :
    Refused q (cmdStor o q (some [])).2 ↔
      ¬ Grants o q.vol (emptyPath q.conn.currentdir) .stor := by
  obtain ⟨rc, file, vol, hopen⟩ : ∃ rc file vol, fOpen q.vol Fil.null
      (emptyPath q.conn.currentdir) { faWrite := true, faOpenAlways := true } o.slot =
        (rc, file, vol) := ⟨_, _, _, rfl⟩
  have hcases := fOpen_cases q.vol Fil.null (emptyPath q.conn.currentdir)
    { faWrite := true, faOpenAlways := true } o.slot rfl
  rw [cmdStor, paramPath_nil]
  dsimp only [Grants]
  rw [spare_vol, hopen]
  rw [hopen] at hcases
  dsimp only at hcases ⊢
  by_cases hrc : rc = .ok
  · rw [if_neg (not_not_intro hrc)]
    have hgrants : (∃ data, OpensFile q.vol (emptyPath q.conn.currentdir) true data) ∨
        OpensNew q.vol (emptyPath q.conn.currentdir) o.slot := by
      obtain ⟨data, hfile, -⟩ | ⟨⟨-, hnew⟩, -⟩ | ⟨-, -, hno, -⟩ := hcases
      · exact .inl ⟨data, hfile⟩
      · exact .inr hnew
      · exact absurd hrc hno
    refine iff_of_false ?_ (not_not_intro hgrants)
    -- the file is open, and 150 is the first reply
    have hcode : (textBytes "150 Opening binary mode data connection for ").head? = some 49 := by
      decide
    exact not_refused { q.spare (emptyPath q.conn.currentdir) with vol := vol }
      ((spare_calls q _).trans hq) rfl (code_append hcode _ _) (by decide)
      ((talks_storLoop (Talks.refl true _)).calls.trans (calls_close _ _))
  · rw [if_pos hrc]
    obtain ⟨data, -, hok⟩ | ⟨⟨-, hnew⟩, hchanged⟩ | ⟨hno, hnone, -, hnodes⟩ := hcases
    · exact absurd hok hrc
    · refine iff_of_false (fun h => hchanged ?_) (not_not_intro (.inr hnew))
      have hnodes := h.nodes
      rwa [reply_vol] at hnodes
    · have hcode : IsError (textBytes "550 Cannot open ") := by decide
      refine iff_of_true ?_ ?_
      · exact refused_call hq _ _ hnodes (isError_path hcode _ _)
      · rintro (⟨data, hfile⟩ | hnew)
        · exact hno data hfile
        · exact hnone ⟨rfl, hnew⟩

/-- `RETR` sets the offset back, also when it is refused. -/
theorem refused_cmdRetr_iff (line : List UInt8) :
    Refused q (cmdRetr o q (some []) line) ↔
      q.conn.offset = 0 ∧ ¬ Grants o q.vol (emptyPath q.conn.currentdir) .retr := by
  have hconn := copyLine_conn o q line
  have hsockets := copyLine_sockets o q line
  have hcalls := (copyLine_calls o q line).trans hq
  have hcases := doGetFilesize_cases q.vol (emptyPath q.conn.currentdir)
  rw [cmdRetr, paramPath_nil]
  dsimp only [Grants]
  rw [spare_vol, copyLine_vol, hconn]
  generalize copyLine o q line = q₁ at hconn hsockets hcalls ⊢
  generalize emptyPath q.conn.currentdir = path at hcases ⊢
  obtain ⟨numBytes, vol, hsize⟩ : ∃ n vol, doGetFilesize q.vol path = (n, vol) := ⟨_, _, rfl⟩
  rw [hsize] at hcases ⊢
  dsimp only at hcases ⊢
  have hspare : (q₁.spare path).calls = [] := (spare_calls q₁ path).trans hcalls
  obtain ⟨hgrants, hfound⟩ | ⟨hno, hnone, hnodes⟩ := hcases
  · refine iff_of_false ?_ fun h => h.2 hgrants
    rw [if_neg hfound]
    obtain ⟨rc, file, vol', hopen⟩ :
        ∃ rc file vol', fOpen vol Fil.null path { faRead := true } false = (rc, file, vol') :=
      ⟨_, _, _, rfl⟩
    rw [hopen]
    dsimp only
    split
    · -- the second open fails, and nothing is sent
      intro h
      obtain ⟨text, -, hsend⟩ := h.reply
      have hnil := hspare.symm.trans hsend
      cases hnil
    · exact not_refused { q₁.spare path with vol := vol' } hspare
        (congrArg Conn.sockfd hconn) (retrOpening_head _ _ _) (by decide)
        (retrTransfer_calls _ _ _ _)
  · -- the answer is an error, and the offset is set to 0 on the way
    rw [if_pos hnone]
    constructor
    · intro h
      exact ⟨(congrArg Conn.offset h.conn).symm, hno⟩
    · rintro ⟨hoffset, -⟩
      have hreply : Refused q (Req.reply { q₁.spare path with vol := vol } (notRegular path)) :=
        Refused.of_reply (isError_notRegular path) hspare hconn hsockets hnodes
      refine ⟨hreply.reply, ?_, hreply.sockets, hreply.nodes⟩
      rw [← hoffset]
      exact hreply.conn ▸ rfl

/-- `TYPE` takes every argument for a type. -/
theorem not_refused_cmdType : ¬ Refused q (cmdType o q (some [])) := by
  have hcmd : cmdType o q (some []) = q.reply (textBytes "200 Type set to ascii.\r\n") := by
    dsimp only [cmdType, Req.param]
    exact if_neg (by decide)
  have hhead : (textBytes "200 Type set to ascii.\r\n").head? = some 50 := by decide
  rw [hcmd]
  exact not_refused q hq rfl hhead (by decide) List.prefix_rfl

/-- `REST` takes an empty argument for the number 0, stores it and answers 350. -/
theorem not_refused_cmdRest : ¬ Refused q (cmdRest o q (some [])) := by
  have hcmd : cmdRest o q (some []) = { q with conn := { q.conn with offset := 0 } }.reply
      (textBytes "350 Send RETR or STOR to start transfert.\r\n") := by
    dsimp only [cmdRest, Req.param]
    exact if_pos (by decide)
  have hhead : (textBytes "350 Send RETR or STOR to start transfert.\r\n").head? = some 51 := by
    decide
  rw [hcmd]
  exact not_refused { q with conn := { q.conn with offset := 0 } } hq rfl hhead
    (by decide) List.prefix_rfl

/-- `CWD` changes to the path without a look at the disk. -/
theorem not_refused_cmdCwd : ¬ Refused q (cmdCwd o q (some [])) := by
  have hcode : (textBytes "250 Changed to directory ").head? = some 50 := by decide
  rw [cmdCwd, paramPath_nil]
  exact not_refused (q.spare (emptyPath q.conn.currentdir)) ((spare_calls q _).trans hq) rfl
    (code_append hcode _ _) (by decide) List.prefix_rfl

end Empty

/-- `USER` answers whatever it is given. -/
theorem not_refused_user {q : Req} (hq : q.calls = []) (name : List UInt8) :
    ¬ Refused q (q.reply
      (textBytes "331 Password required for " ++ quoted name ++ textBytes "\r\n")) := by
  have hcode : (textBytes "331 Password required for ").head? = some 51 := by decide
  exact not_refused q hq rfl (code_append hcode _ _) (by decide) List.prefix_rfl

/-! ### Every line -/

/-- A line with memory for `sbuf`. By the command. The line is safe iff no effect of it on memory
is a fault, and a missing argument is refused iff the final reply is an error and nothing has
changed. -/
theorem argChecked_execute_iff {o : Outcome} (ho : o.malloc = true) {q : Req} (hq : q.calls = [])
    (hmem : q.memory = []) (line : List UInt8) :
    ArgChecked q (execute o q line).2 line ↔ ArgGiven o q.vol q.conn line := by
  have hsafe : (∀ e ∈ (execute o q line).2.out, e.faults = false) ↔ ParamThere line := by
    rw [safe_iff_memory, (writes_execute o q line).1, hmem, List.nil_append]
    exact memoryBy_safe_iff o q.conn.currentdir line
  have hparts : ArgChecked q (execute o q line).2 line ↔
      (∀ e ∈ (execute o q line).2.out, e.faults = false) ∧
        (Lacks line → Refused q (execute o q line).2) :=
    ⟨fun h => ⟨h.safe, h.refused⟩, fun h => ⟨h.1, h.2⟩⟩
  -- what is left is one equivalence for each command
  rw [hparts, hsafe, ArgGiven, if_pos ho, Lacks, ParamThere, execute]
  cases hcmd : doParseCommand line with
  | pass | list | nlst | pwd | pasv | mdtm | syst | cdup | feat | quit | unknown =>
    simp [Cmd.takesParam]
  | user =>
    have hno := not_refused_user hq ((parameterPtr line).getD (textBytes "(null)"))
    exact ⟨fun h hnil => hno (h.2 ⟨rfl, hnil⟩), fun hne => ⟨trivial, fun h => absurd h.2 hne⟩⟩
  | port =>
    -- an argument without a field is caught by the count
    cases hp : (parameterPtr line).getD [] with
    | nil => simp [strtok_nil]
    | cons b bs => simp
  | type | cwd | rest | retr | stor | size | mkd | dele | rmd =>
    cases hp : parameterPtr line with
    | none => simp
    | some s =>
      cases s with
      | cons b bs => simp
      | nil =>
        simp [Cmd.takesParam, not_refused_cmdType o hq, not_refused_cmdCwd o hq,
          not_refused_cmdRest o hq, refused_cmdRetr_iff o hq, refused_cmdStor_iff o hq,
          refused_cmdSize_iff o hq, refused_cmdMkd_iff o hq, refused_cmdDele_iff o hq,
          refused_cmdRmd_iff o hq]

/-- The path of an empty argument ends in a separator, or is empty. -/
theorem emptyPath_slashed {currentdir : List UInt8} (h : ∀ b ∈ currentdir, 0x20 < b) :
    Slashed (emptyPath currentdir) := by
  unfold emptyPath
  split
  · exact ⟨fun b hb => absurd hb List.not_mem_nil, .inl rfl⟩
  · refine ⟨fun b hb => ?_, .inr List.getLast?_concat⟩
    rcases List.mem_append.1 hb with hdir | hslash
    · exact h b hdir
    · obtain rfl := List.mem_singleton.1 hslash
      decide

/-- In a directory of visible bytes FatFs refuses the path of an empty argument. The path is empty
or ends with a slash. `create_name` finds no name behind it, so `follow_path` comes to no entry. -/
theorem grants_visible (o : Outcome) {v : Volume} (hv : v.follow = followPath v.nodes)
    {currentdir : List UInt8} (h : ∀ b ∈ currentdir, 0x20 < b) (cmd : Cmd) :
    ¬ Grants o v (emptyPath currentdir) cmd := by
  have hno : ∀ e, v.follow (emptyPath currentdir) ≠ .entry e := by
    rw [hv]
    exact followPath_slashed (emptyPath_slashed h)
  -- each command needs an entry under the path
  unfold Grants
  split
  · rintro ⟨data, ⟨fs, e, -, he, -⟩, -⟩
    exact hno e he
  · rintro ⟨data, ⟨fs, e, -, he, -⟩, -⟩
    exact hno e he
  · rintro (⟨data, fs, e, -, he, -⟩ | ⟨fs, e, -, he, -⟩)
    · exact hno e he
    · exact hno e he
  · rintro ⟨fs, e, -, he, -⟩
    exact hno e he
  · rintro ⟨fs, e, -, he, -⟩
    exact hno e he
  · rintro ⟨fs, e, -, he, -⟩
    exact hno e he
  · exact id

/-- In a directory of visible bytes a path argument must be there, and may be empty. -/
theorem argGiven_visible_iff {o : Outcome} (ho : o.malloc = true) {v : Volume}
    (hv : v.follow = followPath v.nodes) {conn : Conn} (h : ∀ b ∈ conn.currentdir, 0x20 < b)
    {line : List UInt8} (hcmd : doParseCommand line ∈ [.stor, .size, .mkd, .dele, .rmd]) :
    ArgGiven o v conn line ↔ parameterPtr line ≠ none := by
  have hno := grants_visible o hv h (doParseCommand line)
  rw [ArgGiven, if_pos ho]
  simp only [List.mem_cons, List.not_mem_nil, or_false] at hcmd
  rcases hcmd with heq | heq | heq | heq | heq
  all_goals
    rw [heq] at hno ⊢
    simp [hno]

/-! ### What goes wrong -/

/-- A volume with the entries `nodes`, as FatFs finds them. -/
def volumeOf (nodes : Entry → Option Node) : Volume :=
  { emptyDisk with fatFs := some .fatfs, follow := followPath nodes, nodes }

/-- A session in the root directory, without a data connection. -/
def rootConn : Conn where
  id := 0
  sockfd := 4
  remote := 0
  pasvActive := false
  pasvSockfd := -1
  pasvPort := 0
  currentdir := [47]

/-- In a directory with a space, `DELE` without a name deletes a file of the root directory. -/
example :
    let vol := volumeOf fun e => if e = textBytes "A          " then some (.file []) else none
    let conn := { rootConn with currentdir := textBytes "a b" }
    let q : Req := { vol, sockets := fun _ => false, conn }
    let q' := (ftpProcessRequest {} q (textBytes "DELE \r\n" ++ [0])).2
    let text := textBytes "250 file \"a b/\" was successfully deleted.\r\n"
    q'.vol.nodes (textBytes "A          ") = none ∧ q'.calls = [.send 4 text text.length] := by
  decide +kernel

end NucleoH743.Ftp
