import Mathlib.Data.List.Basic
import Mathlib.Tactic.SplitIfs
import NucleoH743.Ftp.Program
import NucleoH743.Lib.Choice

/-!
# `Proofs.Ftp.Replies`: the replies to one command

A client counts replies: a command is over with its first reply that is not a 1xx. Some paths of
`ftp_process_request` send none, and some send two.

`Note` keeps of a call what matters here: the kind of a reply, and that the call has had an outcome
that the command does not handle (`misses`).

The proof works on the notes. Each call leaves one note or none, so a part of a command is described
by the notes that it adds, and the parts of a command are put together by `ends_bind`. Where a loop
sends, what it sends goes to the data connection and leaves no note, however long it runs.

Every command then has a short list of outcomes: the notes of a run that came to its end. Where
there is no miss among them they are the notes of one final reply, with or without a 150 before it.
Where there is one they are not, which has to be checked outcome by outcome. So the miss is exactly
what makes the difference.

The calls that are missed are those whose failure has no branch in the code, or a branch without a
reply: `f_opendir` in a listing, the second `f_open` of `RETR`, `select` in `STOR`, `bind` and
`accept` in `PASV`.

- `one_final_reply_iff`: a request that returns 0 has sent one final reply, behind at most one 150,
  iff no call had such an outcome and the number of a `REST` was not negative.
-/

set_option autoImplicit false

namespace NucleoH743.Ftp.Program

open NucleoH743.FatFs
open Prog (always_bind always_mono always_seq always_runWith runWith_map)
open CStr (textBytes)

/-! ### What a client sees -/

/-- A call with what it returned. -/
abbrev Event : Type := (o : FtpOp) × o.Res

/-- The answers come from outside, and the calls are recorded, oldest first. -/
def record (x : (o : FtpOp) → o.Res) (o : FtpOp) (tr : List Event) : o.Res × List Event :=
  (x o, tr ++ [⟨o, x o⟩])

/-- The kind of a reply. -/
inductive ReplyKind where
  | preliminary | final | other
  deriving DecidableEq, Repr

/-- A 150 reply is preliminary, and a reply from 2xx to 5xx is final. -/
def replyKind (text : List UInt8) : ReplyKind :=
  if text.take 3 = [49, 53, 48] then .preliminary
  else if text.take 1 ∈ [[50], [51], [52], [53]] then .final
  else .other

/-- The replies with their sockets. -/
def replies (tr : List Event) : List (Int × List UInt8) :=
  tr.filterMap fun e =>
    match e.1 with
    | .sendReply sock text => some (sock, text)
    | _ => none

/-- One final reply, behind at most one preliminary one, and all on the control connection. -/
structure OneFinalReply (sockfd : Int) (tr : List Event) : Prop where
  control : ∀ r ∈ replies tr, r.1 = sockfd
  one : (replies tr).map (fun r => replyKind r.2) ∈
    [[ReplyKind.final], [.preliminary, .final]]

/-- The outcome of a call is one that the command does not handle: it goes on as if there was
none, or it ends without a reply. -/
def misses (cmd : Cmd) (o : FtpOp) (r : o.Res) : Bool :=
  match o, r with
  | .fOpendir _, rc => (cmd = .list ∨ cmd = .nlst) ∧ rc ≠ .ok
  | .fOpen .file _ _, rc => cmd = .retr ∧ rc ≠ .ok
  | .select _, ready => cmd = .stor ∧ ready = false
  | .bind _ _, bound => cmd = .pasv ∧ bound = false
  | .accept _, fd => cmd = .pasv ∧ fd = none
  | _, _ => false

/-! ### Notes -/

/-- What a call means for the replies. -/
inductive Note where
  | reply (kind : ReplyKind)
  /-- a reply on another socket -/
  | astray
  | missed
  deriving DecidableEq, Repr

/-- The note of a reply. -/
def replyNote (sockfd : Int) (r : Int × List UInt8) : Note :=
  if r.1 = sockfd then .reply (replyKind r.2) else .astray

/-- The notes of a call, one or none. -/
def note (cmd : Cmd) (sockfd : Int) (o : FtpOp) (r : o.Res) : List Note :=
  match o, r with
  | .sendReply sock text, _ => [replyNote sockfd (sock, text)]
  | o, r => if misses cmd o r then [.missed] else []

/-- The notes of the calls. -/
def notes (cmd : Cmd) (sockfd : Int) (tr : List Event) : List Note :=
  tr.flatMap fun e => note cmd sockfd e.1 e.2

/-- The answers come from outside, and the notes are kept. -/
def noting (cmd : Cmd) (sockfd : Int) (x : (o : FtpOp) → o.Res) (o : FtpOp) (l : List Note) :
    o.Res × List Note :=
  (x o, l ++ note cmd sockfd o (x o))

/-- The notes of one final reply. -/
def Closes (l : List Note) : Prop :=
  l.filter (· ≠ .missed) ∈ [[Note.reply .final], [.reply .preliminary, .reply .final]]

instance : DecidablePred Closes := fun _ => inferInstanceAs (Decidable (_ ∈ _))

/-- The notes of a run are those of its trace. -/
theorem runWith_noting {α : Type} (cmd : Cmd) (sockfd : Int) (p : Request α)
    (ω : Nat → (o : FtpOp) → o.Res) :
    p.runWith (noting cmd sockfd) ω [] =
      ((p.runWith record ω []).1, notes cmd sockfd (p.runWith record ω []).2) := by
  refine runWith_map (f := notes cmd sockfd) ?_ p ω []
  intro x o tr
  rw [noting, record, notes, notes, List.flatMap_append, List.flatMap_singleton]

/-- A reply is noted by its kind and its socket, and never as a miss. -/
theorem replyNote_ne (sockfd : Int) (r : Int × List UInt8) : replyNote sockfd r ≠ .missed := by
  unfold replyNote
  split_ifs
  · exact Note.noConfusion
  · exact Note.noConfusion

/-- A reply on the control connection has its kind as its note. -/
theorem replyNote_eq_iff {sockfd : Int} {r : Int × List UInt8} {kind : ReplyKind} :
    replyNote sockfd r = .reply kind ↔ r.1 = sockfd ∧ replyKind r.2 = kind := by
  unfold replyNote
  split_ifs with h
  · simp [h]
  · simp [h]

/-- Without the misses, the note of a call is that of its reply. -/
theorem filter_note (cmd : Cmd) (sockfd : Int) (o : FtpOp) (r : o.Res) :
    (note cmd sockfd o r).filter (· ≠ .missed) = (replies [⟨o, r⟩]).map (replyNote sockfd) := by
  cases o
  case sendReply sock text =>
    have hne := replyNote_ne sockfd (sock, text)
    show [replyNote sockfd (sock, text)].filter _ = [replyNote sockfd (sock, text)]
    simp [hne]
  all_goals
    show (ite (misses cmd _ r = true) [Note.missed] []).filter _ = []
    split_ifs <;> rfl

/-- A call leaves the note of a miss iff the command does not handle its outcome. -/
theorem missed_mem_note (cmd : Cmd) (sockfd : Int) (o : FtpOp) (r : o.Res) :
    .missed ∈ note cmd sockfd o r ↔ misses cmd o r = true := by
  cases o
  case sendReply sock text =>
    have hne := replyNote_ne sockfd (sock, text)
    show Note.missed ∈ [replyNote sockfd (sock, text)] ↔ false = true
    simp [hne.symm]
  all_goals
    show Note.missed ∈ (ite (misses cmd _ r = true) [Note.missed] []) ↔ _
    split_ifs with h <;> simp [h]

/-- Without the misses, the notes of a run are those of its replies, in order. -/
theorem filter_notes (cmd : Cmd) (sockfd : Int) (tr : List Event) :
    (notes cmd sockfd tr).filter (· ≠ .missed) = (replies tr).map (replyNote sockfd) := by
  induction tr with
  | nil => rfl
  | cons e tr ih =>
    have hhead : replies (e :: tr) = replies [e] ++ replies tr :=
      List.filterMap_append (l := [e])
    rw [hhead, List.map_append, ← ih, ← filter_note cmd sockfd e.1 e.2, ← List.filter_append]
    rfl

/-- There is a miss among the notes iff some call of the run had an outcome that the command does
not handle. -/
theorem missed_mem_iff (cmd : Cmd) (sockfd : Int) (tr : List Event) :
    .missed ∈ notes cmd sockfd tr ↔ ∃ e ∈ tr, misses cmd e.1 e.2 = true := by
  rw [notes, List.mem_flatMap]
  exact exists_congr fun e => and_congr_right fun _ => missed_mem_note cmd sockfd e.1 e.2

/-- The notes tell whether there was one final reply. The notes of the replies are those of the run
without its misses, so it has sent one final reply iff these notes are a final one, or a preliminary
and a final one. -/
theorem oneFinalReply_iff (cmd : Cmd) (sockfd : Int) (tr : List Event) :
    OneFinalReply sockfd tr ↔ Closes (notes cmd sockfd tr) := by
  have hkinds : (∀ r ∈ replies tr, r.1 = sockfd) → (replies tr).map (replyNote sockfd) =
      ((replies tr).map fun r => replyKind r.2).map Note.reply := by
    intro hcontrol
    rw [List.map_map]
    exact List.map_congr_left fun r hr => replyNote_eq_iff.2 ⟨hcontrol r hr, rfl⟩
  -- the kinds of the replies can be read off their notes
  have hinj : Function.Injective (List.map Note.reply) :=
    List.map_injective_iff.2 fun _ _ h => Note.reply.inj h
  have hclosing : [[Note.reply .final], [.reply .preliminary, .reply .final]] =
      [[ReplyKind.final], [.preliminary, .final]].map (List.map Note.reply) := rfl
  unfold Closes
  rw [filter_notes, hclosing]
  constructor
  · rintro ⟨hcontrol, hone⟩
    rw [hkinds hcontrol]
    exact List.mem_map_of_mem hone
  · intro hclosed
    obtain ⟨kinds, hone, hmap⟩ := List.mem_map.1 hclosed
    -- a reply on another socket has a note that no closing list has
    have hcontrol : ∀ r ∈ replies tr, r.1 = sockfd := by
      intro r hr
      have hmem : replyNote sockfd r ∈ kinds.map Note.reply := hmap ▸ List.mem_map_of_mem hr
      obtain ⟨kind, -, hkind⟩ := List.mem_map.1 hmem
      exact (replyNote_eq_iff.1 hkind.symm).1
    refine ⟨hcontrol, ?_⟩
    rw [hkinds hcontrol] at hmap
    exact hinj hmap ▸ hone

/-! ### The texts -/

/-- The text has a reply code of the kind. -/
structure Coded (kind : ReplyKind) (text : List UInt8) : Prop where
  kind_eq : replyKind text = kind
  length : 3 ≤ text.length

/-- What follows the code does not matter. -/
theorem Coded.append {kind : ReplyKind} {text : List UInt8} (h : Coded kind text)
    (rest : List UInt8) : Coded kind (text ++ rest) := by
  obtain ⟨hkind, hlen⟩ := h
  have h3 : (text ++ rest).take 3 = text.take 3 := List.take_append_of_le_length hlen
  have h1 : (text ++ rest).take 1 = text.take 1 :=
    List.take_append_of_le_length (Nat.le_trans (by decide) hlen)
  constructor
  · rw [replyKind, h3, h1]
    exact hkind
  · rw [List.length_append]
    omega

/-- The reply to a data connection that does not come about is final. -/
theorem coded_cantOpen : Coded .final cantOpen := ⟨by decide, by decide⟩

/-- So is the reply 550 to a path that is no regular file, whatever the path is. -/
theorem coded_notRegular (path : List UInt8) : Coded .final (notRegular path) :=
  (Coded.append ⟨by decide, by decide⟩ _).append _

/-- `CWD` and `CDUP` end with a final reply. -/
theorem coded_changedTo (path : List UInt8) : Coded .final (changedTo path) :=
  (Coded.append ⟨by decide, by decide⟩ _).append _

/-- So do `MKD` and `RMD` where they succeed. -/
theorem coded_directoryWas (path : List UInt8) (verb : String) :
    Coded .final (directoryWas path verb) :=
  ((((Coded.append ⟨by decide, by decide⟩ _).append _).append _).append _)

/-- `RETR` announces its transfer with a preliminary reply, in both forms of the text. -/
theorem coded_retrOpening (offset : Nat) (numBytes : Int) (path : List UInt8) :
    Coded .preliminary (retrOpening offset numBytes path) := by
  unfold retrOpening
  split_ifs
  · exact ((((((Coded.append ⟨by decide, by decide⟩ _).append _).append _).append
      _).append _).append _)
  · exact ((((Coded.append ⟨by decide, by decide⟩ _).append _).append _).append _)

/-- The 227 reply is final, whatever the address in it is. -/
theorem coded_passiveMode (o : Outcome) : Coded .final (passiveMode o) := by
  unfold passiveMode
  repeat' apply Coded.append
  exact ⟨by decide, by decide⟩

/-! ### The rules -/

/-- A part of a request for `cmd` ends with `Q`, from the notes `l`. -/
abbrev Ends {α : Type} (cmd : Cmd) (sockfd : Int) (p : Request α) (Q : α → List Note → Prop)
    (l : List Note) : Prop :=
  p.Always (noting cmd sockfd) (fun _ => True) Q l

section Rules
variable {α β : Type} {cmd : Cmd} {sockfd : Int} {Q : β → List Note → Prop} {l : List Note}

/-- A part that returns ends with the notes that it has. -/
theorem ends_ret {b : β} (h : Q b l) : Ends cmd sockfd (return b) Q l := h

/-- A call adds its note, and the rest is proved for every answer. -/
theorem ends_ask {o : FtpOp} {f : o.Res → Request β}
    (h : ∀ r, Ends cmd sockfd (f r) Q (l ++ note cmd sockfd o r)) :
    Ends cmd sockfd (ask o >>= f) Q l := fun x _ => h (x o)

/-- A call without a note. -/
theorem ends_quiet {o : FtpOp} {f : o.Res → Request β} (hquiet : ∀ r, note cmd sockfd o r = [])
    (h : ∀ r, Ends cmd sockfd (f r) Q l) : Ends cmd sockfd (ask o >>= f) Q l := by
  refine ends_ask fun r => ?_
  rw [hquiet, List.append_nil]
  exact h r

/-- Two parts, one after the other: what the first ends with is where the second starts. -/
theorem ends_bind {p : Request α} {f : α → Request β} {P : α → List Note → Prop}
    (hp : Ends cmd sockfd p P l) (hf : ∀ a l', P a l' → Ends cmd sockfd (f a) Q l') :
    Ends cmd sockfd (p >>= f) Q l := always_seq hp hf

/-- A reply on the control connection. -/
theorem ends_reply {conn : Conn} {text : List UInt8} {f : Unit → Request β} (kind : ReplyKind)
    (hconn : conn.sockfd = sockfd) (hcode : Coded kind text)
    (h : Ends cmd sockfd (f ()) Q (l ++ [.reply kind])) :
    Ends cmd sockfd (reply conn text >>= f) Q l := by
  refine ends_ask fun r => ?_
  have hnote : note cmd sockfd (.sendReply conn.sockfd text) r = [.reply kind] := by
    show [replyNote sockfd (conn.sockfd, text)] = _
    rw [replyNote_eq_iff.2 ⟨hconn, hcode.kind_eq⟩]
  rw [hnote]
  exact h

/-- A command that only replies. -/
theorem replyOnly_ends {conn : Conn} {text : List UInt8} (hconn : conn.sockfd = sockfd)
    (hcode : Coded .final text) :
    Ends cmd sockfd (replyOnly conn text) (fun _ l' => l' = l ++ [.reply .final]) l :=
  ends_reply .final hconn hcode (ends_ret rfl)

end Rules

/-! ### The commands -/

/-- The end of a run that has sent one final reply. -/
abbrev Final {α : Type} (l : List Note) : α → List Note → Prop := fun _ l' =>
  l' = l ++ [.reply .final]

/-- A run that has come to its end has left one of `outcomes`. -/
abbrev Leaves {α : Type} (outcomes : List (List Note)) : Option α → List Note → Prop := fun r l' =>
  r ≠ none → l' ∈ outcomes

section Commands
variable {cmd : Cmd} {sockfd : Int} {conn : Conn} {l : List Note}

/-- The size of a file is found without a reply. -/
theorem doGetFilesize_ends (filename : Path) :
    Ends cmd sockfd (doGetFilesize filename) (fun _ l' => l' = l) l := by
  refine ends_quiet (fun _ => rfl) fun rc => ?_
  split_ifs
  · exact ends_quiet (fun _ => rfl) fun _ => ends_quiet (fun _ => rfl) fun _ => ends_ret rfl
  · exact ends_ret rfl

/-- `SIZE` sends 213 or 550. -/
theorem cmdSize_ends (hconn : conn.sockfd = sockfd) (parameter : List UInt8) :
    Ends cmd sockfd (cmdSize conn parameter) (Final l) l := by
  refine ends_bind (doGetFilesize_ends _) fun numBytes l' hl => ?_
  subst hl
  split_ifs
  · exact replyOnly_ends hconn (coded_notRegular _)
  · exact replyOnly_ends hconn ((Coded.append ⟨by decide, by decide⟩ _).append _)

/-- `TYPE` sends 200 for each of its parameters. -/
theorem cmdType_ends (hconn : conn.sockfd = sockfd) (parameter : List UInt8) :
    Ends cmd sockfd (cmdType conn parameter) (Final l) l := by
  unfold cmdType
  split_ifs
  · exact replyOnly_ends hconn ⟨by decide, by decide⟩
  · exact replyOnly_ends hconn ⟨by decide, by decide⟩

/-- `CWD` sends 250 without a look at the directory. -/
theorem cmdCwd_ends (hconn : conn.sockfd = sockfd) (parameter : List UInt8) :
    Ends cmd sockfd (cmdCwd conn parameter) (Final l) l :=
  ends_reply .final hconn (coded_changedTo _) (ends_ret rfl)

/-- `CDUP` sends 250. -/
theorem cmdCdup_ends (hconn : conn.sockfd = sockfd) :
    Ends cmd sockfd (cmdCdup conn) (Final l) l :=
  replyOnly_ends hconn (coded_changedTo _)

/-- A call without a note, and one of two replies. -/
theorem ends_choice {o : FtpOp} {c : o.Res → Prop} [DecidablePred c] {text text' : List UInt8}
    (hquiet : ∀ r, note cmd sockfd o r = []) (hconn : conn.sockfd = sockfd)
    (hcode : Coded .final text) (hcode' : Coded .final text') :
    Ends cmd sockfd
      (ask o >>= fun r => if c r then replyOnly conn text else replyOnly conn text')
      (Final l) l := by
  refine ends_quiet hquiet fun r => ?_
  split_ifs
  · exact replyOnly_ends hconn hcode
  · exact replyOnly_ends hconn hcode'

/-- `MKD` sends one reply for either result of `f_mkdir`. -/
theorem cmdMkd_ends (hconn : conn.sockfd = sockfd) (parameter : List UInt8) :
    Ends cmd sockfd (cmdMkd conn parameter) (Final l) l :=
  ends_choice (fun _ => rfl) hconn
    ((Coded.append ⟨by decide, by decide⟩ _).append _) (coded_directoryWas _ _)

/-- `DELE` sends one reply for either result of `f_unlink`. -/
theorem cmdDele_ends (hconn : conn.sockfd = sockfd) (parameter : List UInt8) :
    Ends cmd sockfd (cmdDele conn parameter) (Final l) l :=
  ends_choice (fun _ => rfl) hconn
    ((Coded.append ⟨by decide, by decide⟩ _).append _)
    ((Coded.append ⟨by decide, by decide⟩ _).append _)

/-- `RMD` does the same. -/
theorem cmdRmd_ends (hconn : conn.sockfd = sockfd) (parameter : List UInt8) :
    Ends cmd sockfd (cmdRmd conn parameter) (Final l) l :=
  ends_choice (fun _ => rfl) hconn
    ((Coded.append ⟨by decide, by decide⟩ _).append _) (coded_directoryWas _ _)

/-- Only `CMD_PASV` does not handle a failed `bind`. -/
theorem note_bind (hcmd : cmd ≠ .pasv) (fd : Int) (port : UInt16) (bound : Bool) :
    note cmd sockfd (.bind fd port) bound = [] := by
  have hmiss : misses cmd (.bind fd port) bound = false :=
    decide_eq_false fun h => hcmd h.1
  show (if misses cmd (.bind fd port) bound = true then [Note.missed] else []) = []
  rw [hmiss]
  rfl

/-- `PORT` with a socket sends 200 or 425, whichever attempt at `connect` it comes to. Its `bind`
may fail: what follows handles it, unlike in `PASV`. -/
theorem portConnect_ends (hconn : conn.sockfd = sockfd) (hcmd : cmd ≠ .pasv) (fd : Int)
    (addr : UInt32) (port : UInt16) :
    Ends cmd sockfd (portConnect conn fd addr port) (Final l) l := by
  have hdone : Ends cmd sockfd (portDone conn port) (Final l) l :=
    replyOnly_ends hconn ⟨by decide, by decide⟩
  refine ends_quiet (note_bind hcmd fd ftpDataPort) fun _ => ends_quiet (fun _ => rfl) fun r => ?_
  split_ifs
  · exact hdone
  · refine ends_quiet (fun _ => rfl) fun r' => ?_
    split_ifs
    · exact hdone
    · exact ends_reply .final hconn coded_cantOpen
        (ends_quiet (fun _ => rfl) fun _ => ends_ret rfl)

/-- `PORT` sends one final reply on every branch. -/
theorem cmdPort_ends (hconn : conn.sockfd = sockfd) (hcmd : cmd ≠ .pasv)
    (stray parameter : List UInt8) :
    Ends cmd sockfd (cmdPort stray conn parameter) (Final l) l := by
  refine ends_quiet (fun _ => rfl) fun fd => ?_
  show Ends cmd sockfd (ite (toFd fd = -1) _ _) _ _
  split_ifs
  · exact ends_reply .final hconn coded_cantOpen
      (ends_quiet (fun _ => rfl) fun _ => ends_ret rfl)
  · have hconn' : { conn with pasvSockfd := toFd fd }.sockfd = sockfd := hconn
    exact portConnect_ends hconn' hcmd _ _ _

/-! ### The loops -/

/-- A listing sends no reply, however long the directory is. -/
theorem listEntries_ends (sock : Int) (line : Filinfo → List UInt8) (turns : Nat) :
    Ends cmd sockfd (listEntries sock line turns) (fun _ l' => l' = l) l := by
  induction turns with
  | zero => exact ends_ret rfl
  | succ turns ih =>
    refine ends_quiet (fun _ => rfl) fun r => ?_
    show Ends cmd sockfd (ite (r.1 ≠ .ok ∨ r.2.fname = []) _ _) _ _
    split_ifs
    · exact ends_ret rfl
    · exact ends_quiet (fun _ => rfl) fun _ => ih

/-- Nor does the transfer of a file, however long it is. -/
theorem retrLoop_ends (turns : Nat) :
    Ends cmd sockfd (retrLoop conn turns) (fun _ l' => l' = l) l := by
  induction turns with
  | zero => exact ends_ret rfl
  | succ turns ih =>
    refine ends_quiet (fun _ => rfl) fun r => ?_
    show Ends cmd sockfd (ite (0 < r.2.length) _ _) _ _
    split_ifs
    · exact ends_quiet (fun _ => rfl) fun _ => ih
    · exact ends_ret rfl

/-- The receive loop comes to an end that returns 0 with its reply, or without one when no data is
there in time. -/
theorem storLoop_ends (hconn : conn.sockfd = sockfd) (turns : Nat) :
    Ends .stor sockfd (storLoop conn turns)
      (fun ret l' => ret = some 0 → l' = l ++ [.reply .final] ∨ l' = l ++ [.missed]) l := by
  induction turns with
  | zero => exact ends_ret fun h => absurd h (by decide)
  | succ turns ih =>
    refine ends_ask fun ready => ?_
    cases ready with
    -- no data in time: the loop is left without a reply
    | false => exact ends_ret fun _ => .inr rfl
    | true =>
      show Ends .stor sockfd _ _ (l ++ [])
      rw [List.append_nil]
      refine ends_quiet (fun _ => rfl) fun data => ?_
      match data with
      | some [] =>
        refine ends_quiet (fun _ => rfl) fun _ => ?_
        exact ends_reply .final hconn ⟨by decide, by decide⟩
          (ends_ret fun _ => .inl rfl)
      -- a piece: written to the file, and the loop goes on
      | some (b :: bs) => exact ends_quiet (fun _ => rfl) fun _ => ih
      | none =>
        refine ends_quiet (fun _ => rfl) fun _ => ends_ret fun h => ?_
        exact absurd h (by decide)

/-! ### The transfers -/

/-- A listing whose directory does not open sends the text `error` on the data connection. Otherwise
it leaves no note, as the entries go to the data connection. The text has the code of a final reply,
so on the control socket it would be one. -/
theorem doList_ends (hcmd : cmd = .list ∨ cmd = .nlst) (sock : Int) (name : Path)
    {error : List UInt8} (hcode : Coded .final error) (line : Filinfo → List UInt8) (turns : Nat) :
    Ends cmd sockfd (doList sock name error line turns)
      (fun _ l' => l' = l ∨ l' = l ++ [.missed, .astray] ∨ l' = l ++ [.missed, .reply .final])
      l := by
  refine ends_ask fun rc => ?_
  have hnote : note cmd sockfd (.fOpendir name) rc = if rc ≠ .ok then [.missed] else [] := by
    show (if decide _ = true then [Note.missed] else []) = _
    simp only [hcmd, true_and, decide_eq_true_eq]
  rw [hnote]
  show Ends cmd sockfd (ite (rc ≠ .ok) _ _) _ _
  split_ifs
  · refine ends_ask fun _ => ends_ret (.inr ?_)
    show _ ++ [replyNote sockfd (sock, error)] = _ ∨ _ ++ [replyNote sockfd (sock, error)] = _
    -- the data socket may have the number of the control socket
    by_cases hsock : sock = sockfd
    · rw [replyNote_eq_iff.2 ⟨hsock, hcode.kind_eq⟩, List.append_assoc]
      exact .inr rfl
    · rw [replyNote, if_neg hsock, List.append_assoc]
      exact .inl rfl
  · rw [List.append_nil]
    exact always_mono (fun _ _ h => .inl h) (listEntries_ends sock line turns)

/-- The notes of `CMD_LIST` and `CMD_NLST`. -/
def listOutcomes : List (List Note) :=
  [[.reply .preliminary, .reply .final], [.reply .preliminary, .missed, .astray, .reply .final],
    [.reply .preliminary, .missed, .reply .final, .reply .final]]

/-- A listing comes to one of its outcomes: the 150 reply, then the entries on the data socket, or
the error text there, and the 226 reply. -/
theorem listing_ends (hcmd : cmd = .list ∨ cmd = .nlst) {listed : Conn}
    (hconn : conn.sockfd = sockfd) (hlisted : listed.sockfd = sockfd) (sock : Int) (name : Path)
    {error : List UInt8} (hcode : Coded .final error) (line : Filinfo → List UInt8) (turns : Nat) :
    Ends cmd sockfd (listing conn listed (doList sock name error line turns))
      (Leaves listOutcomes) [] := by
  refine ends_reply .preliminary hconn ⟨by decide, by decide⟩ ?_
  refine ends_bind (doList_ends hcmd sock name hcode line turns) fun finished l' hl => ?_
  -- a listing that runs out of turns has no result
  cases finished with
  | false => exact ends_ret fun h => absurd rfl h
  | true =>
    refine ends_quiet (fun _ => rfl) fun _ => ?_
    refine ends_reply .final hlisted
      ⟨by decide, by decide⟩ (ends_ret fun _ => ?_)
    rcases hl with rfl | rfl | rfl <;> decide

/-- `LIST` is such a listing, on a directory without the slash at its end. -/
theorem cmdList_ends (hconn : conn.sockfd = sockfd) (turns : Nat) :
    Ends .list sockfd (cmdList turns conn) (Leaves listOutcomes) [] := by
  have hlisted : { conn with currentdir := trimSlash conn.currentdir }.sockfd = sockfd := hconn
  have hcode : Coded .final (textBytes "500 Internal Server Error\r\n") :=
    ⟨by decide, by decide⟩
  exact listing_ends (.inl rfl) hconn hlisted _ _ hcode _ _

/-- `NLST` is one too. -/
theorem cmdNlst_ends (hconn : conn.sockfd = sockfd) (turns : Nat) :
    Ends .nlst sockfd (cmdNlst turns conn) (Leaves listOutcomes) [] := by
  have hcode : Coded .final (textBytes "500 Internal Error\r\n") :=
    ⟨by decide, by decide⟩
  exact listing_ends (.inr rfl) hconn hconn _ _ hcode _ _

/-- The notes of `CMD_RETR`. -/
def retrOutcomes : List (List Note) :=
  [[.reply .final], [.missed], [.reply .preliminary, .reply .final]]

/-- `RETR` behind its opens: 150, the bytes of the file, 226. -/
theorem retrSend_ends (hconn : conn.sockfd = sockfd) (turns : Nat) (path : List UInt8)
    (numBytes : Int) :
    Ends cmd sockfd (retrSend turns conn path numBytes) (Leaves retrOutcomes) [] := by
  refine ends_reply .preliminary hconn (coded_retrOpening _ _ _) ?_
  refine ends_bind (retrLoop_ends turns) fun finished l' hl => ?_
  cases finished with
  | false => exact ends_ret fun h => absurd rfl h
  | true =>
    refine ends_reply .final hconn ⟨by decide, by decide⟩ ?_
    refine ends_quiet (fun _ => rfl) fun _ => ends_quiet (fun _ => rfl) fun _ => ?_
    refine ends_ret fun _ => ?_
    rw [hl]
    decide

/-- A seek that fails is passed over, and the transfer begins at another offset. -/
theorem retrTransfer_ends (hconn : conn.sockfd = sockfd) (turns : Nat) (path : List UInt8)
    (numBytes : Int) :
    Ends cmd sockfd (retrTransfer turns conn path numBytes) (Leaves retrOutcomes) [] := by
  unfold retrTransfer
  split_ifs
  · exact ends_quiet (fun _ => rfl) fun _ => retrSend_ends hconn turns path numBytes
  · exact retrSend_ends hconn turns path numBytes

/-- `RETR` comes to one of its outcomes, among them the one without a reply where the second
`f_open` fails. -/
theorem cmdRetr_ends (hconn : conn.sockfd = sockfd) (turns : Nat) (parameter : List UInt8) :
    Ends .retr sockfd (cmdRetr turns conn parameter) (Leaves retrOutcomes) [] := by
  refine ends_bind (doGetFilesize_ends _) fun numBytes l' hl => ?_
  subst hl
  unfold retrOpen
  split_ifs
  · refine ends_reply .final hconn (coded_notRegular _) ?_
    exact ends_ret fun _ => by decide
  · refine ends_ask fun rc => ?_
    -- the file does not open: the branch has no reply for it
    by_cases hrc : rc = .ok
    · subst hrc
      have hconn' : (fullPath conn parameter).2.sockfd = sockfd := hconn
      exact retrTransfer_ends hconn' turns _ numBytes
    · have hnote : note .retr sockfd (.fOpen .file _ _) rc = [.missed] :=
        if_pos (decide_eq_true ⟨rfl, hrc⟩)
      rw [hnote, if_pos hrc]
      exact ends_ret fun _ => by decide

/-- The notes of `CMD_STOR`. -/
def storOutcomes : List (List Note) :=
  [[.reply .final], [.reply .preliminary, .reply .final], [.reply .preliminary, .missed]]

/-- `STOR` behind its open: a transfer that the peer has closed ends with 226, a `select` that fails
without a reply. A request that returns -1 is cut off with its connection. -/
theorem storTransfer_ends (hconn : conn.sockfd = sockfd) (turns : Nat) (path : List UInt8) :
    Ends .stor sockfd (storTransfer turns conn path)
      (fun r l' => ∀ conn', r = some (0, conn') → l' ∈ storOutcomes) [] := by
  refine ends_reply .preliminary hconn
    ((Coded.append ⟨by decide, by decide⟩ _).append _) ?_
  refine ends_bind (storLoop_ends hconn turns) fun ret l' hl => ?_
  match ret with
  | none => exact ends_ret fun _ h => by cases h
  | some ret =>
    refine ends_quiet (fun _ => rfl) fun _ => ends_ret fun conn' h => ?_
    have hret : ret = 0 := (Prod.mk.inj (Option.some.inj h)).1
    rcases hl (congrArg some hret) with rfl | rfl <;> decide

/-- `STOR` comes to one of its outcomes where it returns 0. -/
theorem cmdStor_ends (hconn : conn.sockfd = sockfd) (turns : Nat) (parameter : List UInt8) :
    Ends .stor sockfd (cmdStor turns conn parameter)
      (fun r l' => ∀ conn', r = some (0, conn') → l' ∈ storOutcomes) [] := by
  refine ends_quiet (fun _ => rfl) fun rc => ?_
  split_ifs
  · refine ends_reply .final hconn
      ((Coded.append ⟨by decide, by decide⟩ _).append _) ?_
    exact ends_ret fun _ _ => by decide
  · have hconn' : (fullPath conn parameter).2.sockfd = sockfd := hconn
    exact storTransfer_ends hconn' turns _

/-! ### `CMD_PASV` -/

/-- The end of the `do`-block of `CMD_PASV` behind `listen`: the 227 reply, and a second one when
the connection is not accepted. -/
abbrev Accepted {α : Type} (l : List Note) : α → List Note → Prop := fun _ l' =>
  l' = l ++ [.reply .final] ∨ l' = l ++ [.reply .final, .missed, .reply .final]

/-- Behind `listen`, `PASV` sends 227 first and waits for the peer afterwards, so what fails from
there on sends a second reply. -/
theorem pasvAccept_ends (hconn : conn.sockfd = sockfd) (ipaddr : UInt32) (ret : Nat) (fd : Int) :
    Ends .pasv sockfd (pasvAccept ipaddr conn ret fd) (Accepted l) l := by
  refine ends_reply .final hconn (coded_passiveMode _) ?_
  refine ends_quiet (fun _ => rfl) fun _ => ends_quiet (fun _ => rfl) fun ready => ?_
  split_ifs
  · refine ends_ask fun r => ?_
    match r with
    | some r =>
      have hfd : ¬ toFd (some r) < 0 := Int.not_lt.2 (Int.natCast_nonneg r)
      show Ends .pasv sockfd (ite (toFd (some r) < 0) _ _) _ (_ ++ [])
      rw [if_neg hfd, List.append_nil]
      exact ends_quiet (fun _ => rfl) fun _ => ends_ret (.inl rfl)
    -- a second final reply behind the one of the passive mode
    | none =>
      refine ends_reply .final hconn coded_cantOpen (ends_ret (.inr ?_))
      show l ++ [Note.reply .final] ++ [.missed] ++ [.reply .final] = _
      rw [List.append_assoc, List.append_assoc]
      rfl
  · exact ends_ret (.inl rfl)

/-- A failed `bind` has had its reply already, and `listen` and `accept` go on behind it. -/
theorem pasvListen_ends (hconn : conn.sockfd = sockfd) (ipaddr : UInt32) (ret : Nat) (fd : Int) :
    Ends .pasv sockfd (pasvListen ipaddr conn ret fd) (Accepted l) l := by
  refine ends_quiet (fun _ => rfl) fun listening => ?_
  split_ifs
  · exact pasvAccept_ends hconn ipaddr ret fd
  · exact ends_reply .final hconn coded_cantOpen (ends_ret (.inl rfl))

/-- The notes of `CMD_PASV`. -/
def pasvOutcomes : List (List Note) :=
  [[.reply .final], [.reply .final, .missed, .reply .final],
    [.missed, .reply .final, .reply .final],
    [.missed, .reply .final, .reply .final, .missed, .reply .final]]

/-- `PASV` up to its result comes to one of its outcomes. By the answers to `socket`, `bind` and
`listen`, and what the part behind them adds. -/
theorem pasvOpen_ends (hconn : conn.sockfd = sockfd) (ipaddr : UInt32) :
    Ends .pasv sockfd (pasvOpen ipaddr conn) (fun _ l' => l' ∈ pasvOutcomes) [] := by
  refine ends_quiet (fun _ => rfl) fun fd => ?_
  show Ends .pasv sockfd (ite (toFd fd = -1) _ _) _ _
  split_ifs
  · exact ends_reply .final hconn coded_cantOpen (ends_ret (by decide))
  · refine ends_ask fun bound => ?_
    cases bound with
    | true =>
      show Ends .pasv sockfd _ _ []
      refine always_mono ?_ (pasvListen_ends hconn ipaddr 0 (toFd fd))
      rintro _ l' (rfl | rfl) <;> decide
    -- `bind` has failed: the reply is sent, and the code goes on to `listen`
    | false =>
      show Ends .pasv sockfd _ _ [.missed]
      refine ends_reply .final hconn coded_cantOpen ?_
      refine always_mono ?_ (pasvListen_ends hconn ipaddr 3 (toFd fd))
      rintro _ l' (rfl | rfl) <;> decide

/-- The clean-up of `PASV` sends nothing. -/
theorem cmdPasv_ends (hconn : conn.sockfd = sockfd) (ipaddr : UInt32) :
    Ends .pasv sockfd (cmdPasv ipaddr conn) (fun _ l' => l' ∈ pasvOutcomes) [] := by
  have hconn' : { conn with pasvPort := ftpPassvPort, pasvActive := true }.sockfd = sockfd := hconn
  refine ends_bind (pasvOpen_ends hconn' ipaddr) fun r l' hl => ?_
  show Ends .pasv sockfd (pasvEnd r.2 r.1) _ _
  unfold pasvEnd
  split_ifs
  · exact ends_quiet (fun _ => rfl) fun _ => ends_ret hl
  · exact ends_ret hl

/-! ### A request -/

/-- What the notes of a request that returns 0 tell, where it answers at all if `answers`. -/
abbrev Told (answers : Prop) (r : Option (Int × Conn)) (l : List Note) : Prop :=
  ∀ conn', r = some (0, conn') → (Closes l ↔ answers ∧ .missed ∉ l)

/-- A command that sends its reply on every path. -/
theorem done_ends {p : Request Conn} (h : Ends cmd sockfd p (Final []) []) :
    Ends cmd sockfd (done p) (Told True) [] := by
  refine ends_bind h fun conn l' hl => ends_ret fun _ _ => ?_
  subst hl
  decide

/-- The notes of a transfer show the miss. -/
theorem doneIf_ends {p : Request (Option Conn)} {outcomes : List (List Note)}
    (h : Ends cmd sockfd p (Leaves outcomes) [])
    (hshow : ∀ l ∈ outcomes, Closes l ↔ True ∧ .missed ∉ l) :
    Ends cmd sockfd (doneIf p) (Told True) [] := by
  refine ends_bind h fun r l' hl => ends_ret fun conn' hr => hshow l' (hl ?_)
  intro hnone
  subst hnone
  cases hr

/-- `REST` sends 350 for a number that is not negative, and nothing otherwise. -/
theorem cmdRest_ends (hconn : conn.sockfd = sockfd) (parameter : List UInt8) :
    Ends cmd sockfd (done (cmdRest conn parameter)) (Told (0 ≤ atoi parameter)) [] := by
  unfold cmdRest
  split_ifs with hneg
  · refine ends_reply .final hconn ⟨by decide, by decide⟩ ?_
    refine ends_ret fun _ _ => ?_
    simp only [hneg, true_and]
    decide
  · refine ends_ret fun _ _ => ?_
    simp only [hneg, false_and, iff_false]
    decide

/-- The number of a `REST` is one that it takes. -/
def Answers (x : Surroundings) (line : List UInt8) : Prop :=
  doParseCommand line = .rest → 0 ≤ atoi ((parameterPtr line).getD x.stray)

/-- The `switch`, one case for each command. Each case puts the outcomes of its command together
with what the command misses. -/
theorem execute_ends (hconn : conn.sockfd = sockfd) (x : Surroundings) (line : List UInt8) :
    Ends (doParseCommand line) sockfd (execute x conn line) (Told (Answers x line)) [] := by
  have hother : doParseCommand line ≠ .rest → (Answers x line ↔ True) := fun hne =>
    iff_true_intro fun h => absurd h hne
  unfold execute
  cases hcmd : doParseCommand line
  -- the one command whose answer hangs on its parameter
  case rest =>
    have hanswers : Answers x line ↔ 0 ≤ atoi ((parameterPtr line).getD x.stray) :=
      ⟨fun h => h hcmd, fun h _ => h⟩
    rw [hanswers]
    exact cmdRest_ends hconn _
  all_goals rw [hother (by rw [hcmd]; decide)]
  case user =>
    exact done_ends (replyOnly_ends hconn
      ((Coded.append ⟨by decide, by decide⟩ _).append _))
  case pwd =>
    exact done_ends (replyOnly_ends hconn
      ((Coded.append ⟨by decide, by decide⟩ _).append _))
  case list => exact doneIf_ends (cmdList_ends hconn _) (by decide)
  case nlst => exact doneIf_ends (cmdNlst_ends hconn _) (by decide)
  case type => exact done_ends (cmdType_ends hconn _)
  case retr => exact doneIf_ends (cmdRetr_ends hconn _ _) (by decide)
  -- whether the data socket is closed is read off the recorded outcomes
  case stor =>
    refine always_mono (fun r l' h conn' hr => ?_) (cmdStor_ends hconn _ _)
    have hshow : ∀ l ∈ storOutcomes, Closes l ↔ True ∧ .missed ∉ l := by decide
    exact hshow l' (h conn' hr)
  case size => exact done_ends (cmdSize_ends hconn _)
  case cwd => exact done_ends (cmdCwd_ends hconn _)
  case cdup => exact done_ends (cmdCdup_ends hconn)
  case port => exact done_ends (cmdPort_ends hconn (by decide) _ _)
  case mkd => exact done_ends (cmdMkd_ends hconn _)
  case dele => exact done_ends (cmdDele_ends hconn _)
  case rmd => exact done_ends (cmdRmd_ends hconn _)
  case pasv =>
    refine ends_bind (cmdPasv_ends hconn _) fun r l' hl => ends_ret fun _ _ => ?_
    have hshow : ∀ l ∈ pasvOutcomes, Closes l ↔ True ∧ .missed ∉ l := by decide
    exact hshow l' hl
  case quit =>
    refine ends_reply .final hconn ⟨by decide, by decide⟩ (ends_ret fun _ h => ?_)
    exact absurd (Prod.mk.inj (Option.some.inj h)).1 (by decide)
  all_goals
    exact done_ends (replyOnly_ends hconn ⟨by decide, by decide⟩)

end Commands

/-- A request that returns 0 has sent one final reply iff it answers, and no call had an outcome
that its command does not handle. The answers of all calls are any ones. An outcome that is not
handled leads to no final reply, or to one more, so the condition is not only enough but needed. -/
theorem one_final_reply_iff (x : Surroundings) (conn conn' : Conn) (buf : List UInt8)
    (ω : Nat → (o : FtpOp) → o.Res) (tr : List Event)
    (h : (ftpProcessRequest x conn buf).runWith record ω [] = (some (0, conn'), tr)) :
    OneFinalReply conn.sockfd tr ↔
      Answers x (requestLine buf) ∧
        ∀ e ∈ tr, misses (doParseCommand (requestLine buf)) e.1 e.2 = false := by
  have hends : Ends (doParseCommand (requestLine buf)) conn.sockfd (ftpProcessRequest x conn buf)
      (Told (Answers x (requestLine buf))) [] := by
    refine ends_quiet (fun _ => rfl) fun allocated => ?_
    split_ifs
    · exact execute_ends rfl x (requestLine buf)
    · refine ends_ret fun _ h' => ?_
      exact absurd (Prod.mk.inj (Option.some.inj h')).1 (by decide)
  -- the notes of the run are those of its trace
  have htold := always_runWith hends (ω := ω) fun _ => trivial
  rw [runWith_noting, h] at htold
  rw [oneFinalReply_iff (doParseCommand (requestLine buf)), htold conn' rfl, missed_mem_iff]
  refine and_congr_right fun _ => ?_
  simp only [not_exists, not_and, Bool.not_eq_true]

/-- Every call succeeds: nothing is in a directory, and nothing comes from a socket. -/
def succeeding : (o : FtpOp) → o.Res
  | .malloc | .bind _ _ | .listen _ | .connect _ _ _ | .fdIsset _ | .select _ => true
  | .sendReply _ _ | .sendEntry _ _ | .close _ => ()
  | .socket | .accept _ => some 5
  | .send _ buf => some buf.length
  | .recv _ => some []
  | .fOpendir _ | .fOpen _ _ _ | .fLseek _ _ | .fClose _ | .fMkdir _ | .fUnlink _ => .ok
  | .fReaddir => (.ok, ⟨[], 0, 0, false⟩)
  | .fSize _ => 0
  | .fRead _ _ => (.ok, [])
  | .fWrite _ buff => (.ok, buff.length)

/-- As `succeeding`, but the file of a transfer does not open. -/
def unopened : (o : FtpOp) → o.Res
  | .fOpen .file _ _ => .tooManyOpenFiles
  | o => succeeding o

/-- A connection with the socket 3, in the directory `/`. -/
def client : Conn := ⟨0, 3, 0, false, -1, 0, 0, [47]⟩

/-- A directory that opens is listed with one final reply. -/
theorem one_final_reply_nlst :
    OneFinalReply 3 ((ftpProcessRequest ⟨[], 0, 9⟩ client (textBytes "NLST\r\n")).runWith record
      (fun _ => succeeding) []).2 := by
  refine (one_final_reply_iff ⟨[], 0, 9⟩ client { client with pasvActive := false }
    (textBytes "NLST\r\n") (fun _ => succeeding) _ rfl).2 ⟨?_, ?_⟩
  · intro h
    exact absurd h (by decide)
  · decide

/-- `RETR a` for a file that opens for its size, and not for its data: the request returns 0 and
has sent nothing. -/
theorem retr_without_reply :
    let run := (ftpProcessRequest ⟨[], 0, 9⟩ client (textBytes "RETR a\r\n")).runWith record
      (fun _ => unopened) []
    run.1 = some (0, client) ∧ replies run.2 = [] ∧
      ¬ OneFinalReply 3 run.2 := by
  refine ⟨by decide, by decide, fun h => ?_⟩
  exact absurd h.one (by decide)

end NucleoH743.Ftp.Program
