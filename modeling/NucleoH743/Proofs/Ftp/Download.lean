import Mathlib.Tactic.SplitIfs
import NucleoH743.FatFs.OpenFile
import NucleoH743.Proofs.Ftp.Replies
import NucleoH743.Proofs.Ftp.Restart

/-!
# `Proofs.Ftp.Download`: what a finished download has delivered

`CMD_RETR` looks at none of the results of `f_lseek`, `f_read` and `send`. Its loop ends with the
first read that delivers nothing, and the 226 reply is sent whatever the reason was.

The request runs against one file (`Download`). What a call does beyond the program comes with it
as a `CallOutcome`.

What a download delivers is a matter of three things: where it starts, which bytes `f_read` gives,
and how many of them `send` takes. `Tally` keeps these of the calls and drops the rest, and the
rules for it (`tallies_ask`, `tallies_quiet`) take the program apart call by call.

The loop is the part with an argument. Before each turn there is a rest of the file behind the file
pointer, and a turn that loses nothing sends the first piece of it. So either the whole rest is
delivered, or the tally has a loss and less than the rest was taken; in both cases the loop is over,
as every turn but the last one moves the pointer. The length of the rest is what the induction is
on.

The condition speaks of the outcomes alone, with the sizes that the calls asked for. That a loss
implies less than the whole file is a part of the proof, since a later piece cannot make up for an
earlier one.

- `download_delivered_iff`: a 226 reply means that the data socket has taken the file from the
  offset on iff no call has lost a byte. Where the offset lies at or behind the end of a file that
  is not empty, the code starts from the first byte, and the reply means this only if the socket
  has taken nothing.
-/

set_option autoImplicit false

namespace NucleoH743.Ftp.Program

open NucleoH743.FatFs
open Prog (always_seq always_mono always_runWith runWith_map)
open CStr (textBytes)

/-! ### The file and the calls -/

/-- The bytes of a file. `FSIZE_t` is a `DWORD` here. -/
structure FileBytes where
  bytes : List UInt8
  length_lt : bytes.length < 2 ^ 32

/-- What the calls of a download do beyond the program. -/
structure CallOutcome where
  /-- the results of the calls that reach neither the open file nor the data connection -/
  other : (o : FtpOp) → o.Res
  /-- of a call on the open file -/
  disk : OpenFile.Outcome
  /-- how many bytes a `send` accepts at most, or `none` if it fails -/
  room : Option Nat

/-- A call, with the open file before it and its outcome. -/
structure DataCall where
  file : OpenFile
  op : FtpOp
  outcome : CallOutcome

/-- A download: the open file, and the calls so far, oldest first. -/
structure Download where
  file : OpenFile
  calls : List DataCall

/-- The result of a call, and the open file behind it. `f_open` starts with the first byte. -/
def CallOutcome.answer (x : CallOutcome) : (o : FtpOp) → OpenFile → o.Res × OpenFile
  | .fOpen .file path mode, f => (x.other (.fOpen .file path mode), { data := f.data })
  | .fSize _, f => (f.data.length, f)
  | .fLseek .file ofs, f => f.lseek ofs x.disk
  | .fRead .file btr, f =>
    (((f.read btr x.disk).1, (f.read btr x.disk).2.1), (f.read btr x.disk).2.2)
  | .send _ buf, f => (x.room.map (min buf.length), f)
  | o, f => (x.other o, f)

/-- One call of a download. -/
def Download.call (x : CallOutcome) (o : FtpOp) (s : Download) : o.Res × Download :=
  ((x.answer o s.file).1, ⟨(x.answer o s.file).2, s.calls ++ [⟨s.file, o, x⟩]⟩)

/-- Before the first call. -/
def Download.start (file : FileBytes) : Download := ⟨{ data := file.bytes }, []⟩

/-- The bytes that a data socket accepts in a call. -/
def DataCall.accepted (c : DataCall) : List UInt8 :=
  match c.op with
  | .send _ buf => buf.take (c.outcome.room.getD 0)
  | _ => []

/-- The call sends the 226 reply. -/
def DataCall.finishes (c : DataCall) : Bool :=
  match c.op with
  | .sendReply _ text => text.take 3 = [50, 50, 54]
  | _ => false

/-- The call loses bytes of the file: `f_lseek` fails, `f_read` fails before the end of the file,
or `send` does not take its whole buffer. -/
def DataCall.loses (c : DataCall) : Bool :=
  match c.op with
  | .fLseek .file _ => c.outcome.disk.fails
  | .fRead .file _ => c.outcome.disk.fails ∧ c.file.rest ≠ []
  | .send _ buf => c.outcome.room.getD 0 < buf.length
  | _ => false

/-- If the 226 reply has been sent, the data socket has accepted the file from `offset` on. -/
def Delivered (offset : Nat) (file : FileBytes) (calls : List DataCall) : Prop :=
  (∃ c ∈ calls, c.finishes = true) →
    calls.flatMap DataCall.accepted = file.bytes.drop offset

/-- No call has lost bytes. From an offset at or behind the end of a file that is not empty,
nothing is to be sent, and no call has accepted a byte. -/
def Whole (offset : Nat) (file : FileBytes) (calls : List DataCall) : Prop :=
  if file.bytes ≠ [] ∧ file.bytes.length ≤ offset then ∀ c ∈ calls, c.accepted = []
  else ∀ c ∈ calls, c.loses = false

/-! ### The tally -/

/-- What of a download the 226 reply stands for: the file as it was left, what the data socket has
taken, whether a call has lost bytes, and whether the reply was sent. -/
structure Tally where
  file : OpenFile
  accepted : List UInt8 := []
  lost : Bool := false
  finished : Bool := false

/-- One call on the tally. -/
def Tally.call (x : CallOutcome) (o : FtpOp) (t : Tally) : o.Res × Tally :=
  ((x.answer o t.file).1,
    { file := (x.answer o t.file).2
      accepted := t.accepted ++ DataCall.accepted ⟨t.file, o, x⟩
      lost := t.lost || DataCall.loses ⟨t.file, o, x⟩
      finished := t.finished || DataCall.finishes ⟨t.file, o, x⟩ })

/-- The tally of a download. -/
def Download.tally (s : Download) : Tally where
  file := s.file
  accepted := s.calls.flatMap DataCall.accepted
  lost := s.calls.any DataCall.loses
  finished := s.calls.any DataCall.finishes

/-- The tally of a run is that of its calls. -/
theorem runWith_tally {α : Type} (p : Request α) (ω : Nat → CallOutcome) (s : Download) :
    p.runWith Tally.call ω s.tally =
      ((p.runWith Download.call ω s).1, (p.runWith Download.call ω s).2.tally) := by
  refine runWith_map (f := Download.tally) ?_ p ω s
  intro x o s
  simp only [Tally.call, Download.call, Download.tally, List.flatMap_append, List.any_append,
    List.flatMap_singleton, List.any_cons, List.any_nil, Bool.or_false]

/-- A part of a request ends with `Q`, from the tally `t`. -/
abbrev Tallies {α : Type} (p : Request α) (Q : α → Tally → Prop) (t : Tally) : Prop :=
  p.Always Tally.call (fun _ => True) Q t

section Rules
variable {β : Type} {Q : β → Tally → Prop} {t : Tally}

/-- A call is counted, and the rest is proved for every outcome of it. -/
theorem tallies_ask {o : FtpOp} {f : o.Res → Request β}
    (h : ∀ x, Tallies (f (Tally.call x o t).1) Q (Tally.call x o t).2) :
    Tallies (ask o >>= f) Q t := fun x _ => h x

/-- A part that returns leaves the tally as it is. -/
theorem tallies_ret {b : β} (h : Q b t) : Tallies (return b) Q t := h

/-- A call that does not count. -/
theorem tallies_quiet {o : FtpOp} {f : o.Res → Request β}
    (hquiet : ∀ x : CallOutcome, (x.answer o t.file).2 = t.file ∧
      DataCall.accepted ⟨t.file, o, x⟩ = [] ∧ DataCall.loses ⟨t.file, o, x⟩ = false ∧
      DataCall.finishes ⟨t.file, o, x⟩ = false)
    (h : ∀ x : CallOutcome, Tallies (f (x.answer o t.file).1) Q t) :
    Tallies (ask o >>= f) Q t := by
  refine tallies_ask fun x => ?_
  obtain ⟨hfile, haccepted, hloses, hfinishes⟩ := hquiet x
  have hcall : (Tally.call x o t).2 = t := by
    simp only [Tally.call, hfile, haccepted, hloses, hfinishes, List.append_nil, Bool.or_false]
  rw [hcall]
  exact h x

end Rules

/-- A read moves the file, and loses bytes iff it fails in front of the end. -/
theorem call_fRead (x : CallOutcome) (btr : Nat) (t : Tally) :
    Tally.call x (.fRead .file btr) t =
      (((t.file.read btr x.disk).1, (t.file.read btr x.disk).2.1),
        { t with
          file := (t.file.read btr x.disk).2.2
          lost := t.lost || decide (x.disk.fails ∧ t.file.rest ≠ []) }) := by
  simp only [Tally.call, CallOutcome.answer, DataCall.accepted, DataCall.loses, DataCall.finishes,
    List.append_nil, Bool.or_false]

/-- A `send` adds what the socket takes of its buffer, and loses bytes iff that is not all of it. -/
theorem call_send (x : CallOutcome) (fd : Int) (buf : List UInt8) (t : Tally) :
    Tally.call x (.send fd buf) t =
      (x.room.map (min buf.length),
        { t with
          accepted := t.accepted ++ buf.take (x.room.getD 0)
          lost := t.lost || decide (x.room.getD 0 < buf.length) }) := by
  simp only [Tally.call, CallOutcome.answer, DataCall.accepted, DataCall.loses, DataCall.finishes,
    Bool.or_false]

/-! ### The loop -/

/-- What a part of a download has done about the bytes `rest`: it has delivered them and lost
nothing, or it has lost something and delivered less. -/
structure Sends (rest : List UInt8) (t t' : Tally) : Prop where
  finished : t'.finished = t.finished
  sent : ∃ sent, t'.accepted = t.accepted ++ sent ∧
    (t'.lost = t.lost ∧ sent = rest ∨ t'.lost = true ∧ sent.length < rest.length)

/-- Behind a failed call the loop ends at once. -/
theorem retrLoop_err (conn : Conn) (turns : Nat) {t : Tally} (herr : t.file.err = true) :
    Tallies (retrLoop conn (turns + 1)) (fun r t' => r = true ∧ t'.finished = t.finished ∧
      t'.accepted = t.accepted ∧ (t.lost = true → t'.lost = true)) t := by
  refine tallies_ask fun x => ?_
  rw [call_fRead, OpenFile.read_err ftpBufferSize x.disk herr]
  refine ⟨rfl, rfl, rfl, fun hlost => ?_⟩
  show (t.lost || _) = true
  rw [hlost, Bool.true_or]

/-- A piece that was read without a failure, and what is sent of the bytes behind it. If the socket
has not taken the whole piece, the rest of the transfer cannot make up for it, since less than all
was taken at the end as well. -/
theorem Sends.cons {piece rest : List UInt8} {room : Nat} {t t₁ t' : Tally} (h : Sends rest t₁ t')
    (hfinished : t₁.finished = t.finished) (haccepted : t₁.accepted = t.accepted ++ piece.take room)
    (hlost : t₁.lost = (t.lost || decide (room < piece.length))) :
    Sends (piece ++ rest) t t' := by
  obtain ⟨sent, hsent, hcase⟩ := h.sent
  refine ⟨h.finished.trans hfinished, piece.take room ++ sent, ?_, ?_⟩
  · rw [hsent, haccepted, List.append_assoc]
  · by_cases hroom : room < piece.length
    · -- the socket has cut the piece, and the loop goes on with the next one
      have hlost₁ : t₁.lost = true := by rw [hlost, decide_eq_true hroom, Bool.or_true]
      have hlen : sent.length ≤ rest.length := by
        rcases hcase with ⟨-, rfl⟩ | ⟨-, hlt⟩ <;> omega
      have hlost' : t'.lost = true := by
        rcases hcase with ⟨h', -⟩ | ⟨h', -⟩
        · exact h'.trans hlost₁
        · exact h'
      refine .inr ⟨hlost', ?_⟩
      rw [List.length_append, List.length_append, List.length_take]
      omega
    · have hlost₁ : t₁.lost = t.lost := by rw [hlost, decide_eq_false hroom, Bool.or_false]
      rw [List.take_of_length_le (Nat.not_lt.1 hroom)]
      rcases hcase with ⟨h', rfl⟩ | ⟨h', hlt⟩
      · exact .inl ⟨h'.trans hlost₁, rfl⟩
      · refine .inr ⟨h', ?_⟩
        rw [List.length_append, List.length_append]
        omega

/-- The transfer loop, from any place in the file. It comes to its end, since each turn but the
last reads something. -/
theorem retrLoop_sends (conn : Conn) (turns : Nat) {t : Tally} (herr : t.file.err = false)
    (hturns : t.file.rest.length < turns) :
    Tallies (retrLoop conn turns) (fun r t' => r = true ∧ Sends t.file.rest t t') t := by
  induction turns generalizing t with
  | zero => omega
  | succ turns ih =>
    refine tallies_ask fun x => ?_
    rw [call_fRead]
    have hrest := t.file.read_rest ftpBufferSize x.disk
    have hlen := OpenFile.read_length ftpBufferSize x.disk herr
    have herr' := OpenFile.read_err_eq ftpBufferSize x.disk herr
    generalize t.file.read ftpBufferSize x.disk = r at hrest hlen herr' ⊢
    obtain ⟨rc, piece, file⟩ := r
    dsimp only at hrest hlen herr' ⊢
    by_cases hpiece : 0 < piece.length
    · rw [if_pos hpiece]
      refine tallies_ask fun y => ?_
      rw [call_send]
      have hshort : file.rest.length < turns := by
        rw [hrest, List.length_append] at hturns
        omega
      cases hfails : x.disk.fails with
      | false =>
        refine always_mono (fun r t' h => ⟨h.1, ?_⟩) (ih (herr'.trans hfails) hshort)
        rw [hrest]
        refine h.2.cons rfl rfl ?_
        simp
      | true =>
        -- the read has failed behind the piece, and the next one delivers nothing
        have hpos : 0 < min ftpBufferSize t.file.rest.length := by
          rw [hrest, List.length_append]
          exact Nat.lt_min.2 ⟨by decide, by omega⟩
        have hless : piece.length < t.file.rest.length := by
          rw [hlen]
          exact (OpenFile.count_lt hfails hpos).trans_le (Nat.min_le_right _ _)
        obtain ⟨turns, rfl⟩ : ∃ n, turns = n + 1 := ⟨turns - 1, by omega⟩
        refine always_mono ?_ (retrLoop_err conn turns (herr'.trans hfails))
        rintro r t' ⟨hr, hfinished, haccepted, hlost⟩
        refine ⟨hr, hfinished, piece.take (y.room.getD 0), haccepted, .inr ⟨hlost ?_, ?_⟩⟩
        · have hleft : t.file.rest ≠ [] := List.ne_nil_of_length_pos (by omega)
          simp [hleft]
        · exact (List.length_take_le' _ _).trans_lt hless
    · rw [if_neg hpiece]
      have hnone : piece = [] := List.eq_nil_of_length_eq_zero (by omega)
      subst hnone
      refine ⟨rfl, rfl, [], (List.append_nil _).symm, ?_⟩
      by_cases hempty : t.file.rest = []
      · exact .inl ⟨by simp [hempty], hempty.symm⟩
      · have hpos : 0 < t.file.rest.length := List.length_pos_of_ne_nil hempty
        have hfails : x.disk.fails = true := by
          by_contra hok
          have hcount := OpenFile.count_pos (Bool.not_eq_true _ ▸ hok)
            (Nat.lt_min.2 ⟨by decide, hpos⟩ : 0 < min ftpBufferSize t.file.rest.length)
          rw [← hlen] at hcount
          exact Nat.lt_irrefl 0 hcount
        exact .inr ⟨by simp [hfails, hempty], hpos⟩

/-! ### The command -/

/-- The reply to a path that is no regular file has the code 550. -/
theorem notRegular_code (path : List UInt8) : (notRegular path).take 3 = [53, 53, 48] := by
  unfold notRegular
  rw [List.append_assoc, List.take_append_of_le_length (by decide)]
  decide

/-- The reply that announces a transfer has the code 150. -/
theorem retrOpening_code (offset : Nat) (numBytes : Int) (path : List UInt8) :
    (retrOpening offset numBytes path).take 3 = [49, 53, 48] := by
  have hkind := (coded_retrOpening offset numBytes path).kind_eq
  unfold replyKind at hkind
  split_ifs at hkind with h
  exact h

/-- What a `RETR` that starts at `start` leaves: it has not come to its transfer, or it has sent
the 226 reply behind the transfer. -/
structure Ended (start : Nat) (file : FileBytes) (t : Tally) : Prop where
  early : t.finished = false → t.lost = false ∧ t.accepted = []
  late : t.finished = true →
    t.lost = false ∧ t.accepted = file.bytes.drop start ∨
      t.lost = true ∧ t.accepted.length < (file.bytes.drop start).length

/-- The tally of a file that has just been opened. -/
def Tally.opened (file : FileBytes) : Tally := { file := { data := file.bytes } }

/-- A reply is counted if it is the 226 reply, and moves nothing. -/
theorem call_sendReply (x : CallOutcome) (sock : Int) (text : List UInt8) (t : Tally) :
    (Tally.call x (.sendReply sock text) t).2 =
      { t with finished := t.finished || decide (text.take 3 = [50, 50, 54]) } := by
  simp only [Tally.call, CallOutcome.answer, DataCall.accepted, DataCall.loses, DataCall.finishes,
    List.append_nil, Bool.or_false]

/-- A seek moves the file, and loses bytes if it fails. -/
theorem call_fLseek (x : CallOutcome) (ofs : Nat) (t : Tally) :
    (Tally.call x (.fLseek .file ofs) t).2 =
      { t with file := (t.file.lseek ofs x.disk).2, lost := t.lost || x.disk.fails } := by
  simp only [Tally.call, CallOutcome.answer, DataCall.accepted, DataCall.loses, DataCall.finishes,
    List.append_nil, Bool.or_false]

/-- A reply with another code does not count. -/
theorem tallies_reply {β : Type} {Q : β → Tally → Prop} {t : Tally} {conn : Conn}
    {text : List UInt8} {f : Unit → Request β} (hcode : text.take 3 ≠ [50, 50, 54])
    (h : Tallies (f ()) Q t) : Tallies (reply conn text >>= f) Q t :=
  tallies_quiet (fun _ => ⟨rfl, rfl, rfl, decide_eq_false hcode⟩) fun _ => h

/-- Behind the loop the 226 reply is sent whatever has happened. -/
theorem retrEnd_tallies (conn : Conn) (t : Tally) :
    Tallies (retrEnd conn) (fun _ t' => t' = { t with finished := true }) t := by
  refine tallies_ask fun x => ?_
  have hcode : (textBytes "226 Finished.\r\n").take 3 = [50, 50, 54] := by decide
  rw [call_sendReply, decide_eq_true hcode, Bool.or_true]
  refine tallies_quiet (fun _ => ⟨rfl, rfl, rfl, rfl⟩) fun _ => ?_
  exact tallies_quiet (fun _ => ⟨rfl, rfl, rfl, rfl⟩) fun _ => rfl

section Transfer
variable {file : FileBytes} {start turns : Nat} {t : Tally}

/-- The parts of the transfer around its loop. -/
theorem retrSend_tallies {P : Tally → Prop} (conn : Conn) (path : List UInt8) (numBytes : Int)
    (hloop : Tallies (retrLoop conn turns) (fun r t' => r = true ∧ P t') t)
    (hended : ∀ t', P t' → Ended start file { t' with finished := true }) :
    Tallies (retrSend turns conn path numBytes) (fun _ => Ended start file) t := by
  have hcode : (retrOpening conn.offset numBytes path).take 3 ≠ [50, 50, 54] := by
    rw [retrOpening_code]
    decide
  refine tallies_reply hcode (always_seq hloop ?_)
  intro r t' h
  rw [h.1]
  refine always_seq (retrEnd_tallies conn t') fun _ t'' ht => ?_
  rw [ht]
  exact tallies_ret (hended t' h.2)

/-- The transfer from an open file at `start`. The tally of the loop is that of the whole transfer,
with the reply 226 behind it. -/
theorem retrSend_ended (conn : Conn) (path : List UInt8) (numBytes : Int)
    (hturns : file.bytes.length < turns) (herr : t.file.err = false)
    (hrest : t.file.rest = file.bytes.drop start) (haccepted : t.accepted = [])
    (hlost : t.lost = false) :
    Tallies (retrSend turns conn path numBytes) (fun _ => Ended start file) t := by
  have hshort : t.file.rest.length < turns := by
    rw [hrest, List.length_drop]
    omega
  refine retrSend_tallies conn path numBytes (retrLoop_sends conn turns herr hshort) ?_
  intro t' hsends
  obtain ⟨sent, hsent, hcase⟩ := hsends.sent
  refine ⟨fun h => Bool.noConfusion h, fun _ => ?_⟩
  show t'.lost = false ∧ t'.accepted = _ ∨ t'.lost = true ∧ t'.accepted.length < _
  rw [hsent, haccepted, List.nil_append, ← hrest]
  -- the socket took all of the rest, or lost some of it
  rcases hcase with ⟨h, hall⟩ | h
  · exact .inl ⟨h.trans hlost, hall⟩
  · exact .inr h

/-- The transfer from a file where `f_lseek` has failed. -/
theorem retrSend_unplaced (conn : Conn) (path : List UInt8) (numBytes : Int)
    (hturns : file.bytes.length < turns) (hstart : start < file.bytes.length)
    (herr : t.file.err = true) (haccepted : t.accepted = []) (hlost : t.lost = true) :
    Tallies (retrSend turns conn path numBytes) (fun _ => Ended start file) t := by
  obtain ⟨turns, rfl⟩ : ∃ n, turns = n + 1 := ⟨turns - 1, by omega⟩
  refine retrSend_tallies conn path numBytes (retrLoop_err conn turns herr) ?_
  rintro t' ⟨-, haccepted', hlost'⟩
  refine ⟨fun h => Bool.noConfusion h, fun _ => .inr ⟨hlost' hlost, ?_⟩⟩
  show t'.accepted.length < _
  rw [haccepted', haccepted, List.length_drop]
  exact Nat.sub_pos_of_lt hstart

end Transfer

/-- Where the code starts: at the offset if it lies inside the file, else at the first byte. -/
def startAt (offset : Nat) (file : FileBytes) : Nat :=
  if offset < file.bytes.length then offset else 0

/-- The transfer seeks, if the offset is inside the file, and then sends from there on. A seek that
fails leaves the pointer at the first byte, and the loop runs all the same; that is a loss in the
tally. -/
theorem retrTransfer_ended (turns : Nat) (conn : Conn) (path : List UInt8) (file : FileBytes)
    (hturns : file.bytes.length < turns) :
    Tallies (retrTransfer turns conn path (toInt32 file.bytes.length))
      (fun _ => Ended (startAt conn.offset file) file) (.opened file) := by
  have hseeks := seeks_iff conn.offset file.bytes.length
  rw [Nat.mod_eq_of_lt file.length_lt] at hseeks
  unfold retrTransfer startAt
  split_ifs with h hinside hinside
  · refine tallies_ask fun x => ?_
    rw [call_fLseek]
    -- a seek that fails leaves the pointer at the start and the object in error
    cases hfails : x.disk.fails with
    | true =>
      have hseek : (OpenFile.lseek { data := file.bytes } conn.offset x.disk).2.err = true := by
        simp [OpenFile.lseek, hfails]
      exact retrSend_unplaced conn path _ hturns hinside hseek rfl rfl
    | false =>
      have hseek : (OpenFile.lseek { data := file.bytes } conn.offset x.disk).2 =
          { data := file.bytes, fptr := conn.offset } := by
        simp [OpenFile.lseek, hfails, Nat.min_eq_left hinside.le]
      refine retrSend_ended conn path _ hturns ?_ ?_ rfl rfl
      · show (OpenFile.lseek { data := file.bytes } conn.offset x.disk).2.err = false
        rw [hseek]
      · show (OpenFile.lseek { data := file.bytes } conn.offset x.disk).2.rest = _
        rw [hseek]
        rfl
  · exact absurd (hseeks.1 h).2 hinside
  -- no seek at all: the offset is 0, and the start is where it should be
  · have hzero : conn.offset = 0 := by
      by_contra hne
      exact h (hseeks.2 ⟨Nat.pos_of_ne_zero hne, hinside⟩)
    rw [hzero]
    exact retrSend_ended conn path _ hturns rfl rfl rfl rfl
  · exact retrSend_ended conn path _ hturns rfl rfl rfl rfl

/-- Without a transfer there is no 226 reply. -/
theorem ended_early (start : Nat) (file : FileBytes) : Ended start file (.opened file) :=
  ⟨fun _ => ⟨rfl, rfl⟩, fun h => Bool.noConfusion h⟩

/-- `do_get_filesize` returns the size of the file or -1. What it opens and closes is another file
object, so the tally is as before. -/
theorem doGetFilesize_tallies (filename : Path) (file : FileBytes) :
    Tallies (doGetFilesize filename)
      (fun r t' => (r = -1 ∨ r = toInt32 file.bytes.length) ∧ t' = .opened file)
      (.opened file) := by
  refine tallies_quiet (fun _ => ⟨rfl, rfl, rfl, rfl⟩) fun x => ?_
  split_ifs
  · refine tallies_quiet (fun _ => ⟨rfl, rfl, rfl, rfl⟩) fun _ => ?_
    exact tallies_quiet (fun _ => ⟨rfl, rfl, rfl, rfl⟩) fun _ => ⟨.inr rfl, rfl⟩
  · exact ⟨.inl rfl, rfl⟩

/-- `RETR` has not come to its transfer, or has made it. Each of its branches in front of the
transfer sends a reply other than 226, or none. -/
theorem cmdRetr_ended (turns : Nat) (conn : Conn) (parameter : List UInt8) (file : FileBytes)
    (hturns : file.bytes.length < turns) :
    Tallies (cmdRetr turns conn parameter) (fun _ => Ended (startAt conn.offset file) file)
      (.opened file) := by
  refine always_seq (doGetFilesize_tallies _ file) fun numBytes t' h => ?_
  obtain ⟨hsize, rfl⟩ := h
  unfold retrOpen
  split_ifs with hnone
  · refine tallies_reply ?_ (tallies_ret (ended_early _ file))
    rw [notRegular_code]
    decide
  · rw [hsize.resolve_left hnone]
    -- the open file is the one that the tally began with
    refine tallies_quiet (fun _ => ⟨rfl, rfl, rfl, rfl⟩) fun x => ?_
    split_ifs
    · exact tallies_ret (ended_early _ file)
    · exact retrTransfer_ended turns (fullPath conn parameter).2 _ file hturns

/-- What holds behind a command holds behind its request. -/
theorem doneIf_tallies {p : Request (Option Conn)} {P : Tally → Prop} {t : Tally}
    (h : Tallies p (fun _ => P) t) : Tallies (doneIf p) (fun _ => P) t :=
  always_seq h fun _ _ hP => hP

/-- A request with a `RETR` line. -/
theorem ftpProcessRequest_ended (x : Surroundings) (conn : Conn) (buf : List UInt8)
    (file : FileBytes) (hcmd : doParseCommand (requestLine buf) = .retr)
    (hturns : file.bytes.length < x.turns) :
    Tallies (ftpProcessRequest x conn buf) (fun _ => Ended (startAt conn.offset file) file)
      (.opened file) := by
  refine tallies_quiet (fun _ => ⟨rfl, rfl, rfl, rfl⟩) fun y => ?_
  split_ifs
  · unfold execute
    rw [hcmd]
    exact doneIf_tallies (cmdRetr_ended x.turns conn _ file hturns)
  · exact tallies_ret (ended_early _ file)

/-! ### What the 226 reply means -/

/-- Exactly when the 226 reply means that the file has been delivered. A transfer without a loss has
delivered the file from where it started, which is the offset or the first byte. One with a loss has
delivered less than the rest of the file, whatever the offset was. -/
theorem Ended.accepted_iff {offset : Nat} {file : FileBytes} {t : Tally}
    (h : Ended (startAt offset file) file t) :
    (t.finished = true → t.accepted = file.bytes.drop offset) ↔
      if file.bytes ≠ [] ∧ file.bytes.length ≤ offset then t.accepted = [] else t.lost = false := by
  unfold startAt at h
  split_ifs with hfar
  · -- nothing is to be sent, and the code starts with the first byte
    have hwanted : file.bytes.drop offset = [] := List.drop_eq_nil_of_le hfar.2
    rw [hwanted]
    constructor
    · intro hall
      cases hfinished : t.finished with
      | false => exact (h.early hfinished).2
      | true => exact hall hfinished
    · exact fun hnone _ => hnone
  · have hstart : file.bytes.drop (if offset < file.bytes.length then offset else 0) =
        file.bytes.drop offset := by
      split_ifs with hinside
      · rfl
      · have hempty : file.bytes = [] := by
          by_contra hne
          exact hfar ⟨hne, Nat.not_lt.1 hinside⟩
        rw [hempty, List.drop_nil, List.drop_nil]
    have hlate := h.late
    rw [hstart] at hlate
    constructor
    · intro hall
      cases hfinished : t.finished with
      | false => exact (h.early hfinished).1
      | true =>
        rcases hlate hfinished with ⟨hlost, -⟩ | ⟨-, hless⟩
        · exact hlost
        · rw [hall hfinished] at hless
          exact absurd hless (Nat.lt_irrefl _)
    · intro hlost hfinished
      rcases hlate hfinished with ⟨-, hall⟩ | ⟨hlost', -⟩
      · exact hall
      · rw [hlost] at hlost'
        exact Bool.noConfusion hlost'

/-- A `RETR` that replies 226 has delivered the file from the offset on iff no call has lost a byte
of it. The file, the offset and the outcomes of all calls are any ones. Behind the loop the reply is
226 in every case, since nothing that the loop has met is kept for it. -/
theorem download_delivered_iff (x : Surroundings) (conn : Conn) (buf : List UInt8)
    (file : FileBytes) (ω : Nat → CallOutcome) (hcmd : doParseCommand (requestLine buf) = .retr)
    (hturns : file.bytes.length < x.turns) :
    let calls := ((ftpProcessRequest x conn buf).runWith Download.call ω (.start file)).2.calls
    Delivered conn.offset file calls ↔ Whole conn.offset file calls := by
  intro calls
  -- the invariant of the transfer, at its end
  have hended := always_runWith (ftpProcessRequest_ended x conn buf file hcmd hturns) (ω := ω)
    fun _ => trivial
  rw [show Tally.opened file = (Download.start file).tally from rfl, runWith_tally] at hended
  have hiff := hended.accepted_iff
  -- the tally holds what the calls say
  have hfinished : (calls.any DataCall.finishes = true) ↔ ∃ c ∈ calls, c.finishes = true :=
    List.any_eq_true
  have haccepted : calls.flatMap DataCall.accepted = [] ↔ ∀ c ∈ calls, c.accepted = [] :=
    List.flatMap_eq_nil_iff
  have hlost : calls.any DataCall.loses = false ↔ ∀ c ∈ calls, c.loses = false := by
    simp only [List.any_eq_false, Bool.not_eq_true]
  rw [Delivered, Whole, ← hfinished, ← haccepted, ← hlost]
  exact hiff

/-- Three bytes. -/
def threeBytes : FileBytes := ⟨[7, 8, 9], by decide⟩

/-- A download of three bytes from the second one, where every call succeeds. -/
theorem delivered_from_second :
    Delivered 1 threeBytes ((ftpProcessRequest ⟨[], 0, 9⟩ { client with offset := 1 }
      (textBytes "RETR a\r\n")).runWith Download.call
        (fun _ => ⟨succeeding, .full, some 4096⟩) (.start threeBytes)).2.calls := by
  refine (download_delivered_iff ⟨[], 0, 9⟩ { client with offset := 1 } (textBytes "RETR a\r\n")
    threeBytes (fun _ => ⟨succeeding, .full, some 4096⟩) (by decide) (by decide)).2 ?_
  show ite (_ ∧ _) _ _
  decide

/-- The client has closed the data connection, every `send` fails, and the reply is 226. -/
theorem not_delivered_closed :
    let calls := ((ftpProcessRequest ⟨[], 0, 9⟩ client (textBytes "RETR a\r\n")).runWith
      Download.call (fun _ => ⟨succeeding, .full, none⟩) (.start threeBytes)).2.calls
    (∃ c ∈ calls, c.finishes = true) ∧ calls.flatMap DataCall.accepted = [] ∧
      ¬ Delivered 0 threeBytes calls := by
  refine ⟨by decide, by decide, fun h => ?_⟩
  exact absurd (h (by decide)) (by decide)

end NucleoH743.Ftp.Program
