import NucleoH743.Proofs.FatFs.Calls
import NucleoH743.Proofs.Ftp.Requests
import Mathlib.Data.List.Basic
import Mathlib.Data.List.Infix

/-!
# `Proofs.Ftp.Transfer`: the bytes of `RETR`

What a `RETR` sends on the data socket between its two replies.

What counts as delivered is read off the calls of `send` alone: the first and the last of them are
the replies, and those between are on the data socket. `Delivers` determines the bytes, so two
statements on one transfer can be compared.

The loop reads a buffer and sends what it has read. Its turns are counted, and one more turn than
the file has bytes is enough, as each turn but the last moves the file pointer. Every `f_read` and
`send` succeeds here; what a failure does to a download is the subject of `Proofs.Ftp.Download`.

- `retrLoop_sends`: the transfer loop sends the rest of the file behind the file pointer.
- `cmdRetr_delivers`: a `RETR` that opens its file delivers the file from the offset of the
  session on if the offset lies inside the file, and the whole file otherwise.
-/

set_option autoImplicit false

namespace NucleoH743.Ftp

open NucleoH743.FatFs
open CStr (textBytes textBytes_ne_nil)

/-- The calls of `send`, each with its descriptor, its buffer and its size. -/
def sends (es : List Effect) : List (Int × List UInt8 × Nat) :=
  es.filterMap fun
    | .send fd buf size => some (fd, buf, size)
    | _ => none

/-- Between the first and the last call of `send`, exactly `bytes` go out on `fd`. -/
def Delivers (fd : Int) (es : List Effect) (bytes : List UInt8) : Prop :=
  ∃ chunks : List (List UInt8),
    (sends es).tail.dropLast = chunks.map (fun c => (fd, c, c.length)) ∧ chunks.flatten = bytes

/-- What is delivered is determined by the effects. -/
theorem Delivers.unique {fd : Int} {es : List Effect} {a b : List UInt8} (ha : Delivers fd es a)
    (hb : Delivers fd es b) : a = b := by
  obtain ⟨cs, hcs, rfl⟩ := ha
  obtain ⟨ds, hds, rfl⟩ := hb
  have hinj : Function.Injective fun c : List UInt8 => (fd, c, c.length) :=
    fun c d h => (Prod.mk.inj (Prod.mk.inj h).2).1
  have hsame : cs = ds := List.map_injective_iff.2 hinj (hcs.symm.trans hds)
  rw [hsame]

/-- The `send` calls of a run are found part by part. -/
theorem sends_append (es es' : List Effect) : sends (es ++ es') = sends es ++ sends es' :=
  List.filterMap_append

/-- One `send` for each chunk, with its length. -/
theorem sends_map (fd : Int) (chunks : List (List UInt8)) :
    sends (chunks.map fun c => .send fd c c.length) =
      chunks.map fun c => (fd, c, c.length) := by
  induction chunks with
  | nil => rfl
  | cons c cs ih => exact congrArg (_ :: ·) ih

/-! ### `RETR` -/

section Retr
variable (o : Outcome) (q : Req) (p : Option (List UInt8))

/-- The transfer loop sends what is left of the file. The induction is on the turns; each one
but the last moves the file pointer by at least one byte. -/
theorem retrLoop_sends {turns : Nat} {file : Fil} (hv : file.valid q.vol = true)
    (hr : file.faRead = true) (hturns : file.data.length - file.fptr < turns) :
    ∃ chunks : List (List UInt8), (retrLoop turns q file).1 =
        { q with out := q.out ++ chunks.map fun c => .send q.conn.pasvSockfd c c.length } ∧
      chunks.flatten = file.data.drop file.fptr := by
  induction turns generalizing q file with
  | zero => omega
  | succ turns ih =>
    have hread := fRead_eq hv hr ftpBufferSize
    dsimp only [retrLoop]
    rw [hread]
    dsimp only
    generalize hbytes : (file.data.drop file.fptr).take ftpBufferSize = bytes
    have hlen : bytes.length = min ftpBufferSize (file.data.length - file.fptr) := by
      rw [← hbytes, List.length_take, List.length_drop]
    -- the loop sends a buffer and goes on behind it, or ends with the file
    by_cases hpos : 0 < bytes.length
    · rw [if_pos hpos]
      have hless : file.data.length - (file.fptr + bytes.length) < turns := by omega
      have hv' : ({ file with fptr := file.fptr + bytes.length } : Fil).valid q.vol = true := hv
      obtain ⟨chunks, hloop, hflat⟩ :=
        ih (q.emit (.send q.conn.pasvSockfd bytes bytes.length)) hv' hr hless
      refine ⟨bytes :: chunks, ?_, ?_⟩
      · rw [hloop]
        simp [Req.emit]
      · have hfront : bytes <+: file.data.drop file.fptr := hbytes ▸ List.take_prefix _ _
        rw [List.flatten_cons, hflat, ← List.drop_drop]
        exact (List.prefix_append_drop hfront).symm
    · rw [if_neg hpos]
      have hend : file.data.length - file.fptr = 0 := by
        have : 0 < ftpBufferSize := by decide
        omega
      refine ⟨[], by simp, ?_⟩
      rw [List.drop_eq_nil_of_le (by omega)]
      rfl

/-- What `do_get_filesize` finds. A result other than -1 comes from an open that succeeded. The size
goes through an `int`, and the entries stay. -/
theorem doGetFilesize_spec {v : Volume} {path : List UInt8}
    (h : (doGetFilesize v path).1 ≠ -1) :
    ∃ data, fileContent v path = some data ∧ (doGetFilesize v path).1 = toInt32 data.length ∧
      (doGetFilesize v path).2.nodes = v.nodes ∧ (doGetFilesize v path).2.follow = v.follow := by
  generalize heq : fOpen v Fil.null path { faRead := true } false = r at h
  obtain ⟨rc, file, v'⟩ := r
  simp only [doGetFilesize, heq] at h ⊢
  by_cases hok : rc = .ok
  · subst hok
    have hopen := fOpen_spec heq
    have hdata := hopen.fileContent_eq rfl
    -- the object was opened for reading, so closing it writes no entry
    have hunchanged : file.faModified = false := by
      rw [(fOpen_data heq rfl).2, hopen.existed rfl]
      rfl
    refine ⟨file.data, hdata, by rw [if_pos rfl], ?_, ?_⟩
    · rw [if_pos rfl]
      dsimp only
      rw [fClose_nodes hopen.valid, hunchanged, if_neg (by simp)]
      exact hopen.nodes_eq rfl
    · rw [if_pos rfl]
      exact (fClose_follow file).trans hopen.follow
  · rw [if_neg hok] at h
    exact absurd rfl h

/-- A reply is one `send` on the control socket. Of its text at most 255 bytes are there. -/
theorem reply_out {text : List UInt8} (h : text ≠ []) :
    (q.reply text).out = q.out ++ [.send q.conn.sockfd (text.take 255) text.length] := by
  unfold Req.reply doSendReply
  rw [if_neg h]
  rfl

/-- The reply that announces a transfer is not empty. -/
theorem retrOpening_ne_nil (offset : Nat) (numBytes : Int) (path : List UInt8) :
    retrOpening offset numBytes path ≠ [] := by
  unfold retrOpening
  split
  · simp [textBytes_ne_nil]
  · simp [textBytes_ne_nil]

/-- Seeking behind the end is seeking to the end. -/
theorem drop_min_length {α : Type} (l : List α) (n : Nat) : l.drop (min n l.length) = l.drop n := by
  rcases Nat.le_total n l.length with hle | hle
  · rw [Nat.min_eq_left hle]
  · rw [Nat.min_eq_right hle, List.drop_eq_nil_of_le hle, List.drop_length]

/-- The transfer behind the open sends the file from the offset on. The seek is made only where
the offset lies inside the file. Its calls of `send` are those of the loop, in front of the reply
226. -/
theorem retrTransfer_delivers (path : List UInt8) (numBytes : Int) {file : Fil}
    (hv : file.valid q.vol = true) (hr : file.faRead = true) (hstart : file.fptr = 0) :
    ∃ es, (retrTransfer q path numBytes file).out = q.out ++ es ∧
      Delivers q.conn.pasvSockfd es
        (if seeks q.conn.offset numBytes then file.data.drop q.conn.offset else file.data) := by
  dsimp only [retrTransfer]
  generalize hfile : (if seeks q.conn.offset numBytes then
    (fLseek q.vol file q.conn.offset).2 else file) = file'
  obtain ⟨hv', hr', hrest⟩ : file'.valid q.vol = true ∧ file'.faRead = true ∧
      file'.data.drop file'.fptr =
        if seeks q.conn.offset numBytes then file.data.drop q.conn.offset else file.data := by
    rw [← hfile]
    split
    · unfold fLseek
      rw [if_pos hv]
      exact ⟨hv, hr, drop_min_length _ _⟩
    · rw [hstart]
      exact ⟨hv, hr, rfl⟩
  have hvol := reply_vol q (retrOpening q.conn.offset numBytes path)
  have hconn := reply_conn q (retrOpening q.conn.offset numBytes path)
  have hout := reply_out q (retrOpening_ne_nil q.conn.offset numBytes path)
  generalize q.reply (retrOpening q.conn.offset numBytes path) = q₁ at hvol hconn hout ⊢
  obtain ⟨chunks, hloop, hflat⟩ :=
    retrLoop_sends q₁ (hvol.symm ▸ hv') hr' (show _ < file'.data.length + 1 by omega)
  rw [hloop]
  generalize hfin : textBytes "226 Finished.\r\n" = fin
  have hne : fin ≠ [] := hfin ▸ textBytes_ne_nil (by simp)
  refine ⟨.send q.conn.sockfd ((retrOpening q.conn.offset numBytes path).take 255)
    (retrOpening q.conn.offset numBytes path).length ::
      (chunks.map fun c => .send q.conn.pasvSockfd c c.length) ++
      [.send q.conn.sockfd (fin.take 255) fin.length, .close q.conn.pasvSockfd], ?_, chunks, ?_, ?_⟩
  · show (Req.reply _ fin).out ++ _ = _
    rw [reply_out _ hne]
    simp [hout, hconn]
  · rw [sends_append]
    show (_ :: sends _ ++ [_]).tail.dropLast = _
    rw [sends_map]
    simp
  · rw [hflat, hrest]

/-- Making the path of a parameter sends nothing. -/
theorem paramPath_out :
    ∃ pre, (q.paramPath o p).2.out = q.out ++ pre ∧ sends pre = [] := by
  cases p with
  | none => exact ⟨[.nullPtr, .spareBuf _], List.append_assoc q.out [_] [_], rfl⟩
  | some s => exact ⟨[.spareBuf _], rfl, rfl⟩

/-- The path of a command leaves the sockets and the offset of the connection alone. -/
theorem paramPath_conn : (q.paramPath o p).2.conn.sockfd = q.conn.sockfd ∧
    (q.paramPath o p).2.conn.pasvSockfd = q.conn.pasvSockfd ∧
    (q.paramPath o p).2.conn.offset = q.conn.offset := by
  cases p <;> exact ⟨rfl, rfl, rfl⟩

/-- Before the transfer, `RETR` sends nothing. -/
theorem path_out (line : List UInt8) :
    ∃ pre, ((copyLine o q line).paramPath o p).2.out = q.out ++ pre ∧ sends pre = [] := by
  have hcopy : ∃ pre, (copyLine o q line).out = q.out ++ pre ∧ sends pre = [] := by
    unfold copyLine
    split
    · exact ⟨[.pastEnd, .spareBuf o.stray], by simp [Req.spare, Req.emit], rfl⟩
    · exact ⟨[.spareBuf (line.drop 5)], rfl, rfl⟩
  obtain ⟨pre, hpre, hnone⟩ := hcopy
  obtain ⟨pre', hpre', hnone'⟩ := paramPath_out o (copyLine o q line) p
  refine ⟨pre ++ pre', by rw [hpre', hpre, List.append_assoc], ?_⟩
  rw [sends_append, hnone, hnone']
  rfl

/-- A `RETR` that opens its file sends it from the offset of the session on. In front of the
transfer only the 150 reply is sent, on the control socket. -/
theorem cmdRetr_delivers (line : List UInt8)
    (h : CanSend q.vol (paramPath o q.conn.currentdir p)) :
    ∃ es data, (cmdRetr o q p line).out = q.out ++ es ∧
      fileContent q.vol (paramPath o q.conn.currentdir p) = some data ∧
      Delivers q.conn.pasvSockfd es
        (if seeks q.conn.offset (toInt32 data.length) then data.drop q.conn.offset else data) := by
  obtain ⟨data, hdata, hsize, hnodes, hfollow⟩ := doGetFilesize_spec h.1
  obtain ⟨pre, hpre, hnone⟩ := path_out o q p line
  obtain ⟨-, hpasv, hoffset⟩ := paramPath_conn o (copyLine o q line) p
  rw [copyLine_conn] at hpasv hoffset
  dsimp only [cmdRetr]
  rw [paramPath_fst, paramPath_vol, copyLine_vol, copyLine_conn, if_neg h.1,
    if_neg (not_not_intro h.2)]
  generalize heq : fOpen _ Fil.null (paramPath o q.conn.currentdir p) { faRead := true } false = r
  obtain ⟨rc, file, v'⟩ := r
  have hrc : rc = .ok := (congrArg Prod.fst heq).symm.trans h.2
  subst hrc
  have hopen := fOpen_spec heq
  have hsame : file.data = data := by
    have hfile := hopen.fileContent_eq rfl
    simp only [fileContent, hnodes, hfollow] at hfile hdata
    exact Option.some.inj (hfile.symm.trans hdata)
  generalize hq₁ : ({ ((copyLine o q line).paramPath o p).2 with vol := v' } : Req) = q₁
  have hq₁' : q₁.vol = v' ∧ q₁.out = q.out ++ pre ∧ q₁.conn.pasvSockfd = q.conn.pasvSockfd ∧
      q₁.conn.offset = q.conn.offset := by
    rw [← hq₁]
    exact ⟨rfl, hpre, hpasv, hoffset⟩
  obtain ⟨hvol, hout, hfd, hoff⟩ := hq₁'
  obtain ⟨es, hes, hdeliver⟩ := retrTransfer_delivers q₁ (paramPath o q.conn.currentdir p)
    (doGetFilesize q.vol (paramPath o q.conn.currentdir p)).1 (hvol.symm ▸ hopen.valid)
    hopen.faRead hopen.fptr
  refine ⟨pre ++ es, data, ?_, hdata, ?_⟩
  · rw [hout, List.append_assoc] at hes
    subst hq₁
    exact hes
  · unfold Delivers at hdeliver ⊢
    rw [sends_append, hnone, ← hfd, ← hoff, ← hsize, ← hsame]
    exact hdeliver

end Retr

end NucleoH743.Ftp
