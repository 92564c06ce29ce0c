import NucleoH743.Proofs.FatFs.Locks
import NucleoH743.Proofs.Ftp.Service
import NucleoH743.Proofs.Ftp.Transfer

/-!
# `Proofs.Ftp.Upload`: what `STOR` stores

`STOR` opens its file with `FA_OPEN_ALWAYS`, which keeps the old bytes of the file, and ignores
how many bytes `f_write` took. `received` are the bytes of the data connection and `stored`
those that the disk had room for. The file ends up as `stored`, followed by the rest of the old
file behind them.

The write loop is described by the file object (`Writing`): what it holds, where its pointer stands,
and that the directory entry has the same bytes unless the object was changed. Each chunk goes over
the bytes behind the pointer, as many of them as the disk has room for, and the pointer moves behind
what was stored. So a short write shifts what comes after it, and the stored bytes are not a prefix
of the received ones.

By the close the directory entry takes over the bytes of the object. Its length is the larger of the
old length and what was written, since `FA_OPEN_ALWAYS` cuts nothing off. That the file is what was
received is then a fact about lists (`overwrite_eq_iff`), and for the way back `RETR` has to find
the file with a size that it accepts.

- `cmdStor_content`: the file after a `STOR` that replies 226.
- `stor_roundTrips_iff`: exactly when the file is what was received, and the next `RETR` sends
  it back.
-/

set_option autoImplicit false

namespace NucleoH743.Ftp

open NucleoH743.FatFs
open CStr (textBytes textBytes_ne_nil)

/-! ### The received data -/

/-- The bytes that arrive before the data ends, fails or stops. -/
def received : List DataIn → List UInt8
  | [] => []
  | d :: ds =>
    match d.recv with
    | some (b :: bs) => b :: bs ++ received ds
    | _ => []

/-- Those of them that `f_write` stores. -/
def stored : List DataIn → List UInt8
  | [] => []
  | d :: ds =>
    match d.recv with
    | some (b :: bs) => (b :: bs).take d.room ++ stored ds
    | _ => []

/-- The client closes the data connection in the end. -/
def endsWell : List DataIn → Bool
  | [] => false
  | d :: ds =>
    match d.recv with
    | some (_ :: _) => endsWell ds
    | some [] => true
    | none => false

/-- The disk has no room for a whole chunk. -/
def writesShort : List DataIn → Bool
  | [] => false
  | d :: ds =>
    match d.recv with
    | some (b :: bs) => d.room < (b :: bs).length || writesShort ds
    | _ => false

/-- Without short writes everything is stored. -/
theorem stored_eq_received {ds : List DataIn} (h : writesShort ds = false) :
    stored ds = received ds := by
  induction ds with
  | nil => rfl
  | cons d ds ih =>
    obtain ⟨recv, room⟩ := d
    obtain _ | _ | ⟨b, bs⟩ := recv
    · rfl
    · rfl
    · obtain ⟨hroom, hrest⟩ : (b :: bs).length ≤ room ∧ writesShort ds = false := by
        simpa [writesShort] using h
      show (b :: bs).take room ++ stored ds = b :: bs ++ received ds
      rw [List.take_of_length_le hroom, ih hrest]

/-- The bytes of a file after `new` was written over its start. -/
def overwrite (old new : List UInt8) : List UInt8 := new ++ old.drop new.length

/-! ### The loop -/

/-- A file that is open for writing in a mounted volume, and in its directory entry unless it
was changed. -/
structure Writing (v : Volume) (file : Fil) : Prop where
  valid : file.valid v = true
  faWrite : file.faWrite = true
  fptr : file.fptr ≤ file.data.length
  synced : file.faModified = true ∨ v.nodes file.entry = some (.file file.data)

/-- What `STOR` writes over the file behind the file pointer. -/
def written (file : Fil) (ds : List DataIn) : List UInt8 :=
  file.data.take file.fptr ++ overwrite (file.data.drop file.fptr) (stored ds)

/-- After the close, the directory entry has the bytes of the file. -/
theorem Writing.fClose_node {v : Volume} {file : Fil} (h : Writing v file) :
    (fClose v file).2.2.nodes file.entry = some (.file file.data) := by
  rw [fClose_nodes h.valid]
  split
  · exact Function.update_self ..
  · next hm => exact h.synced.resolve_left hm

/-- One chunk. -/
theorem Writing.fWrite {v : Volume} {file : Fil} (h : Writing v file) (buff : List UInt8)
    (room : Nat) :
    Writing v (fWrite v file buff room).2.2 ∧
      (fWrite v file buff room).2.2.data = file.data.take file.fptr ++ buff.take room ++
        file.data.drop (file.fptr + (buff.take room).length) ∧
      (fWrite v file buff room).2.2.fptr = file.fptr + (buff.take room).length := by
  unfold FatFs.fWrite
  rw [if_pos h.valid, if_pos h.faWrite]
  refine ⟨⟨h.valid, h.faWrite, ?_, Or.inl rfl⟩, rfl, rfl⟩
  have hfptr := h.fptr
  show _ ≤ (_ ++ _ ++ _ : List UInt8).length
  simp only [List.length_append, List.length_take, List.length_drop]
  omega

/-- The first chunk goes to the file pointer, the others behind it. Where the first one was cut, the
others begin at the place where its bytes end. -/
theorem written_cons {file file' : Fil} {b : UInt8} {bs : List UInt8} {room : Nat}
    {ds : List DataIn} (hfptr : file.fptr ≤ file.data.length)
    (hdata : file'.data = file.data.take file.fptr ++ (b :: bs).take room ++
      file.data.drop (file.fptr + ((b :: bs).take room).length))
    (hnext : file'.fptr = file.fptr + ((b :: bs).take room).length) :
    written file' ds = written file (⟨some (b :: bs), room⟩ :: ds) := by
  have hlen : (file.data.take file.fptr ++ (b :: bs).take room).length = file'.fptr := by
    rw [List.length_append, List.length_take, Nat.min_eq_left hfptr, hnext]
  have htake : file'.data.take file'.fptr = file.data.take file.fptr ++ (b :: bs).take room := by
    rw [hdata, ← hlen, List.take_left]
  have hdrop : file'.data.drop file'.fptr =
      file.data.drop (file.fptr + ((b :: bs).take room).length) := by
    rw [hdata, ← hlen, List.drop_left]
  have hstored : stored (⟨some (b :: bs), room⟩ :: ds) = (b :: bs).take room ++ stored ds := rfl
  simp only [written, overwrite, htake, hdrop, hstored, List.drop_drop, List.length_append,
    List.append_assoc, Nat.add_assoc]

/-- The loop writes the stored bytes over the file and closes it. By induction on what is received,
with `Writing` from one turn to the next. -/
theorem storLoop_stores {q : Req} {file : Fil} {ds : List DataIn} (h : Writing q.vol file)
    (hends : endsWell ds = true) :
    ∃ file', Writing q.vol file' ∧ file'.entry = file.entry ∧ file'.lockid = file.lockid ∧
      file'.data = written file ds ∧ (storLoop q file ds).2.vol = (fClose q.vol file').2.2 := by
  induction ds generalizing q file with
  | nil => simp [endsWell] at hends
  | cons d ds ih =>
    obtain ⟨recv, room⟩ := d
    obtain _ | _ | ⟨b, bs⟩ := recv
    · simp [endsWell] at hends
    · refine ⟨file, h, rfl, rfl, ?_, reply_vol _ _⟩
      simp [written, overwrite, stored]
    · obtain ⟨hw, hdata, hfptr⟩ := h.fWrite (b :: bs) room
      obtain ⟨data, fptr, faModified, hframe⟩ := fWrite_frame q.vol file (b :: bs) room
      obtain ⟨file', hw', hentry, hlock, hfile, hvol⟩ :=
        ih (q := (q.emit (.select q.conn.pasvSockfd)).emit (.recv q.conn.pasvSockfd)) hw hends
      rw [written_cons h.fptr hdata hfptr] at hfile
      rw [hframe] at hentry hlock
      exact ⟨file', hw', hentry, hlock, hfile, hvol⟩

/-- The reply at the end of the data. -/
def finished : List UInt8 := textBytes "226 Finished.\r\n"

/-- The loop replies 226 exactly at the end of the data. By induction on what is received. A turn
without an end sends nothing, and the other ends have no reply. -/
theorem storLoop_out (q : Req) (file : Fil) (ds : List DataIn) :
    ∃ es, (storLoop q file ds).2.out = q.out ++ es ∧ sends es =
      if endsWell ds then [(q.conn.sockfd, finished.take 255, finished.length)] else [] := by
  induction ds generalizing q file with
  | nil => exact ⟨[_], rfl, rfl⟩
  | cons d ds ih =>
    obtain ⟨recv, room⟩ := d
    have hne : finished ≠ [] := textBytes_ne_nil (by simp)
    obtain _ | _ | ⟨b, bs⟩ := recv
    · exact ⟨[_, _], List.append_assoc q.out [_] [_], rfl⟩
    · refine ⟨[.select q.conn.pasvSockfd, .recv q.conn.pasvSockfd,
        .send q.conn.sockfd (finished.take 255) finished.length], ?_, rfl⟩
      show (Req.reply _ finished).out = _
      rw [reply_out _ hne]
      simp [Req.emit]
    · obtain ⟨es, hout, hsends⟩ := ih
        ((q.emit (.select q.conn.pasvSockfd)).emit (.recv q.conn.pasvSockfd))
        (fWrite q.vol file (b :: bs) room).2.2
      refine ⟨.select q.conn.pasvSockfd :: .recv q.conn.pasvSockfd :: es, ?_, hsends⟩
      refine hout.trans ?_
      simp [Req.emit]

/-! ### `STOR` -/

section Stor
variable (o : Outcome) (q : Req) (p : Option (List UInt8))

/-- The file that `STOR` writes, before the command. -/
def oldContent (v : Volume) (path : List UInt8) : List UInt8 := (fileContent v path).getD []

/-- The state of `STOR` when its file is open. -/
theorem writing_of_open {v v' : Volume} {path : List UInt8} {slot : Bool} {file : Fil}
    (h : fOpen v Fil.null path { faWrite := true, faOpenAlways := true } slot = (.ok, file, v')) :
    Writing v' file ∧ v.follow path = .entry file.entry ∧ v'.follow = v.follow ∧
      ∀ ds, written file ds = overwrite (oldContent v path) (stored ds) := by
  have hopen := fOpen_spec h
  refine ⟨⟨hopen.valid, hopen.faWrite, by rw [hopen.fptr]; exact Nat.zero_le _,
    Or.inr hopen.node⟩, hopen.entry, hopen.follow, ?_⟩
  intro ds
  simp [written, hopen.fptr, oldContent, (fOpen_data h rfl).1]

/-- `STOR` replies 226. -/
def Replies226 : Prop :=
  ∃ es, (cmdStor o q p).2.out = q.out ++ es ∧
    (q.conn.sockfd, finished.take 255, finished.length) ∈ sends es

/-- A reply that begins with another digit. -/
theorem ne_finished (fd : Int) {text : List UInt8} {d : UInt8} (h : text.head? = some d)
    (hd : d ≠ 50) :
    (fd, finished.take 255, finished.length) ≠ (fd, text.take 255, text.length) := by
  intro heq
  have hbuf : finished.take 255 = text.take 255 := (Prod.mk.inj (Prod.mk.inj heq).2).1
  have hhead : (finished.take 255).head? = some 50 := by decide
  rw [hbuf, List.head?_take, if_neg (by omega), h] at hhead
  exact hd (Option.some.inj hhead)

/-- The 150 reply of `STOR`. -/
theorem stor_opening (path : List UInt8) :
    (textBytes "150 Opening binary mode data connection for " ++ quoted path ++
      textBytes ".\r\n").head? = some 49 := by
  have h : (textBytes "150 Opening binary mode data connection for ").head? = some 49 := by
    decide
  rw [List.append_assoc, List.head?_append, h]
  rfl

/-- The 550 reply of `STOR`. -/
theorem stor_refusal (path : List UInt8) :
    (textBytes "550 Cannot open " ++ quoted path ++ textBytes " for writing.\r\n").head? =
      some 53 := by
  have h : (textBytes "550 Cannot open ").head? = some 53 := by decide
  rw [List.append_assoc, List.head?_append, h]
  rfl

/-- `STOR` replies 226 iff it can store the file and the peer closes the data connection. The
reply is the one at the end of the data, and none of the texts in front of it begins with the
same digits. -/
theorem replies226_iff : Replies226 o q p ↔
    CanStore q.vol (paramPath o q.conn.currentdir p) o.slot ∧ endsWell o.recvs = true := by
  obtain ⟨pre, hpre, hnone⟩ := paramPath_out o q p
  obtain ⟨hsockfd, -, -⟩ := paramPath_conn o q p
  unfold Replies226 CanStore
  dsimp only [cmdStor]
  rw [paramPath_fst, paramPath_vol]
  generalize fOpen q.vol Fil.null (paramPath o q.conn.currentdir p)
    { faWrite := true, faOpenAlways := true } o.slot = r
  obtain ⟨rc, file, v'⟩ := r
  generalize hq₁ : ({ (q.paramPath o p).2 with vol := v' } : Req) = q₁
  have hout₁ : q₁.out = q.out ++ pre := hq₁ ▸ hpre
  have hfd₁ : q₁.conn.sockfd = q.conn.sockfd := hq₁ ▸ hsockfd
  dsimp only
  -- what the command sends is determined
  have hsent : ∀ (q' : Req) es, q'.out = q.out ++ es →
      ((∃ es, q'.out = q.out ++ es ∧
        (q.conn.sockfd, finished.take 255, finished.length) ∈ sends es) ↔
        (q.conn.sockfd, finished.take 255, finished.length) ∈ sends es) := by
    intro q' es hes
    constructor
    · rintro ⟨es', hes', hmem⟩
      rwa [List.append_cancel_left (hes.symm.trans hes')]
    · exact fun hmem => ⟨es, hes, hmem⟩
  by_cases hok : rc = .ok
  · rw [if_neg (not_not_intro hok)]
    have hhead := stor_opening (paramPath o q.conn.currentdir p)
    generalize textBytes "150 Opening binary mode data connection for " ++
      quoted (paramPath o q.conn.currentdir p) ++ textBytes ".\r\n" = text at hhead ⊢
    have hreply := reply_out q₁ (show text ≠ [] by rintro rfl; cases hhead)
    obtain ⟨es, hes, hsends⟩ := storLoop_out (q₁.reply text) file o.recvs
    rw [reply_conn, hfd₁] at hsends
    dsimp only
    rw [hsent _ (pre ++ .send q.conn.sockfd (text.take 255) text.length :: es ++
      [.close (storLoop (q₁.reply text) file o.recvs).2.conn.pasvSockfd]) ?_]
    · rw [sends_append, sends_append, hnone]
      show _ ∈ [] ++ (q.conn.sockfd, text.take 255, text.length) :: sends es ++ [] ↔ _
      rw [hsends]
      have hne := ne_finished q.conn.sockfd hhead (by decide)
      cases endsWell o.recvs <;> simp [hok, hne]
    · show (storLoop (q₁.reply text) file o.recvs).2.out ++ _ = _
      rw [hes, hreply, hout₁, hfd₁]
      simp
  · rw [if_pos hok]
    have hhead := stor_refusal (paramPath o q.conn.currentdir p)
    generalize textBytes "550 Cannot open " ++ quoted (paramPath o q.conn.currentdir p) ++
      textBytes " for writing.\r\n" = text at hhead ⊢
    have hreply := reply_out q₁ (show text ≠ [] by rintro rfl; cases hhead)
    dsimp only
    rw [hsent _ (pre ++ [.send q.conn.sockfd (text.take 255) text.length]) ?_]
    · have hne := ne_finished q.conn.sockfd hhead (by decide)
      rw [sends_append, hnone]
      show _ ∈ [(q.conn.sockfd, text.take 255, text.length)] ↔ _
      simp [hok, hne]
    · rw [hreply, hout₁, hfd₁, List.append_assoc]

/-- The file after a `STOR` that replies 226, and the table, which has room for it again. The
entry takes over the bytes of the file object with the close. The slot of the table is given back
with it. -/
theorem cmdStor_content (hused : LocksUsed q.vol)
    (hstore : CanStore q.vol (paramPath o q.conn.currentdir p) o.slot)
    (hends : endsWell o.recvs = true) :
    ∃ fs e, CanLock (cmdStor o q p).2.vol fs e ∧
      (cmdStor o q p).2.vol.follow (paramPath o q.conn.currentdir p) = .entry e ∧
      (cmdStor o q p).2.vol.nodes e = some (.file (overwrite
        (oldContent q.vol (paramPath o q.conn.currentdir p)) (stored o.recvs))) := by
  unfold CanStore at hstore
  dsimp only [cmdStor]
  rw [paramPath_fst, paramPath_vol]
  generalize heq : fOpen q.vol Fil.null (paramPath o q.conn.currentdir p)
    { faWrite := true, faOpenAlways := true } o.slot = r at hstore ⊢
  obtain ⟨rc, file, v'⟩ := r
  dsimp only at hstore ⊢
  subst hstore
  rw [if_neg (by simp)]
  obtain ⟨hw, hentry, hfollow, hwritten⟩ := writing_of_open heq
  obtain ⟨fs, l, hslot, hctr, hlock⟩ := fOpen_write hused rfl heq
  dsimp only
  rw [close_vol]
  generalize hq₁ : Req.reply { (q.paramPath o p).2 with vol := v' } _ = q₁
  have hvol : q₁.vol = v' := by rw [← hq₁, reply_vol]
  obtain ⟨file', hw', hentry', hlockid, hdata, hclose⟩ :=
    storLoop_stores (q := q₁) (hvol.symm ▸ hw) hends
  rw [hclose]
  have hnode := hw'.fClose_node
  rw [hvol] at hw' hnode ⊢
  rw [hentry', hdata, hwritten] at hnode
  obtain ⟨nodes, hframe⟩ := fClose_frame hw'.valid
  rw [hlockid, decLock_eq hslot (Or.inr hctr)] at hframe
  rw [hframe] at hnode ⊢
  exact ⟨fs, file.entry, ⟨hlock.fatFs, hlock.mounted, hlock.closed, hlock.slot⟩,
    (congrFun hfollow _).trans hentry, hnode⟩

/-- A file that nobody has open can be read back. The open takes a slot and the close gives it back,
so the volume is as before. -/
theorem doGetFilesize_canLock {v : Volume} {fs : FsObj} {e : Entry} {path data : List UInt8}
    (h : CanLock v fs e) (hpath : v.follow path = .entry e)
    (hnode : v.nodes e = some (.file data)) :
    (doGetFilesize v path).1 = toInt32 data.length ∧ (doGetFilesize v path).2 = v := by
  obtain ⟨i, l, file, hfree, hctr, hopen, hlockid, hdata⟩ := fOpen_read h hpath hnode
  have hspec := fOpen_spec hopen
  have hunchanged : file.faModified = false := by
    rw [(fOpen_data hopen rfl).2, hspec.existed rfl]
    rfl
  have hclose : (fClose { v with files := Function.update v.files i (some l) } file).2.2 = v := by
    have hnodes := fClose_nodes hspec.valid
    rw [if_neg (by simp [hunchanged])] at hnodes
    obtain ⟨nodes, hframe⟩ := fClose_frame hspec.valid
    rw [hlockid, decLock_eq (Function.update_self ..) (Or.inl hctr)] at hframe
    rw [hframe] at hnodes ⊢
    dsimp only at hnodes ⊢
    rw [hnodes, Function.update_idem, ← hfree, Function.update_eq_self]
  unfold doGetFilesize
  rw [hopen]
  dsimp only
  rw [if_pos rfl, hdata]
  dsimp only
  rw [hclose]
  exact ⟨rfl, rfl⟩

/-- A file that is there, not open, and has a size to report can be sent. -/
theorem canSend_of_canLock {v : Volume} {fs : FsObj} {e : Entry} {path data : List UInt8}
    (h : CanLock v fs e) (hpath : v.follow path = .entry e)
    (hnode : v.nodes e = some (.file data)) (hsize : toInt32 data.length ≠ -1) :
    CanSend v path := by
  obtain ⟨i, l, file, -, -, hopen, -⟩ := fOpen_read h hpath hnode
  obtain ⟨hfind, hsame⟩ := doGetFilesize_canLock h hpath hnode
  constructor
  · rw [hfind]
    exact hsize
  · rw [hsame, hopen]

end Stor

/-! ### Round trips -/

/-- The file is what the client sent, and a `RETR` of it without an offset sends it back. -/
def RoundTrips (o : Outcome) (q : Req) (p : Option (List UInt8)) : Prop :=
  let path := paramPath o q.conn.currentdir p
  let q' := (cmdStor o q p).2
  fileContent q'.vol path = some (received o.recvs) ∧
    ∀ (o₂ : Outcome) (q₂ : Req) (p₂ : Option (List UInt8)) (line : List UInt8),
      q₂.vol = q'.vol → q₂.conn.offset = 0 → paramPath o₂ q₂.conn.currentdir p₂ = path →
        ∃ es, (cmdRetr o₂ q₂ p₂ line).out = q₂.out ++ es ∧
          Delivers q₂.conn.pasvSockfd es (received o.recvs)

/-- The uploads that fit: without a short write, the file was not longer than the new one. With
one, the bytes that are missing have to be in the old file already. `RETR` refuses a file of
`2 ^ 32 - 1` bytes. -/
def UploadFits (old : List UInt8) (ds : List DataIn) : Prop :=
  toInt32 (received ds).length ≠ -1 ∧
    if writesShort ds then overwrite old (stored ds) = received ds
    else old.length ≤ (received ds).length

instance (old : List UInt8) (ds : List DataIn) : Decidable (UploadFits old ds) := by
  unfold UploadFits
  infer_instance

/-- The old bytes under the new ones are the new ones iff no old byte is left over behind them. A
write that fell short is compared byte by byte. -/
theorem overwrite_eq_iff (old : List UInt8) (ds : List DataIn) :
    overwrite old (stored ds) = received ds ↔
      if writesShort ds then overwrite old (stored ds) = received ds
      else old.length ≤ (received ds).length := by
  by_cases hshort : writesShort ds = true
  · rw [if_pos hshort]
  · rw [if_neg hshort, stored_eq_received (by simpa using hshort)]
    unfold overwrite
    rw [List.append_right_eq_self, List.drop_eq_nil_iff]

/-- A `RETR` of a file whose size is taken for an error sends a reply only. -/
theorem cmdRetr_refuses_size (o : Outcome) (q : Req) (p : Option (List UInt8))
    (line : List UInt8) (h : (doGetFilesize q.vol (paramPath o q.conn.currentdir p)).1 = -1) :
    ∃ es, (cmdRetr o q p line).out = q.out ++ es ∧ Delivers q.conn.pasvSockfd es [] := by
  obtain ⟨pre, hpre, hnone⟩ := path_out o q p line
  dsimp only [cmdRetr]
  rw [paramPath_fst, paramPath_vol, copyLine_vol, copyLine_conn, if_pos h]
  generalize notRegular (paramPath o q.conn.currentdir p) = text
  unfold Req.reply doSendReply
  split
  · exact ⟨pre, hpre, [], by rw [hnone]; rfl, rfl⟩
  · refine ⟨pre ++ [_], (congrArg (· ++ [_]) hpre).trans (List.append_assoc ..), [], ?_, rfl⟩
    rw [sends_append, hnone]
    rfl

/-- A `STOR` that replies 226 stores what it received, and the next `RETR` sends it back, exactly if
the upload fits to the old file and to the room on the disk. The file may be there before, with any
bytes. What is left of them behind the new ones is what `FA_OPEN_ALWAYS` keeps, and what a short
write leaves out is missed by nobody, as the reply is 226 all the same. -/
theorem stor_roundTrips_iff (o : Outcome) (q : Req) (p : Option (List UInt8))
    (hused : LocksUsed q.vol) (h226 : Replies226 o q p) :
    RoundTrips o q p ↔
      UploadFits (oldContent q.vol (paramPath o q.conn.currentdir p)) o.recvs := by
  obtain ⟨hstore, hends⟩ := (replies226_iff o q p).1 h226
  obtain ⟨fs, e, hlock, hpath, hnode⟩ := cmdStor_content o q p hused hstore hends
  have hcontent : fileContent (cmdStor o q p).2.vol (paramPath o q.conn.currentdir p) =
      some (overwrite (oldContent q.vol (paramPath o q.conn.currentdir p)) (stored o.recvs)) := by
    simp [fileContent, hpath, hnode]
  unfold RoundTrips UploadFits
  rw [← overwrite_eq_iff]
  dsimp only
  rw [hcontent, Option.some.injEq]
  constructor
  · rintro ⟨hsame, hretr⟩
    refine ⟨fun hsize => ?_, hsame⟩
    -- `RETR` takes the size for an error, and sends nothing of the file
    rw [hsame] at hnode
    let q₂ : Req := { vol := (cmdStor o q p).2.vol, sockets := q.sockets,
                      conn := { q.conn with offset := 0, currentdir := [47] } }
    have hroot : paramPath o q₂.conn.currentdir (some (paramPath o q.conn.currentdir p)) =
        paramPath o q.conn.currentdir p := by
      show (doFullPath [47] (paramPath o q.conn.currentdir p)).1 = _
      unfold doFullPath
      split <;> rfl
    obtain ⟨es, hes, hdeliver⟩ := hretr o q₂ (some _) [] rfl rfl hroot
    have hfind : (doGetFilesize q₂.vol (paramPath o q₂.conn.currentdir
        (some (paramPath o q.conn.currentdir p)))).1 = -1 := by
      rw [hroot]
      exact (doGetFilesize_canLock hlock hpath hnode).1.trans hsize
    obtain ⟨es', hes', hnothing⟩ := cmdRetr_refuses_size o q₂ _ [] hfind
    rw [List.append_cancel_left (hes.symm.trans hes')] at hdeliver
    rw [hdeliver.unique hnothing] at hsize
    exact absurd hsize (by decide)
  · rintro ⟨hsize, hsame⟩
    refine ⟨hsame, ?_⟩
    intro o₂ q₂ p₂ line hvol hoffset hsamePath
    rw [hsame] at hnode hcontent
    have hsend : CanSend q₂.vol (paramPath o₂ q₂.conn.currentdir p₂) := by
      rw [hvol, hsamePath]
      exact canSend_of_canLock hlock hpath hnode hsize
    obtain ⟨es, data, hes, hdata, hdeliver⟩ := cmdRetr_delivers o₂ q₂ p₂ line hsend
    rw [hvol, hsamePath, hcontent, Option.some.injEq] at hdata
    rw [if_neg (by simp [seeks, hoffset]), ← hdata] at hdeliver
    exact ⟨es, hes, hdeliver⟩

/-- A request on a disk whose file `/f` has the bytes `old`. -/
def uploadTo (old : List UInt8) : Req where
  vol := FatFs.fMount
    { emptyDisk with nodes := fun e => if e = textBytes "/f" then some (.file old) else none }
    (some .fatfs)
  sockets := fun fd => fd ≤ 3
  conn := { id := 0, sockfd := 1, remote := 0, pasvActive := true, pasvSockfd := 3, pasvPort := 0,
            currentdir := [47] }

/-- Two chunks replace a shorter file. -/
theorem stor_roundTrips_two_chunks :
    RoundTrips { recvs := [⟨some [7, 8], 2⟩, ⟨some [9], 1⟩, ⟨some [], 0⟩] } (uploadTo [1, 2])
      (some (textBytes "/f")) := by
  have hused : LocksUsed (uploadTo [1, 2]).vol := by rintro i l ⟨⟩
  have h226 : Replies226 { recvs := [⟨some [7, 8], 2⟩, ⟨some [9], 1⟩, ⟨some [], 0⟩] }
      (uploadTo [1, 2]) (some (textBytes "/f")) := (replies226_iff _ _ _).2 (by decide)
  exact (stor_roundTrips_iff _ _ _ hused h226).2 (by decide)

/-- A chunk of one byte over a file of three bytes leaves two old bytes behind it. -/
theorem stor_keeps_old_tail :
    let o : Outcome := { recvs := [⟨some [9], 1⟩, ⟨some [], 0⟩] }
    let q := uploadTo [1, 2, 3]
    let p := some (textBytes "/f")
    Replies226 o q p ∧
      fileContent (cmdStor o q p).2.vol (textBytes "/f") = some [9, 2, 3] ∧
      ¬ RoundTrips o q p := by
  intro o q p
  have hcontent : fileContent (cmdStor o q p).2.vol (textBytes "/f") = some [9, 2, 3] := by
    decide
  refine ⟨(replies226_iff o q p).2 (by decide), hcontent, fun h => ?_⟩
  have hpath : paramPath o q.conn.currentdir p = textBytes "/f" := by decide
  have hfile := h.1
  rw [hpath, hcontent] at hfile
  exact absurd hfile (by decide)

end NucleoH743.Ftp
