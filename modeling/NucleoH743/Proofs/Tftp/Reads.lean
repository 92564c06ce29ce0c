import NucleoH743.Proofs.Tftp.Effects
import NucleoH743.Proofs.Tftp.Wrq
import NucleoH743.Tftp.Reads
import Mathlib.Data.List.GetD

/-!
# `Proofs.Tftp.Reads`: which datagrams the TFTP server parses in bounds

The reading programs give what the server computes with, and touch what the length of the
datagram allows only if it is long enough: two bytes for the opcode, four for a block number, and
a NUL among the thirty bytes of the file name.

The parsers are written as programs that ask for one byte at a time, so that an access has an index
and can be compared with the length of the payload. The first part says that the programs compute
what the functions of the server compute, and the second where they look.

An access in bounds depends on the branch. The block number of an acknowledgement is read only
behind the opcode for it; a write session reads the number of any datagram in one pbuf; and a
request copies its file name only when it has a port. So the condition follows these branches, with
the length each of them needs.

The copy of the name is a loop, and the induction is on the bytes that are left: it ends inside the
payload and inside the array iff there is a NUL in the first thirty bytes of the name.

- `parsesSafely_iff`: the server parses a datagram in bounds, and rejects a bad file name, iff
  the datagram is `Parsable`.
-/

set_option autoImplicit false

namespace NucleoH743.Tftp

open Reads (answer memory InBounds StepInBounds fileNameSize load store strcpy loadFrom)

/-! ### The programs read what the server computes with -/

section Eval
variable (p : Pbuf)

/-- Under the bytes of the datagram the reads give the opcode. -/
theorem eval_tftpDecodeOp : Reads.tftpDecodeOp.eval (answer p) = tftpDecodeOp p := rfl

/-- They give the block number. -/
theorem eval_tftpExtractBlock : Reads.tftpExtractBlock.eval (answer p) = tftpExtractBlock p := rfl

/-- They give the test of an acknowledgement. -/
theorem eval_tftpIsCorrectAck (block : Nat) :
    (Reads.tftpIsCorrectAck block).eval (answer p) = tftpIsCorrectAck p block := by
  unfold Reads.tftpIsCorrectAck tftpIsCorrectAck
  rw [Prog.eval_bind, eval_tftpDecodeOp]
  by_cases hop : tftpDecodeOp p ≠ .ack
  · rw [if_pos hop, if_pos hop]
    rfl
  · rw [if_neg hop, if_neg hop, Prog.eval_bind, eval_tftpExtractBlock]
    by_cases hblock : block = tftpExtractBlock p
    · rw [if_neg (not_not_intro hblock)]
      exact decide_eq_true hblock
    · rw [if_pos hblock]
      exact decide_eq_false hblock

/-- The copy ends at the NUL. By induction on the turns, of which there are more than bytes. -/
theorem eval_strcpy {turns i : Nat} (h : (memory p).length < 2 + i + turns) :
    (strcpy turns i).eval (answer p) = CStr.ofBytes ((memory p).drop (2 + i)) := by
  induction turns generalizing i with
  | zero =>
    rw [List.drop_eq_nil_of_le (by omega)]
    rfl
  | succ turns ih =>
    have hturn : (strcpy (turns + 1) i).eval (answer p) =
        if p.byte (2 + i) = 0 then []
        else p.byte (2 + i) :: (strcpy turns (i + 1)).eval (answer p) := by
      show (if p.byte (2 + i) = 0 then Prog.ret [] else _ : Reads.Reader (List UInt8)).eval _ = _
      split
      · rfl
      · rw [Prog.eval_bind]
        rfl
    rw [hturn, ih (by omega)]
    by_cases hi : 2 + i < (memory p).length
    · have hbyte : p.byte (2 + i) = (memory p)[2 + i] := List.getD_eq_getElem _ _ hi
      rw [List.drop_eq_getElem_cons hi, hbyte]
      by_cases hz : (memory p)[2 + i] = 0
      · simp [hz, CStr.ofBytes]
      · simp [hz, CStr.ofBytes, Nat.add_assoc]
    · -- behind the memory stands its NUL
      have hbyte : p.byte (2 + i) = 0 := List.getD_eq_default _ _ (Nat.le_of_not_lt hi)
      rw [if_pos hbyte, List.drop_eq_nil_of_le (Nat.le_of_not_lt hi)]
      rfl

/-- They give the name, which is read up to its NUL. -/
theorem eval_tftpExtractFilename :
    (Reads.tftpExtractFilename ((memory p).length + 1)).eval (answer p) =
      tftpExtractFilename p := by
  have hlen : (memory p).length < 2 + 0 + ((memory p).length + 1) := by omega
  exact eval_strcpy p hlen

/-- The loads of a write are its data. By induction on their number. -/
theorem eval_loadFrom {i n : Nat} (h : i + n = p.len) :
    (loadFrom i n).eval (answer p) = p.payload.drop i := by
  induction n generalizing i with
  | zero =>
    have hi : p.payload.length ≤ i := by
      rw [← Nat.add_zero i, h]
      exact Nat.le_refl _
    rw [List.drop_eq_nil_of_le hi]
    rfl
  | succ n ih =>
    have hi : i < p.payload.length := by
      have hlen : p.len = p.payload.length := rfl
      omega
    have hbyte : p.byte i = p.payload[i] := by
      rw [Pbuf.byte, List.getD_eq_getElem _ _ (by simp; omega), List.getElem_append_left hi]
    have hturn : (loadFrom i (n + 1)).eval (answer p) =
        p.byte i :: (loadFrom (i + 1) n).eval (answer p) := by
      show (loadFrom (i + 1) n >>= fun bs => Prog.ret (p.byte i :: bs)).eval (answer p) = _
      rw [Prog.eval_bind]
      rfl
    rw [hturn, ih (by omega), hbyte, List.drop_eq_getElem_cons hi]

/-- A write session writes the payload of the next block. By whether the datagram has the number of
the next block and bytes behind its header. -/
theorem eval_wrqRecvCallback (args : Args) (hone : p.len = p.totLen) :
    (Reads.wrqRecvCallback args p.len p.totLen).eval (answer p) =
      (if WrqTakes args p then some (p.payload.drop tftpDataPktHdrLen) else none,
        decide (tftpExtractBlock p = args.block + 1)) := by
  have hnext : (Reads.isNextBlock args).eval (answer p) =
      decide (tftpExtractBlock p = args.block + 1) := rfl
  have htakes : (Reads.takesData args p.len).eval (answer p) = decide (WrqTakes args p) := by
    unfold Reads.takesData WrqTakes
    by_cases hlen : tftpDataPktHdrLen < p.len
    · rw [if_pos hlen, hnext]
      simp [hlen]
    · rw [if_neg hlen]
      exact (decide_eq_false fun h => hlen h.1).symm
  unfold Reads.wrqRecvCallback
  rw [if_neg (not_not_intro hone), Prog.eval_bind, htakes]
  by_cases hw : WrqTakes args p
  · rw [decide_eq_true hw, if_pos rfl, if_pos hw, Prog.eval_bind,
      eval_loadFrom p (Nat.add_sub_cancel' (Nat.le_of_lt hw.1)), decide_eq_true hw.2]
    rfl
  · rw [decide_eq_false hw, if_neg (by simp), if_neg hw, Prog.eval_bind, hnext]
    rfl

/-- The datagram asks for a transfer. -/
def IsTransfer (p : Pbuf) : Prop := tftpDecodeOp p = .rrq ∨ tftpDecodeOp p = .wrq

instance : DecidablePred IsTransfer := fun _ => inferInstanceAs (Decidable (_ ∨ _))

/-- A request that gets its port is given the file name. By the opcode and by the two calls in front
of the session. -/
theorem eval_processTftpRequest (o : Outcome) :
    (Reads.processTftpRequest o ((memory p).length + 1)).eval (answer p) =
      (tftpDecodeOp p,
        if o.udpNew = true ∧ o.udpBind = true ∧ IsTransfer p then some (tftpExtractFilename p)
        else none) := by
  have hname : ∀ op : TftpOpcode, (Reads.tftpExtractFilename ((memory p).length + 1) >>=
      fun name => (Prog.ret (op, some name) : Reads.Reader (TftpOpcode × _))).eval (answer p) =
        (op, some (tftpExtractFilename p)) := by
    intro op
    rw [Prog.eval_bind, eval_tftpExtractFilename]
    rfl
  unfold Reads.processTftpRequest
  rw [Prog.eval_bind, eval_tftpDecodeOp]
  cases hnew : o.udpNew with
  | false => simp
  | true =>
    cases hbind : o.udpBind with
    | false => simp
    | true =>
      simp only [Bool.not_true, Bool.false_eq_true, if_false, true_and, IsTransfer]
      cases tftpDecodeOp p with
      | rrq => simpa using hname .rrq
      | wrq => simpa using hname .wrq
      | data | ack | error | other b => simp

end Eval

/-! ### What they touch -/

section Touch
variable (p : Pbuf)

/-- The opcode is read inside the payload iff it has two bytes. -/
theorem uses_tftpDecodeOp_iff :
    Reads.tftpDecodeOp.Uses (answer p) (InBounds p) ↔ 2 ≤ p.len :=
  and_iff_left trivial

/-- The block number is read inside of it iff it has four. -/
theorem uses_tftpExtractBlock_iff :
    Reads.tftpExtractBlock.Uses (answer p) (InBounds p) ↔ 4 ≤ p.len := by
  have hboth : 2 < p.len ∧ 3 < p.len ∧ True ↔ 4 ≤ p.len := by
    rw [and_true]
    omega
  exact hboth

/-- So is the test for the next block. -/
theorem uses_isNextBlock_iff (args : Args) :
    (Reads.isNextBlock args).Uses (answer p) (InBounds p) ↔ 4 ≤ p.len :=
  (Prog.uses_bind _ _ _ _).trans ((and_iff_left trivial).trans (uses_tftpExtractBlock_iff p))

/-- The acknowledgement test looks at the block number only behind an ACK opcode. -/
theorem uses_tftpIsCorrectAck_iff (block : Nat) :
    (Reads.tftpIsCorrectAck block).Uses (answer p) (InBounds p) ↔
      2 ≤ p.len ∧ (tftpDecodeOp p = .ack → 4 ≤ p.len) := by
  unfold Reads.tftpIsCorrectAck
  rw [Prog.uses_bind, uses_tftpDecodeOp_iff, eval_tftpDecodeOp]
  refine and_congr_right fun _ => ?_
  by_cases hop : tftpDecodeOp p = .ack
  · rw [if_neg (not_not_intro hop), Prog.uses_bind, uses_tftpExtractBlock_iff]
    simp [hop, Prog.Uses]
  · rw [if_pos hop]
    exact iff_of_true trivial fun h => absurd h hop

/-- One turn of the copy. -/
theorem uses_strcpy_succ (turns i : Nat) :
    (strcpy (turns + 1) i).Uses (answer p) (InBounds p) ↔
      2 + i < p.len ∧ i < fileNameSize ∧
        (p.byte (2 + i) ≠ 0 → (strcpy turns (i + 1)).Uses (answer p) (InBounds p)) := by
  show 2 + i < p.len ∧ i < fileNameSize ∧
    (if p.byte (2 + i) = 0 then Prog.ret [] else _ : Reads.Reader (List UInt8)).Uses _ _ ↔ _
  refine and_congr_right fun _ => and_congr_right fun _ => ?_
  split
  · next hz => exact iff_of_true trivial fun hne => absurd hz hne
  · next hz =>
    rw [Prog.uses_bind]
    exact ⟨fun h _ => h.1, fun h => ⟨h hz, trivial⟩⟩

/-- The copy stays in bounds iff a NUL stands in the payload before the name is too long. By
induction on the bytes that the array has left. Each turn loads one byte and stores it. -/
theorem uses_strcpy_iff {turns i : Nat} (h : ∃ j < turns, p.byte (2 + i + j) = 0) :
    (strcpy turns i).Uses (answer p) (InBounds p) ↔
      ∃ k, i ≤ k ∧ k < fileNameSize ∧ 2 + k < p.len ∧ p.byte (2 + k) = 0 := by
  induction turns generalizing i with
  | zero =>
    obtain ⟨j, hj, -⟩ := h
    exact absurd hj (Nat.not_lt_zero j)
  | succ turns ih =>
    rw [uses_strcpy_succ]
    by_cases hz : p.byte (2 + i) = 0
    · -- the copy ends here
      constructor
      · rintro ⟨hi, hname, -⟩
        exact ⟨i, Nat.le_refl i, hname, hi, hz⟩
      · rintro ⟨k, hk, hname, hlt, -⟩
        exact ⟨by omega, by omega, fun hne => absurd hz hne⟩
    · have hlater : ∃ j < turns, p.byte (2 + (i + 1) + j) = 0 := by
        obtain ⟨j, hj, hnul⟩ := h
        cases j with
        | zero => exact absurd hnul hz
        | succ j => exact ⟨j, Nat.lt_of_succ_lt_succ hj, by
            rwa [show 2 + (i + 1) + j = 2 + i + (j + 1) by omega]⟩
      rw [forall_prop_of_true (p := p.byte (2 + i) ≠ 0) hz, ih hlater]
      constructor
      · rintro ⟨-, -, k, hk, hrest⟩
        exact ⟨k, Nat.le_of_succ_le hk, hrest⟩
      · rintro ⟨k, hk, hname, hlt, hnul⟩
        have hik : i ≠ k := fun heq => hz (heq ▸ hnul)
        exact ⟨by omega, by omega, k, by omega, hname, hlt, hnul⟩

/-- The loads of a write stay in the payload. -/
theorem uses_loadFrom {i n : Nat} (h : i + n = p.len) :
    (loadFrom i n).Uses (answer p) (InBounds p) := by
  induction n generalizing i with
  | zero => trivial
  | succ n ih =>
    have hi : i < p.len := by omega
    refine ⟨hi, ?_⟩
    show (loadFrom (i + 1) n >>= fun bs => Prog.ret (p.byte i :: bs)).Uses _ _
    rw [Prog.uses_bind]
    exact ⟨ih (by omega), trivial⟩

/-- The first test never looks behind the payload. -/
theorem uses_takesData (args : Args) :
    (Reads.takesData args p.len).Uses (answer p) (InBounds p) := by
  unfold Reads.takesData
  split
  · next hlen => exact (uses_isNextBlock_iff p args).2 (Nat.le_of_lt hlen)
  · trivial

/-- It fails on a datagram without data. -/
theorem eval_takesData_short (args : Args) (h : ¬ tftpDataPktHdrLen < p.len) :
    (Reads.takesData args p.len).eval (answer p) = false := by
  rw [Reads.takesData, if_neg h]
  rfl

/-- A write session looks at the block number of every datagram that is not chained. The data is
loaded only behind the test on the length, so it is in bounds when the number is. -/
theorem uses_wrqRecvCallback_iff (args : Args) :
    (Reads.wrqRecvCallback args p.len p.totLen).Uses (answer p) (InBounds p) ↔
      (p.len = p.totLen → 4 ≤ p.len) := by
  unfold Reads.wrqRecvCallback
  by_cases hone : p.len = p.totLen
  · rw [if_neg (not_not_intro hone), forall_prop_of_true hone, Prog.uses_bind]
    refine (and_iff_right (uses_takesData p args)).trans ?_
    by_cases hlen : tftpDataPktHdrLen < p.len
    · have hfour : 4 ≤ p.len := Nat.le_of_lt hlen
      refine iff_of_true ?_ hfour
      split
      · rw [Prog.uses_bind]
        exact ⟨uses_loadFrom p (Nat.add_sub_cancel' (Nat.le_of_lt hlen)), trivial⟩
      · rw [Prog.uses_bind]
        exact ⟨(uses_isNextBlock_iff p args).2 hfour, trivial⟩
    · -- the second test looks at the block number whatever the length
      rw [eval_takesData_short p args hlen, if_neg (by simp), Prog.uses_bind,
        uses_isNextBlock_iff]
      exact and_iff_left trivial
  · rw [if_pos hone]
    exact iff_of_true trivial fun h => absurd h hone

/-- The file name ends in the payload, and fits into `FileName` with its NUL. -/
def NameFits (p : Pbuf) : Prop :=
  ∃ k < fileNameSize, 2 + k < p.len ∧ p.byte (2 + k) = 0

/-- The reads and stores of the name are in bounds iff it ends in the payload and fits its array. -/
theorem uses_tftpExtractFilename_iff :
    (Reads.tftpExtractFilename ((memory p).length + 1)).Uses (answer p) (InBounds p) ↔
      NameFits p := by
  have hnul : p.byte (2 + 0 + (memory p).length) = 0 :=
    List.getD_eq_default _ _ (Nat.le_add_left _ _)
  refine (uses_strcpy_iff p ⟨_, Nat.lt_succ_self _, hnul⟩).trans ?_
  simp [NameFits]

/-- A request is looked at for its opcode, and copies its file name once it has its port. An opcode
that asks for no transfer has no file name to be read. -/
theorem uses_processTftpRequest_iff (o : Outcome) :
    (Reads.processTftpRequest o ((memory p).length + 1)).Uses (answer p) (InBounds p) ↔
      2 ≤ p.len ∧ (o.udpNew = true → o.udpBind = true → IsTransfer p → NameFits p) := by
  have hname : ∀ op, (Reads.tftpExtractFilename ((memory p).length + 1) >>=
      fun name => (Prog.ret (op, some name) : Reads.Reader (TftpOpcode × _))).Uses
        (answer p) (InBounds p) ↔ NameFits p := by
    intro op
    rw [Prog.uses_bind, uses_tftpExtractFilename_iff]
    exact and_iff_left trivial
  unfold Reads.processTftpRequest
  rw [Prog.uses_bind, uses_tftpDecodeOp_iff, eval_tftpDecodeOp]
  refine and_congr_right fun _ => ?_
  cases hnew : o.udpNew with
  | false => exact iff_of_true trivial (by simp)
  | true =>
    cases hbind : o.udpBind with
    | false => exact iff_of_true trivial (by simp)
    | true =>
      simp only [Bool.not_true, Bool.false_eq_true, if_false, forall_const, IsTransfer]
      cases tftpDecodeOp p with
      | rrq => simpa using hname .rrq
      | wrq => simpa using hname .wrq
      | data | ack | error | other b => exact iff_of_true trivial (by simp)

end Touch

/-! ### Events -/

/-- The server answers the request with an error message, and starts no session. -/
structure Rejected (w : World) (o : Outcome) (d : Datagram) : Prop where
  error : ∃ u err, .sendto u d.addr d.port (tftpErrorPacket err) ∈
    effects w (.server (.request o d))
  noSession : ∀ u recv, (step w (.request o d)).pcbs u = some (some recv) →
    w.pcbs u = some (some recv)

/-- The accesses of the event stay in bounds, and a request with a bad file name is rejected. -/
def ParsesSafely (w : World) (e : Event) : Prop :=
  StepInBounds w e ∧
    match e with
    | .request o d => IsTransfer d.p → ¬ NameFits d.p → Rejected w o d
    | .datagram _ _ _ => True

/-- The datagram is as long as its callback takes it to be. -/
def Parsable (w : World) : Event → Prop
  | .request _ d => 2 ≤ d.p.len ∧ (IsTransfer d.p → NameFits d.p)
  | .datagram upcb _ d =>
    match w.pcbs upcb with
    | some (some (.rrqRecvCallback _)) => 2 ≤ d.p.len ∧ (tftpDecodeOp d.p = .ack → 4 ≤ d.p.len)
    | some (some (.wrqRecvCallback _)) => d.p.len = d.p.totLen → 4 ≤ d.p.len
    | _ => True

/-- Without a control block or a port the request is not answered. -/
theorem not_rejected {w : World} {o : Outcome} {d : Datagram}
    (h : o.udpNew = false ∨ o.udpBind = false) : ¬ Rejected w o d := by
  rintro ⟨⟨u, err, herr⟩, -⟩
  have htrace : (sharedStep w (.server (.request o d))).trace = w.trace ++ [.pbufFree] := by
    rcases request_ends o w d with ⟨-, hstep⟩ | ⟨-, -, htrace⟩ | ⟨hnew, hkeep, -⟩
    · rw [hstep]
      rfl
    · exact htrace
    · rcases h with h | h
      · rw [hnew] at h
        cases h
      · exact absurd ⟨hnew, .inl h⟩ hkeep
  rw [effects_eq htrace] at herr
  simp at herr

/-- The server parses a datagram in bounds, and rejects a bad file name, iff the datagram is as long
as its callback takes it to be and any file name it holds is terminated and fits. The event is any
one, in any state of the server, and the lengths are those that its callback relies on. None of them
is passed to the functions that read, so nothing stops them at the end of a shorter datagram. -/
theorem parsesSafely_iff (w : World) (e : Event) : ParsesSafely w e ↔ Parsable w e := by
  cases e with
  | request o d =>
    have huses := uses_processTftpRequest_iff d.p o
    constructor
    · rintro ⟨hin, hrej⟩
      obtain ⟨hlen, hname⟩ := huses.1 hin
      refine ⟨hlen, fun htr => ?_⟩
      by_contra hbad
      -- a name that does not fit is copied, unless the request is dropped before
      have hdrop : o.udpNew = false ∨ o.udpBind = false := by
        cases hnew : o.udpNew with
        | false => exact .inl rfl
        | true =>
          cases hbind : o.udpBind with
          | false => exact .inr rfl
          | true => exact absurd (hname hnew hbind htr) hbad
      exact not_rejected hdrop (hrej htr hbad)
    · rintro ⟨hlen, hname⟩
      exact ⟨huses.2 ⟨hlen, fun _ _ => hname⟩, fun htr hbad => absurd (hname htr) hbad⟩
  | datagram upcb o d =>
    refine (and_iff_left trivial).trans ?_
    dsimp only [StepInBounds, Parsable]
    cases w.pcbs upcb with
    | none => exact Iff.rfl
    | some slot =>
      cases slot with
      | none => exact Iff.rfl
      | some recv =>
        cases recv with
        | rrqRecvCallback args => exact uses_tftpIsCorrectAck_iff d.p args.block
        | wrqRecvCallback args => exact uses_wrqRecvCallback_iff d.p args

/-- A datagram of one byte on port 69, and a request with a file name of thirty letters. -/
theorem parses_out_of_bounds :
    ¬ ParsesSafely (World.init Proofs.Tftp.emptyVol) (.request {} { p := .single [0] }) ∧
    ¬ ParsesSafely (World.init Proofs.Tftp.emptyVol)
      (.request {} { p := .single ([0, 1] ++ List.replicate 30 65 ++ [0]) }) := by
  constructor
  · rintro ⟨hin, -⟩
    revert hin
    show ¬ (Reads.processTftpRequest {} _).Uses _ _
    decide
  · rintro ⟨hin, -⟩
    revert hin
    show ¬ (Reads.processTftpRequest {} _).Uses _ _
    decide

end NucleoH743.Tftp
