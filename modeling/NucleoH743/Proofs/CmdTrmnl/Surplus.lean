import NucleoH743.Proofs.CmdTrmnl.Delivery

/-!
# `Proofs.CmdTrmnl.Surplus`: more tokens than parameters

Nothing in the terminal compares the number of tokens with the number of parameters. A token
too many is found when its slot does not accept it: a slot without a type accepts nothing but
an empty string. After five tokens the handler is called and the rest of the line is skipped,
and a command without parameters is called at the space after its name.

`lineStatus` follows the tokens to the status with which the line is dispatched. The buffer
keeps the first bytes of a longer token (`LongWord.cut`), and these are what its slot gets.

The lines here have words of any length, unlike those of `Proofs.CmdTrmnl.Delivery`, and what the
buffer keeps of a word is a word of that module. So the same steps lead from word to word, and the
difference is in what comes at the end: where `Delivery` asks whether all tokens are accepted, the
status of the dispatch counts here, which is that of the first token that is not.

A token that is not accepted has one of two statuses. If it is of the kind of its slot, such as a
number that is too large, the status is an overflow; otherwise it is the one for incorrect data,
whose message is what a surplus token should get.

- `surplus_rejected_iff`: a line with too many tokens is rejected with the message about
  incorrect data iff the command has parameters and the first token that its slot does not
  accept is not of the kind of the slot at all.
- `surplus_rejected`: this is so if the command has at most four parameters, accepts its own
  tokens, and no token starts with a NUL.
- `surplus_called`: a command without parameters and one with five call their handlers.
-/

set_option autoImplicit false

namespace NucleoH743.CmdTrmnl

open EventRun

/-! ### Lines with words of any length -/

/-- A word of any length. -/
structure LongWord where
  bytes : List UInt8
  ne : bytes ≠ []
  free : ∀ ch ∈ bytes, isWordByte ch = true

/-- What the buffer keeps of the word. -/
def LongWord.cut (word : LongWord) : Word where
  bytes := word.bytes.take (maxSizeData - 1)
  ne := by
    rw [ne_eq, List.take_eq_nil_iff, not_or]
    exact ⟨by decide, word.ne⟩
  fits := (List.length_take_le _ _).trans_lt (by decide)
  free := fun ch hch => word.free ch (List.mem_of_mem_take hch)

/-- A token, with one space before it or more. -/
structure LongToken where
  moreSpaces : Nat
  word : LongWord

/-- The bytes of a token, its spaces included. -/
def LongToken.bytes (token : LongToken) : List UInt8 :=
  0x20 :: (List.replicate token.moreSpaces 0x20 ++ token.word.bytes)

/-- A command line behind its `>`. The name may be empty. -/
structure LongLine where
  name : List UInt8
  name_free : ∀ ch ∈ name, isWordByte ch = true
  tokens : List LongToken
  trailing : Nat
  last : UInt8
  last_ok : isEol last = true ∨ last = 0x3E

/-- The tokens and the spaces after them. -/
def bodyBytes (tokens : List LongToken) (trailing : Nat) : List UInt8 :=
  tokens.flatMap LongToken.bytes ++ List.replicate trailing 0x20

/-- The bytes of the line. -/
def LongLine.bytes (line : LongLine) : List UInt8 :=
  line.name ++ (bodyBytes line.tokens line.trailing ++ [line.last])

/-- The name that the terminal looks for. -/
def LongLine.cmdName (line : LongLine) : List UInt8 :=
  CStr.ofBytes (line.name.take (maxSizeData - 1))

/-- What follows the name in a line is empty, or begins with a space. -/
theorem tail_bodyBytes (tokens : List LongToken) (trailing : Nat) :
    Tail (bodyBytes tokens trailing) :=
  tail_flatMap (f := LongToken.bytes)
    (fun token => ⟨_, rfl, notMem_word token.word.free token.moreSpaces⟩) _ _

/-! ### The status of a token -/

/-- The string is of the kind of the type, in its range or out of it. -/
def OfKind (c : Console) (type : TypeCmdPrmtr) (str : List UInt8) : Bool :=
  match type with
  | .uint8 | .uint16 | .uint32 => (sscanfLu str).isSome
  | .int8 | .int16 | .int32 => (sscanfLi str).isSome
  | .double => (c.sscanfLa str).isSome
  | .char | .string => true
  | .none | .uint64 | .int64 | .float => false

instance (c : Console) (type : TypeCmdPrmtr) (word : Word) : Decidable (Accepted c type word) :=
  inferInstanceAs (Decidable (_ ∨ _))

/-- The token is not accepted, and it is not of the kind of its slot. -/
def Refused (c : Console) (type : TypeCmdPrmtr) (word : Word) : Prop :=
  ¬ Accepted c type word ∧ OfKind c type (CStr.ofBytes word.bytes) = false

/-- What the conversion of a token reports. -/
def tokenStatus (c : Console) (type : TypeCmdPrmtr) (word : Word) : StatCmd :=
  if Accepted c type word then .norm
  else if OfKind c type (CStr.ofBytes word.bytes) then .overflow
  else .incorrectParam

section Status
variable {c : Console} {type : TypeCmdPrmtr} {word : Word}

/-- A token has the status `STAT_NORM` iff it is accepted. -/
theorem tokenStatus_eq_norm : tokenStatus c type word = .norm ↔ Accepted c type word := by
  unfold tokenStatus
  split_ifs with h <;> simp [h]

/-- It has the status for incorrect data iff it is refused. -/
theorem tokenStatus_eq_incorrectParam :
    tokenStatus c type word = .incorrectParam ↔ Refused c type word := by
  unfold tokenStatus Refused
  split_ifs with hacc hkind <;> simp_all

/-- A number reports an overflow where it is a number that has no value of the type. -/
theorem convertUint_status (n : Nat) (str : List UInt8) (p : CmdParametr)
    (hno : uintValue n str = none) :
    (convertUint n str p).1 = if (sscanfLu str).isSome then .overflow else .incorrectParam := by
  have hpow : 256 ^ n = 2 ^ (8 * n) := (pow_mul 2 8 n).symm
  unfold convertUint
  rw [hpow]
  cases hv : sscanfLu str with
  | none => rfl
  | some v =>
    have hlarge : ¬ v < 2 ^ (8 * n) := by simpa [uintValue, hv] using hno
    simp only [if_neg hlarge, Option.isSome_some, if_true]

/-- A conversion without a value tells a number that is too large from a word that is no number, by
what `sscanf` returns. -/
theorem convertInt_status (n : Nat) (str : List UInt8) (p : CmdParametr)
    (hno : intValue n str = none) :
    (convertInt n str p).1 = if (sscanfLi str).isSome then .overflow else .incorrectParam := by
  unfold convertInt
  cases hv : sscanfLi str with
  | none => rfl
  | some v =>
    have hlarge : ¬ (v < 2 ^ (8 * n - 1) ∧ -2 ^ (8 * n - 1) ≤ v) := by
      simpa only [intValue, hv, Option.bind_some, ite_eq_right_iff, reduceCtorEq, imp_false]
        using hno
    simp only [if_neg hlarge, Option.isSome_some, if_true]

/-- The status of a token that is not accepted. By the type of the slot. -/
theorem getParametrCmd_refused {buf : Fin maxSizeData → UInt8} (h : Holds buf word)
    (hno : ¬ Accepted c type word) (p : CmdParametr) :
    (getParametrCmd c buf type p).1 =
      if OfKind c type (CStr.ofBytes word.bytes) then .overflow else .incorrectParam := by
  simp only [Accepted, ← h.head, not_or, Option.not_isSome_iff_eq_none] at hno
  obtain ⟨hempty, hvalue⟩ := hno
  have hone := h.length_one hempty
  unfold getParametrCmd
  simp only [if_neg hempty, h.ofBuf]
  cases type with
  | uint8 | uint16 | uint32 => exact convertUint_status _ _ _ hvalue
  | int8 | int16 | int32 => exact convertInt_status _ _ _ hvalue
  | double =>
    have hnone : c.sscanfLa (CStr.ofBytes word.bytes) = none := by simpa [value] using hvalue
    simp [OfKind, hnone]
  | char =>
    have hlong : ¬ buf 1 = 0 := by simpa [value, hone] using hvalue
    simp [OfKind, hlong]
  | string => cases hvalue
  | none | uint64 | int64 | float => rfl

/-- `get_parametr_cmd` reports the status of the token. -/
theorem getParametrCmd_status {buf : Fin maxSizeData → UInt8} (h : Holds buf word)
    (type : TypeCmdPrmtr) (p : CmdParametr) :
    (getParametrCmd c buf type p).1 = tokenStatus c type word := by
  by_cases hacc : Accepted c type word
  · rw [tokenStatus_eq_norm.mpr hacc]
    have hgives := getParametrCmd_gives (c := c) h type p
    obtain ⟨q, hq⟩ := Option.isSome_iff_exists.mp ((deliver_isSome_iff type word p).mpr hacc)
    rw [hq] at hgives
    exact congrArg Prod.fst hgives
  · rw [tokenStatus, if_neg hacc]
    exact getParametrCmd_refused h hacc p

end Status
/-! ### The status of a line -/

section Lines
variable (c : Console) (cmd : Cmd)

/-- The status with which a line is dispatched, from the tokens for parameter `j` on: that of
the first token that is not accepted. -/
def lineStatus : Nat → List LongToken → StatCmd
  | _, [] => .norm
  | j, token :: tokens =>
    if h : j < maxParam then
      if Accepted c (cmd.cmdTypeParametr ⟨j, h⟩) token.word.cut then lineStatus (j + 1) tokens
      else tokenStatus c (cmd.cmdTypeParametr ⟨j, h⟩) token.word.cut
    else .norm

variable {c cmd} {i j : Nat}

/-- The dispatch behind a token has the status of the token. The dispatch has the status that the
conversion has left. -/
theorem InToken.status {p : Fin maxParam → CmdParametr} {t t' d : Terminal} {ch : UInt8}
    {word : Word} (h : InToken i j p word.bytes t) (hj : j < maxParam)
    (hentry : c.table.cmds[i]? = some cmd) (hreads : Reads c t [ch] t' [d]) :
    d.statusCmdParam = tokenStatus c (cmd.cmdTypeParametr ⟨j, hj⟩) word ∧
      d.indexCmd = some i := by
  have hproc : d = procParametr c t.terminate := by
    obtain ⟨next, hd⟩ := hreads.dispatch?_eq
    exact dispatch?_prcPrm_eq h.fsm hd
  have hidx : t.indexParam = ⟨j, hj⟩ := Fin.ext h.indexParam
  have hcmd : t.terminate.cmd? c = some cmd := by
    show t.indexCmd.bind _ = some cmd
    rw [h.indexCmd]
    exact hentry
  rw [hproc, procParametr, hcmd]
  refine ⟨?_, h.indexCmd⟩
  show (getParametrCmd c t.terminate.dataPrmCmd (cmd.cmdTypeParametr t.indexParam) _).1 = _
  rw [hidx]
  exact getParametrCmd_status h.loaded.holds _ _

/-- The tokens of a line after a word that has been accepted. By induction on the tokens: one that
is accepted leads to the next slot, one that is not ends the line with its status, and behind the
fifth slot the line ends with the handler. -/
theorem reads_body (hentry : c.table.cmds[i]? = some cmd) (tokens : List LongToken)
    (trailing : Nat) {last : UInt8} (hlast : isEol last = true ∨ last = 0x3E) {t : Terminal}
    {p : Fin maxParam → CmdParametr} (h : Pending c i j (some p) t) :
    ∃ d, dispatches c t (bodyBytes tokens trailing ++ [last]) = [d] ∧
      d.statusCmdParam = lineStatus c cmd j tokens ∧ d.indexCmd = some i := by
  induction tokens generalizing t p j with
  | nil =>
    obtain ⟨d, hds, hnorm, hidx, -⟩ := h.blank trailing hlast
    exact ⟨d, hds, hnorm, hidx⟩
  | cons token tokens ih =>
    by_cases hj : j < maxParam
    · obtain ⟨t₁, hspace, hat⟩ := h.next p rfl hj
      obtain ⟨t₂, hword, hin⟩ := hat.reads (c := c) token.moreSpaces token.word.ne token.word.free
      have hin' : InToken i j p token.word.cut.bytes t₂ := hin
      have hpend := pending_token (c := c) hin'.fsm hin'.loaded hin'.indexCmd hentry
        (Fin.ext hin'.indexParam : t₂.indexParam = ⟨j, hj⟩) hin'.arPrm
      have htoken : Reads c t token.bytes t₂ [] := hspace.append hword
      have hbytes : ∀ ds, dispatches c t₂ (bodyBytes tokens trailing ++ [last]) = ds →
          dispatches c t (bodyBytes (token :: tokens) trailing ++ [last]) = ds := by
        intro ds hds
        have heq : bodyBytes (token :: tokens) trailing ++ [last] =
            token.bytes ++ (bodyBytes tokens trailing ++ [last]) := by
          simp [bodyBytes]
        rw [heq]
        exact (htoken.append ⟨rfl, hds⟩).2
      have haccepted := deliver_isSome_iff (c := c) (cmd.cmdTypeParametr ⟨j, hj⟩) token.word.cut
        (p ⟨j, hj⟩)
      unfold lineStatus
      rw [dif_pos hj]
      cases hdel : deliver c (cmd.cmdTypeParametr ⟨j, hj⟩) token.word.cut (p ⟨j, hj⟩) with
      | some q =>
        rw [hdel] at hpend haccepted
        obtain ⟨d, hds, hstatus, hidx⟩ := ih hpend
        rw [if_pos (haccepted.mp rfl)]
        exact ⟨d, hbytes _ hds, hstatus, hidx⟩
      | none =>
        -- the separator after this token dispatches, with the status of the token
        rw [hdel] at hpend haccepted
        obtain ⟨ch, t₃, d, hreads, -, hds⟩ :=
          hpend.stops (.inl rfl) (tail_bodyBytes tokens trailing) hlast
        obtain ⟨hstatus, hidx⟩ := hin'.status hj hentry hreads
        rw [if_neg (fun hacc => nomatch haccepted.mpr hacc)]
        exact ⟨d, hbytes _ hds, hstatus, hidx⟩
    · -- five tokens have been accepted
      obtain ⟨ch, t', d, -, ⟨hnorm, hidx, -⟩, hds⟩ :=
        h.stops (.inr hj) (tail_bodyBytes (token :: tokens) trailing) hlast
      refine ⟨d, hds, ?_, hidx⟩
      unfold lineStatus
      rw [dif_neg hj]
      exact hnorm

/-- The first token that is not accepted decides. By induction on the tokens: the first one decides
if it is not accepted, and the others do if it is. -/
theorem lineStatus_eq_incorrectParam (tokens : List LongToken) :
    lineStatus c cmd j tokens = .incorrectParam ↔
      ∃ (k : Nat) (m : Fin maxParam) (token : LongToken), m.val = j + k ∧
        tokens[k]? = some token ∧ Refused c (cmd.cmdTypeParametr m) token.word.cut ∧
        ∀ (k' : Nat) (m' : Fin maxParam) (token' : LongToken), k' < k → m'.val = j + k' →
          tokens[k']? = some token' → Accepted c (cmd.cmdTypeParametr m') token'.word.cut := by
  induction tokens generalizing j with
  | nil => simp [lineStatus]
  | cons token tokens ih =>
    unfold lineStatus
    by_cases hj : j < maxParam
    · rw [dif_pos hj]
      -- the first token is accepted and the rest decides, or it is refused at once
      by_cases hacc : Accepted c (cmd.cmdTypeParametr ⟨j, hj⟩) token.word.cut
      · rw [if_pos hacc, ih]
        constructor
        · rintro ⟨k, m, token', hm, htoken, hrefused, hbefore⟩
          refine ⟨k + 1, m, token', by omega, htoken, hrefused, ?_⟩
          intro k' m' token'' hk hm' htoken'
          cases k' with
          | zero =>
            obtain rfl : m' = ⟨j, hj⟩ := Fin.ext hm'
            obtain rfl := Option.some.inj htoken'
            exact hacc
          | succ k' => exact hbefore k' m' token'' (by omega) (by omega) htoken'
        · rintro ⟨k, m, token', hm, htoken, hrefused, hbefore⟩
          cases k with
          | zero =>
            obtain rfl : m = ⟨j, hj⟩ := Fin.ext hm
            obtain rfl := Option.some.inj htoken
            exact absurd hacc hrefused.1
          | succ k =>
            exact ⟨k, m, token', by omega, htoken, hrefused, fun k' m' token'' hk hm' htoken' =>
              hbefore (k' + 1) m' token'' (by omega) (by omega) htoken'⟩
      · rw [if_neg hacc, tokenStatus_eq_incorrectParam]
        constructor
        · intro hrefused
          exact ⟨0, ⟨j, hj⟩, token, rfl, rfl, hrefused, fun k' _ _ hk => absurd hk (by omega)⟩
        · rintro ⟨k, m, token', hm, htoken, hrefused, hbefore⟩
          cases k with
          | zero =>
            obtain rfl : m = ⟨j, hj⟩ := Fin.ext hm
            obtain rfl := Option.some.inj htoken
            exact hrefused
          | succ k => exact absurd (hbefore 0 ⟨j, hj⟩ token (by omega) rfl rfl) hacc
    · -- no parameter slot is left: the line is full, not wrong
      rw [dif_neg hj]
      constructor
      · intro h
        cases h
      · rintro ⟨k, m, -, hm, -⟩
        exact absurd m.isLt (by omega)

end Lines

/-! ### Lines with too many tokens -/

/-- From `t` on the bytes call no handler of command `i`, and the message about incorrect data
is printed. -/
def Rejects (c : Console) (t : Terminal) (i : Nat) (bytes : List UInt8) : Prop :=
  ∃ out, (run (terminalDataProcessing c) t bytes).output = t.output ++ out ∧
    (∀ effects, .call i effects ∉ out) ∧ .printf "Неккоректные данные  \r\n\r\n" ∈ out

/-- The first of five tokens that its slot does not accept is not of the kind of the slot. -/
def FirstRefused (c : Console) (cmd : Cmd) (tokens : List LongToken) : Prop :=
  ∃ (m : Fin maxParam) (token : LongToken), tokens[m.val]? = some token ∧
    Refused c (cmd.cmdTypeParametr m) token.word.cut ∧
    ∀ (m' : Fin maxParam) (token' : LongToken), m' < m → tokens[m'.val]? = some token' →
      Accepted c (cmd.cmdTypeParametr m') token'.word.cut

section Surplus
variable {c : Console} {cmd : Cmd} {t : Terminal} {i : Nat} {line : LongLine}

/-- The status of the line is that of its first token that is not accepted, so it is the one for
incorrect data iff this token is refused. -/
theorem firstRefused_iff (tokens : List LongToken) :
    FirstRefused c cmd tokens ↔ lineStatus c cmd 0 tokens = .incorrectParam := by
  rw [lineStatus_eq_incorrectParam]
  constructor
  · rintro ⟨m, token, htoken, hrefused, hbefore⟩
    refine ⟨m.val, m, token, (Nat.zero_add _).symm, htoken, hrefused, ?_⟩
    intro k m' token' hk hm' htoken'
    obtain rfl : k = m'.val := by omega
    exact hbefore m' token' hk htoken'
  · rintro ⟨k, m, token, hm, htoken, hrefused, hbefore⟩
    obtain rfl : k = m.val := by omega
    exact ⟨m, token, htoken, hrefused, fun m' token' hlt htoken' =>
      hbefore m'.val m' token' hlt (Nat.zero_add _).symm htoken'⟩

/-- The message of a dispatch with the status of incorrect data. -/
theorem commandOutput_incorrectParam {d : Terminal} (h : d.statusCmdParam = .incorrectParam) :
    commandOutput c d = some (.printf "Неккоректные данные  \r\n\r\n") := by
  simp only [commandOutput, h]

/-- A single dispatch rejects iff it has the status of incorrect data. The output of the line is
that of its dispatch, and the status decides whether it is a call or which message it is. -/
theorem rejects_iff {bytes : List UInt8} {d : Terminal} (hds : dispatches c t bytes = [d])
    (hidx : d.indexCmd = some i) (hentry : c.table.cmds[i]? = some cmd) :
    Rejects c t i bytes ↔ d.statusCmdParam = .incorrectParam := by
  have hout := run_output c t bytes
  rw [hds] at hout
  unfold Rejects
  rw [hout]
  constructor
  · rintro ⟨out, heq, hcall, hprint⟩
    obtain rfl := List.append_cancel_left heq
    obtain ⟨d', hd', hprint⟩ := List.mem_filterMap.mp hprint
    obtain rfl := List.mem_singleton.mp hd'
    cases hstatus : d'.statusCmdParam with
    | incorrectParam => rfl
    | norm =>
      have hcmd : d'.cmd? c = some cmd := by
        show d'.indexCmd.bind _ = some cmd
        rw [hidx]
        exact hentry
      simp [commandOutput, hstatus, hidx, hcmd] at hprint
    | overflow | dataIsEmpty | cmdNotLoaded | incorrectCmd =>
      simp [commandOutput, hstatus] at hprint
  · intro hstatus
    refine ⟨_, rfl, ?_, ?_⟩
    · simp [commandOutput_incorrectParam hstatus]
    · simp [commandOutput_incorrectParam hstatus]

/-- The name of the line is loaded. -/
theorem reads_name (c : Console) (t : Terminal) (line : LongLine) :
    ∃ t', Reads c (startCmd t) line.name t' [] ∧ t'.fsmDatPrc = .prcCmd ∧
      Loaded t' (line.name.take (maxSizeData - 1)) := by
  have hempty : Loaded (startCmd t) [] := ⟨rfl, fun _ hj => absurd hj (Nat.not_lt_zero _)⟩
  obtain ⟨buf, ix, hname, hload⟩ := reads_word (c := c) (.inl rfl) hempty (Nat.zero_le _)
    line.name_free
  exact ⟨_, hname, rfl, hload⟩

/-- The name as the buffer keeps it leaves room for the NUL. -/
theorem length_take_name (line : LongLine) :
    (line.name.take (maxSizeData - 1)).length < maxSizeData :=
  (List.length_take_le _ _).trans_lt (by decide)

/-- The line of a command with parameters is dispatched once. -/
theorem line_status (hfirst : First c.table.cmds i cmd line.cmdName)
    (hparams : 1 ≤ getNumCmdParam cmd) :
    ∃ d, dispatches c (startCmd t) line.bytes = [d] ∧
      d.statusCmdParam = lineStatus c cmd 0 line.tokens ∧ d.indexCmd = some i := by
  obtain ⟨t', hname, hfsm, hload⟩ := reads_name c t line
  have hpend := pending_name (c := c) hfsm hload (length_take_name line) hfirst hparams
  obtain ⟨d, hds, hstatus, hidx⟩ :=
    reads_body hfirst.entry line.tokens line.trailing line.last_ok hpend
  exact ⟨d, (hname.append ⟨rfl, hds⟩).2, hstatus, hidx⟩

/-- A command without parameters is called at the space after its name. The output of the line
begins with the call, which `Rejects` excludes. -/
theorem surplus_not_rejected (hfirst : First c.table.cmds i cmd line.cmdName)
    (hparams : getNumCmdParam cmd = 0) (htokens : line.tokens ≠ []) :
    ¬ Rejects c (startCmd t) i line.bytes := by
  obtain ⟨t', hname, hfsm, hload⟩ := reads_name c t line
  have hl := hfirst.lookupCmd (length_take_name line) hload
  obtain ⟨token, tokens, heq⟩ := List.exists_cons_of_ne_nil htokens
  have hrest : ∃ rest, line.bytes = line.name ++ ([0x20] ++ rest) :=
    ⟨List.replicate token.moreSpaces 0x20 ++ token.word.bytes ++
      (bodyBytes tokens line.trailing ++ [line.last]),
      by simp [LongLine.bytes, bodyBytes, LongToken.bytes, heq]⟩
  obtain ⟨rest, hrest⟩ := hrest
  -- the space behind the word dispatches a command without parameters at once
  have hdisp : dispatch? c t' 0x20 =
      some ({ lookupCmd c t' with statusCmdParam := .norm }, .stay) := by
    have hsome : (lookupCmd c t').indexCmd ≠ none := by rw [hl]; exact Option.some_ne_none i
    have hnum : ¬ (lookupCmd c t').numCmdParam > 0 := by rw [hl]; exact Nat.not_lt.mpr hparams.le
    simp only [dispatch?, hfsm]
    rw [if_neg (by decide), if_neg (by decide), if_pos trivial, if_pos hsome, if_neg hnum]
  generalize hd : ({ lookupCmd c t' with statusCmdParam := .norm } : Terminal) = d at hdisp
  -- so its handler runs before the first token has been read
  have hcalled : commandOutput c d = some (.call i (cmd.cmdHandlerCb.eval (d.read c))) := by
    refine commandOutput_called hfirst.entry (p := d.arPrm) ⟨?_, ?_, rfl⟩
    · rw [← hd]
    · rw [← hd, hl]
  have hrest' : Reads c t' ([0x20] ++ rest) _ _ := (reads_dispatch hdisp).append ⟨rfl, rfl⟩
  have hall := hname.append hrest'
  rintro ⟨out, hout, hcall, -⟩
  have hrun := run_output c (startCmd t) line.bytes
  rw [hrest, hall.2, ← hrest, hout] at hrun
  have hmem := List.append_cancel_left hrun
  refine hcall _ (hmem ▸ List.mem_filterMap.mpr ⟨d, ?_, hcalled⟩)
  exact List.mem_cons_self

/-- For every table, every command and every line that names it with more tokens than the
command has parameters: the line calls no handler of the command and is answered with the
message about incorrect data iff the command has parameters, and among the first five tokens
there is one that its slot does not accept, the first of which is not of the kind of its slot. -/
theorem surplus_rejected_iff (hfirst : First c.table.cmds i cmd line.cmdName)
    (hsurplus : getNumCmdParam cmd < line.tokens.length) :
    Rejects c (startCmd t) i line.bytes ↔
      1 ≤ getNumCmdParam cmd ∧ FirstRefused c cmd line.tokens := by
  by_cases hparams : 1 ≤ getNumCmdParam cmd
  · obtain ⟨d, hds, hstatus, hidx⟩ := line_status (t := t) hfirst hparams
    rw [rejects_iff hds hidx hfirst.entry, hstatus, firstRefused_iff]
    exact (and_iff_right hparams).symm
  · have hzero : getNumCmdParam cmd = 0 := by omega
    have htokens : line.tokens ≠ [] := List.ne_nil_of_length_pos (by omega)
    exact iff_of_false (surplus_not_rejected hfirst hzero htokens) fun h => hparams h.1

/-- The slot behind the last parameter has no type. The count ends at the first slot without a type,
or at the end of the array. -/
theorem cmdTypeParametr_getNumCmdParam (cmd : Cmd) (h : getNumCmdParam cmd < maxParam) :
    cmd.cmdTypeParametr ⟨getNumCmdParam cmd, h⟩ = .none := by
  have hnum : getNumCmdParam cmd =
      (List.ofFn cmd.cmdTypeParametr).findIdx fun type => decide (type = .none) := by
    rw [getNumCmdParam, List.takeWhile_eq_take_findIdx_not, List.length_take,
      min_eq_left List.findIdx_le_length]
    simp only [ne_eq, decide_not, Bool.not_not]
  have hlt : (List.ofFn cmd.cmdTypeParametr).findIdx (fun type => decide (type = .none)) <
      (List.ofFn cmd.cmdTypeParametr).length := by
    rw [← hnum, List.length_ofFn]
    exact h
  have hstop := List.findIdx_getElem (w := hlt)
  simpa only [List.getElem_ofFn, ← hnum, decide_eq_true_eq] using hstop

/-- A command with one to four parameters whose first tokens are accepted rejects one more
token, unless that token starts with a NUL. -/
theorem surplus_rejected (hfirst : First c.table.cmds i cmd line.cmdName)
    (hparams : 1 ≤ getNumCmdParam cmd) (hfour : getNumCmdParam cmd < maxParam)
    (hown : ∀ (m : Fin maxParam) (token : LongToken), m.val < getNumCmdParam cmd →
      line.tokens[m.val]? = some token → Accepted c (cmd.cmdTypeParametr m) token.word.cut)
    {token : LongToken} (htoken : line.tokens[getNumCmdParam cmd]? = some token)
    (hnul : token.word.bytes.head token.word.ne ≠ 0) :
    Rejects c (startCmd t) i line.bytes := by
  obtain ⟨d, hds, hstatus, hidx⟩ := line_status (t := t) hfirst hparams
  rw [rejects_iff hds hidx hfirst.entry, hstatus, ← firstRefused_iff]
  refine ⟨⟨getNumCmdParam cmd, hfour⟩, token, htoken, ?_, fun m' token' hlt => hown m' token' hlt⟩
  rw [cmdTypeParametr_getNumCmdParam cmd hfour]
  have hhead : token.word.cut.bytes.head token.word.cut.ne ≠ 0 := by
    have hsame : token.word.cut.bytes.head token.word.cut.ne =
        token.word.bytes.head token.word.ne := List.head_take _
    rw [hsame]
    exact hnul
  exact ⟨by simp [Accepted, value, hhead], rfl⟩

end Surplus

/-! ### Two commands -/

/-- The bytes are those of a word of any length. -/
def isLongWord (bytes : List UInt8) : Bool := !bytes.isEmpty && bytes.all isWordByte

/-- A text as a word. -/
def LongWord.ofText (text : String) (h : isLongWord (CStr.textBytes text) = true) : LongWord where
  bytes := CStr.textBytes text
  ne := by
    intro hnil
    rw [hnil] at h
    cases h
  free := by
    simp only [isLongWord, Bool.and_eq_true, List.all_eq_true] at h
    exact h.2

/-- The line `>name x x ..` with `n` tokens. -/
def lineOfXs (name : String) (h : (CStr.textBytes name).all isWordByte = true) (n : Nat) :
    LongLine where
  name := CStr.textBytes name
  name_free := List.all_eq_true.mp h
  tokens := List.replicate n ⟨0, .ofText "x" rfl⟩
  trailing := 0
  last := 0x0D
  last_ok := cr_ends_line

/-- The line `>led x x`, whose second token the command does not take. -/
theorem surplus_rejected_iff_led :
    Rejects console (startCmd Terminal.init) 2 (lineOfXs "led" rfl 2).bytes ↔
      1 ≤ getNumCmdParam ledCmd ∧ FirstRefused console ledCmd (lineOfXs "led" rfl 2).tokens :=
  surplus_rejected_iff (i := 2) ⟨rfl, rfl, by decide⟩ (by decide)

/-- A command with five parameters. -/
def fiveCmd : Cmd := { verCmd with cmdTypeParametr := fun _ => .string }

/-- A terminal with this command alone. -/
def fiveConsole : Console :=
  { verConsole with table := (addTerminalCmd { cmds := [], le := length_noCmds_le } fiveCmd).1 }

/-- `>ver x` for a command without parameters is not rejected, and neither are six tokens for
five parameters. -/
theorem surplus_called :
    (¬ ∀ (c : Console) (t : Terminal) (i : Nat) (cmd : Cmd) (line : LongLine),
      First c.table.cmds i cmd line.cmdName → getNumCmdParam cmd < line.tokens.length →
      Rejects c (startCmd t) i line.bytes) ∧
    ¬ Rejects fiveConsole (startCmd Terminal.init) 0 (lineOfXs "ver" rfl 6).bytes := by
  have hver : First verConsole.table.cmds 0 verCmd (lineOfXs "ver" rfl 1).cmdName :=
    ⟨rfl, rfl, by decide⟩
  constructor
  · intro h
    have hrej := h verConsole Terminal.init 0 verCmd _ hver (by decide)
    exact surplus_not_rejected hver rfl (List.cons_ne_nil _ _) hrej
  · rintro ⟨out, hout, hcall, -⟩
    have hrun : (run (terminalDataProcessing fiveConsole) (startCmd Terminal.init)
        (lineOfXs "ver" rfl 6).bytes).output = [.call 0 [.printf "V1.0.0\r\n"]] := by decide
    rw [hrun] at hout
    exact hcall _ (hout ▸ List.mem_singleton_self _)

end NucleoH743.CmdTrmnl
