import Mathlib.Data.List.TakeWhile
import NucleoH743.Proofs.CmdTrmnl.History

/-!
# `Proofs.CmdTrmnl.Delivery`: from a line to the parameters of its handler

A command line is `>`, the name of a command, and tokens with spaces between them. `deliver`
says what a token means for a parameter: its value under the declared type, or no value at
all. A token that starts with a NUL is an empty string for the terminal, which counts as a
parameter that was left out.

`dispatches` are the terminals with which a run calls `command_processing`. From the byte after
a word on, `Pending` says what the terminal does with that word, and `reads_tokens` follows
the tokens one by one.

The proof reads a line in three kinds of parts. Spaces before a word change nothing. The bytes of a
word are loaded, and `Loaded` says that the buffer holds them up to `index_dat`; when the buffer is
full, a byte is lost and nothing else happens. The separator behind a word converts it
(`procParametr_called`), and leads to the next parameter or to the dispatch. `Reads` says of a part
where it leads and which dispatches it has, and `Reads.append` puts the parts together.

That a token with a NUL counts as left out is the design of the code, which tests the first byte of
the buffer. The position of a command in the table is its number, so of two commands with one name
the first is called.

- `parameters_delivered`: a line whose tokens all convert calls the handler of its command once,
  with the values of the tokens. Another line calls no handler.
- `token_left_out`: a token that is a NUL, and a command behind another one with its name.
-/

set_option autoImplicit false

namespace NucleoH743.CmdTrmnl

open EventRun

/-! ### Lines -/

/-- The byte is part of a word. -/
def isWordByte (ch : UInt8) : Bool := !(ch = 0x20 || isEol ch || ch = 0x3E)

/-- A word that fits the buffer with its NUL. -/
structure Word where
  bytes : List UInt8
  ne : bytes ≠ []
  fits : bytes.length < maxSizeData
  free : ∀ ch ∈ bytes, isWordByte ch = true

/-- A token, with one space before it or more. -/
structure Token where
  moreSpaces : Nat
  word : Word

/-- The bytes of a token, its spaces included. -/
def Token.bytes (token : Token) : List UInt8 :=
  0x20 :: List.replicate token.moreSpaces 0x20 ++ token.word.bytes

/-- The rest of a line after a word: tokens, spaces and the byte that ends the line. -/
structure Rest where
  tokens : List Token
  trailing : Nat
  last : UInt8
  last_ok : isEol last = true ∨ last = 0x3E

/-- The bytes of the rest. -/
def Rest.bytes (rest : Rest) : List UInt8 :=
  rest.tokens.flatMap Token.bytes ++ List.replicate rest.trailing 0x20 ++ [rest.last]

/-- A command line with the name of its command. -/
structure CmdLine extends Rest where
  name : Word

/-- The bytes of the line. -/
def CmdLine.bytes (line : CmdLine) : List UInt8 :=
  0x3E :: line.name.bytes ++ line.toRest.bytes

/-! ### What a token means -/

section Values
variable (c : Console)

/-- The value of a string under an unsigned type of `n` bytes. -/
def uintValue (n : Nat) (str : List UInt8) : Option (List UInt8) :=
  (sscanfLu str).bind fun v => if v < 2 ^ (8 * n) then some (leBytes n v) else none

/-- The value of a string under a signed type of `n` bytes. -/
def intValue (n : Nat) (str : List UInt8) : Option (List UInt8) :=
  (sscanfLi str).bind fun v =>
    if v < 2 ^ (8 * n - 1) ∧ -2 ^ (8 * n - 1) ≤ v then some (leBytesInt n v) else none

/-- The bytes of the value that a string has under a type. -/
def value (type : TypeCmdPrmtr) (str : List UInt8) : Option (List UInt8) :=
  match type with
  | .uint8 => uintValue 1 str
  | .uint16 => uintValue 2 str
  | .uint32 => uintValue 4 str
  | .int8 => intValue 1 str
  | .int16 => intValue 2 str
  | .int32 => intValue 4 str
  | .double => (c.sscanfLa str).map fun bits => leBytes 8 bits.toNat
  | .char => if str.length = 1 then some str else none
  | .string => some ((str ++ List.replicate maxSizeData 0).take (maxSizeData - 1) ++ [0])
  | .none | .uint64 | .int64 | .float => none

/-- The parameter after a token: the default if the token is an empty string, else its value,
if it has one. -/
def deliver (type : TypeCmdPrmtr) (word : Word) (p : CmdParametr) : Option CmdParametr :=
  if word.bytes.head word.ne = 0 then some { p with flagDef := true }
  else (value c type (CStr.ofBytes word.bytes)).map fun bytes =>
    ({ p with flagDef := false } : CmdParametr).store bytes

end Values

/-! ### The conversion of a loaded word -/

/-- The buffer holds the word, and a NUL behind it. -/
structure Holds (buf : Fin maxSizeData → UInt8) (word : Word) : Prop where
  bytes : ∀ j : Fin maxSizeData, ∀ hj : j.val < word.bytes.length, buf j = word.bytes[j.val]
  nul : buf ⟨_, word.fits⟩ = 0

section Conversion
variable {c : Console} {buf : Fin maxSizeData → UInt8} {word : Word}

/-- The string in the buffer is the word, up to a NUL in it. -/
theorem Holds.ofBuf (h : Holds buf word) : CStr.ofBuf buf = CStr.ofBytes word.bytes :=
  CStr.ofBuf_word word.fits h.bytes h.nul

/-- The first byte of the buffer is the first one of the word. -/
theorem Holds.head (h : Holds buf word) : buf 0 = word.bytes.head word.ne := by
  rw [List.head_eq_getElem]
  exact h.bytes 0 (List.length_pos_iff.mpr word.ne)

/-- It is the first one of the string too, unless it is a NUL. -/
theorem Holds.head? (h : Holds buf word) (hhead : buf 0 ≠ 0) :
    (CStr.ofBytes word.bytes).head? = some (buf 0) := by
  rw [h.head] at hhead ⊢
  obtain ⟨bytes, ne, fits, free⟩ := word
  cases bytes with
  | nil => exact absurd rfl ne
  | cons a rest =>
    have ha : a ≠ 0 := hhead
    simp [CStr.ofBytes, ha]

/-- A string has one character iff the second byte of its buffer is the NUL. A longer string has a
second byte in front of the NUL. -/
theorem Holds.length_one (h : Holds buf word) (hhead : buf 0 ≠ 0) :
    buf 1 = 0 ↔ (CStr.ofBytes word.bytes).length = 1 := by
  rw [h.head] at hhead
  have hbytes := h.bytes 1
  have hnul := h.nul
  obtain ⟨bytes, ne, fits, free⟩ := word
  cases bytes with
  | nil => exact absurd rfl ne
  | cons a rest =>
    have ha : a ≠ 0 := hhead
    cases rest with
    | nil => simpa [CStr.ofBytes, ha] using hnul
    | cons b rest =>
      have hb : buf 1 = b := hbytes (Nat.succ_lt_succ (Nat.succ_pos _))
      rw [hb]
      by_cases hzero : b = 0
      · simp [CStr.ofBytes, ha, hzero]
      · simp [CStr.ofBytes, ha, hzero]

/-- The conversion has the result `r`, or none. -/
def Gives (result : StatCmd × CmdParametr) (r : Option CmdParametr) : Prop :=
  match r with
  | some p => result = (.norm, p)
  | none => result.1 ≠ .norm

/-- A conversion to an unsigned type stores the value of the string if it has one that fits, and
leaves the parameter alone if not. -/
theorem convertUint_gives (n : Nat) (str : List UInt8) (p : CmdParametr) :
    Gives (convertUint n str p) ((uintValue n str).map p.store) := by
  have hpow : 256 ^ n = 2 ^ (8 * n) := (pow_mul 2 8 n).symm
  unfold convertUint uintValue
  rw [hpow]
  cases sscanfLu str with
  | none => exact fun h => nomatch h
  | some v =>
    dsimp only [Option.bind]
    by_cases hv : v < 2 ^ (8 * n)
    · rw [if_pos hv, if_pos hv]
      rfl
    · rw [if_neg hv, if_neg hv]
      exact fun h => nomatch h

/-- So does one to a signed type. -/
theorem convertInt_gives (n : Nat) (str : List UInt8) (p : CmdParametr) :
    Gives (convertInt n str p) ((intValue n str).map p.store) := by
  unfold convertInt intValue
  cases sscanfLi str with
  | none => exact fun h => nomatch h
  | some v =>
    dsimp only [Option.bind]
    by_cases hv : v < 2 ^ (8 * n - 1) ∧ -2 ^ (8 * n - 1) ≤ v
    · rw [if_pos hv, if_pos hv]
      rfl
    · rw [if_neg hv, if_neg hv]
      exact fun h => nomatch h

/-- `get_parametr_cmd` on a loaded word. By the type of the slot: a number is what its conversion
gives, a character needs a string of length one, and a string is taken as it is. -/
theorem getParametrCmd_gives (h : Holds buf word) (type : TypeCmdPrmtr) (p : CmdParametr) :
    Gives (getParametrCmd c buf type p) (deliver c type word p) := by
  unfold deliver getParametrCmd
  rw [← h.head, h.ofBuf]
  by_cases hempty : buf 0 = 0
  · simp only [if_pos hempty]
    rfl
  · simp only [if_neg hempty]
    have hone := h.length_one hempty
    have hfirst := h.head? hempty
    generalize CStr.ofBytes word.bytes = str at hone hfirst
    cases type with
    | uint8 | uint16 | uint32 => exact convertUint_gives _ str _
    | int8 | int16 | int32 => exact convertInt_gives _ str _
    | double =>
      dsimp only [value]
      cases c.sscanfLa str with
      | none => exact fun h => nomatch h
      | some bits => rfl
    | char =>
      dsimp only [value]
      by_cases hlen : buf 1 = 0
      · obtain ⟨a, rfl⟩ := List.length_eq_one_iff.mp (hone.mp hlen)
        obtain rfl : a = buf 0 := Option.some.inj hfirst
        rw [if_pos hlen]
        rfl
      · rw [if_neg hlen, if_neg (mt hone.mpr hlen)]
        exact fun h => nomatch h
    | string => rfl
    | none | uint64 | int64 | float => exact fun h => nomatch h

end Conversion

/-! ### Reading a part of a line -/

section Reads
variable (c : Console)

/-- The terminals with which a run calls `command_processing`. -/
def dispatches : Terminal → List UInt8 → List Terminal
  | _, [] => []
  | t, ch :: bytes =>
    ((dispatch? c t ch).map Prod.fst).toList ++ dispatches (terminalDataProcessing c t ch) bytes

/-- What a step prints and calls comes from its dispatch. By the two parts of the step: a quiet one
prints nothing. -/
theorem step_output (t : Terminal) (ch : UInt8) :
    (terminalDataProcessing c t ch).output =
      t.output ++ ((dispatch? c t ch).map Prod.fst).toList.filterMap (commandOutput c) := by
  rw [terminalDataProcessing_eq]
  cases hd : dispatch? c t ch with
  | none => simp
  | some dn =>
    obtain ⟨d, next⟩ := dn
    rw [← dispatch?_output hd]
    dsimp only
    rw [commandProcessing_eq]
    cases ho : commandOutput c d with
    | none => simp [afterOutput, ho]
    | some o =>
      dsimp only [afterOutput]
      split_ifs <;> simp [Terminal.emit, ho]

/-- What a run prints and calls comes from its dispatches. -/
theorem run_output (t : Terminal) (bytes : List UInt8) :
    (run (terminalDataProcessing c) t bytes).output =
      t.output ++ (dispatches c t bytes).filterMap (commandOutput c) := by
  induction bytes generalizing t with
  | nil => simp [dispatches]
  | cons ch bytes ih =>
    rw [run_cons, ih, step_output, dispatches, List.filterMap_append, List.append_assoc]

/-- Reading `bytes` leads from `t` to `t'` and calls `command_processing` with `ds`. -/
def Reads (t : Terminal) (bytes : List UInt8) (t' : Terminal) (ds : List Terminal) : Prop :=
  run (terminalDataProcessing c) t bytes = t' ∧ dispatches c t bytes = ds

variable {c} {t t' t'' : Terminal}

/-- Reading nothing leads nowhere and calls nothing. -/
theorem reads_nil : Reads c t [] t [] := ⟨rfl, rfl⟩

/-- A byte that dispatches nothing. -/
theorem reads_quiet {ch : UInt8} (h : dispatch? c t ch = none) :
    Reads c t [ch] (quiet c t ch) [] := by
  constructor
  · show terminalDataProcessing c t ch = quiet c t ch
    rw [terminalDataProcessing_eq, h]
  · simp [dispatches, h]

/-- A byte that dispatches. -/
theorem reads_dispatch {ch : UInt8} {d : Terminal} {next : Follow}
    (h : dispatch? c t ch = some (d, next)) :
    Reads c t [ch] (afterOutput d next (commandOutput c d)) [d] := by
  constructor
  · show terminalDataProcessing c t ch = _
    rw [terminalDataProcessing_eq, h]
    exact commandProcessing_eq c d next
  · simp [dispatches, h]

/-- Where a byte leads to a dispatch. -/
theorem Reads.dispatch?_eq {ch : UInt8} {d : Terminal} (h : Reads c t [ch] t' [d]) :
    ∃ next, dispatch? c t ch = some (d, next) := by
  have hds := h.2
  simp only [dispatches, List.append_nil] at hds
  cases hd : dispatch? c t ch with
  | none =>
    rw [hd] at hds
    cases hds
  | some dn =>
    rw [hd] at hds
    obtain rfl : dn.1 = d := by simpa using hds
    exact ⟨dn.2, rfl⟩

/-- Reading two parts calls what the first calls and then what the second calls. -/
theorem Reads.append {bytes bytes' : List UInt8} {ds ds' : List Terminal}
    (h : Reads c t bytes t' ds) (h' : Reads c t' bytes' t'' ds') :
    Reads c t (bytes ++ bytes') t'' (ds ++ ds') := by
  obtain ⟨rfl, rfl⟩ := h
  obtain ⟨rfl, rfl⟩ := h'
  refine ⟨run_append _ _ _ _, ?_⟩
  induction bytes generalizing t with
  | nil => rfl
  | cons ch bytes ih =>
    show _ ++ dispatches c _ (bytes ++ bytes') = _
    rw [ih, dispatches, List.append_assoc]
    rfl

/-- Between two lines everything but `>` is skipped. -/
theorem reads_findCmd (ht : t.fsmDatPrc = .findCmd) {bytes : List UInt8} (hb : 0x3E ∉ bytes) :
    Reads c t bytes t [] := by
  induction bytes with
  | nil => exact reads_nil
  | cons ch bytes ih =>
    have hch : ch ≠ 0x3E := fun h => hb (h ▸ List.mem_cons_self)
    have hq : quiet c t ch = t := by simp [quiet, ht, hch]
    have hfirst : Reads c t [ch] (quiet c t ch) [] := reads_quiet (by simp [dispatch?, ht])
    rw [hq] at hfirst
    exact hfirst.append (ih fun h => hb (List.mem_cons_of_mem _ h))

/-- Spaces before a parameter are skipped. -/
theorem reads_spaces (ht : t.fsmDatPrc = .findPrm) (n : Nat) :
    Reads c t (List.replicate n 0x20) t [] := by
  induction n with
  | zero => exact reads_nil
  | succ n ih =>
    have hq : quiet c t 0x20 = t := by simp [quiet, ht]
    have hfirst : Reads c t [0x20] (quiet c t 0x20) [] :=
      reads_quiet (by simp [dispatch?, ht, isEol])
    rw [hq] at hfirst
    exact hfirst.append ih

end Reads

/-! ### Words -/

/-- The buffer holds the bytes of a word up to `index_dat`. -/
structure Loaded (t : Terminal) (w : List UInt8) : Prop where
  indexDat : t.indexDat.val = w.length
  bytes : ∀ j : Fin maxSizeData, ∀ hj : j.val < w.length, t.dataPrmCmd j = w[j.val]

section Words
variable {c : Console} {t : Terminal} {w : List UInt8}

/-- A byte with room for it is put behind the word. The bytes before the index stay, and the new one
is at the index. -/
theorem Loaded.load (h : Loaded t w) (hlen : w.length < maxSizeData - 1) (ch : UInt8) :
    Loaded (t.load ch) (w ++ [ch]) := by
  have hindex : t.indexDat.val < maxSizeData - 1 := by rw [h.indexDat]; exact hlen
  constructor
  · simp only [Terminal.load, dif_pos hindex, List.length_append, List.length_singleton]
    rw [h.indexDat]
  · intro j hj
    show Function.update t.dataPrmCmd t.indexDat ch j = _
    rw [List.length_append, List.length_singleton] at hj
    by_cases hlast : j.val = w.length
    · have hsame : j = t.indexDat := Fin.ext (hlast.trans h.indexDat.symm)
      subst hsame
      rw [Function.update_self]
      simp [hlast]
    · have hne : j ≠ t.indexDat := fun he => hlast (he ▸ h.indexDat)
      have hlt : j.val < w.length := by omega
      rw [Function.update_of_ne hne, h.bytes j hlt, List.getElem_append_left hlt]

/-- A byte for which there is no room changes nothing before `index_dat`. -/
theorem Loaded.load_full (h : Loaded t w) (hlen : w.length = maxSizeData - 1) (ch : UInt8) :
    Loaded (t.load ch) w := by
  have hindex : ¬ t.indexDat.val < maxSizeData - 1 := by rw [h.indexDat, hlen]; omega
  constructor
  · simp only [Terminal.load, dif_neg hindex]
    exact h.indexDat
  · intro j hj
    have hne : j ≠ t.indexDat := fun he => absurd hj (by rw [he, h.indexDat]; omega)
    show Function.update t.dataPrmCmd t.indexDat ch j = _
    rw [Function.update_of_ne hne, h.bytes j hj]

/-- The NUL behind the word leaves its bytes alone. -/
theorem Loaded.terminate_bytes (h : Loaded t w) (j : Fin maxSizeData) (hj : j.val < w.length) :
    t.terminate.dataPrmCmd j = w[j.val] := by
  have hne : j ≠ t.indexDat := fun he => absurd hj (by rw [he, h.indexDat]; omega)
  show Function.update t.dataPrmCmd t.indexDat 0 j = _
  rw [Function.update_of_ne hne, h.bytes j hj]

/-- The NUL stands right behind the word, which left a place for it. -/
theorem Loaded.terminate_nul (h : Loaded t w) (hlen : w.length < maxSizeData) :
    t.terminate.dataPrmCmd ⟨_, hlen⟩ = 0 := by
  have hindex : t.indexDat = ⟨w.length, hlen⟩ := Fin.ext h.indexDat
  show Function.update t.dataPrmCmd t.indexDat 0 _ = 0
  rw [hindex, Function.update_self]

/-- A word that is terminated. -/
theorem Loaded.holds {word : Word} (h : Loaded t word.bytes) :
    Holds t.terminate.dataPrmCmd word :=
  ⟨h.terminate_bytes, h.terminate_nul word.fits⟩

/-- The string of a word that is terminated. -/
theorem Loaded.ofBuf (h : Loaded t w) (hlen : w.length < maxSizeData) :
    CStr.ofBuf t.terminate.dataPrmCmd = CStr.ofBytes w :=
  CStr.ofBuf_word hlen h.terminate_bytes (h.terminate_nul hlen)

/-- The byte of a word is loaded, whether it is the name or a parameter. -/
theorem reads_wordByte (ht : t.fsmDatPrc = .prcCmd ∨ t.fsmDatPrc = .prcPrm) {ch : UInt8}
    (hch : isWordByte ch = true) : Reads c t [ch] (t.load ch) [] := by
  simp only [isWordByte, Bool.not_eq_true', Bool.or_eq_false_iff, decide_eq_false_iff_not] at hch
  obtain ⟨⟨hspace, heol⟩, hstart⟩ := hch
  have hd : dispatch? c t ch = none := by
    rcases ht with ht | ht <;> simp [dispatch?, ht, hspace, heol, hstart]
  have hq : quiet c t ch = t.load ch := by
    rcases ht with ht | ht <;> simp [quiet, ht, hspace]
  rw [← hq]
  exact reads_quiet hd

/-- The rest of a word is loaded as far as it fits, and nothing else happens. By induction on the
bytes, with the case of a full buffer. -/
theorem reads_word (ht : t.fsmDatPrc = .prcCmd ∨ t.fsmDatPrc = .prcPrm) (h : Loaded t w)
    (hlen : w.length ≤ maxSizeData - 1) {bytes : List UInt8}
    (hfree : ∀ ch ∈ bytes, isWordByte ch = true) :
    ∃ buf ix, Reads c t bytes { t with dataPrmCmd := buf, indexDat := ix } [] ∧
      Loaded { t with dataPrmCmd := buf, indexDat := ix }
        ((w ++ bytes).take (maxSizeData - 1)) := by
  induction bytes generalizing t w with
  | nil =>
    rw [List.append_nil, List.take_of_length_le hlen]
    exact ⟨t.dataPrmCmd, t.indexDat, reads_nil, h⟩
  | cons ch bytes ih =>
    have hfirst : Reads c t [ch] (t.load ch) [] := reads_wordByte ht (hfree ch List.mem_cons_self)
    have hrest : ∀ b ∈ bytes, isWordByte b = true :=
      fun b hb => hfree b (List.mem_cons_of_mem _ hb)
    by_cases hroom : w.length < maxSizeData - 1
    · obtain ⟨buf, ix, hreads, hloaded⟩ := ih (t := t.load ch) ht (h.load hroom ch)
        (by rw [List.length_append, List.length_singleton]; omega) hrest
      rw [List.append_assoc] at hloaded
      exact ⟨buf, ix, hfirst.append hreads, hloaded⟩
    · -- the buffer is full, and what is left of the word is lost
      have hfull : w.length = maxSizeData - 1 := by omega
      obtain ⟨buf, ix, hreads, hloaded⟩ := ih (t := t.load ch) ht (h.load_full hfull ch) hlen hrest
      rw [List.take_append_of_le_length hfull.ge] at hloaded ⊢
      exact ⟨buf, ix, hfirst.append hreads, hloaded⟩

end Words

/-! ### The separator after a word -/

/-- The terminal at the search for parameter `j` of the command `i`, with the parameters `p`
so far. -/
structure AtParam (i j : Nat) (p : Fin maxParam → CmdParametr) (t : Terminal) : Prop where
  fsm : t.fsmDatPrc = .findPrm
  indexCmd : t.indexCmd = some i
  indexParam : t.indexParam.val = j
  status : t.statusCmdParam = .norm
  arPrm : t.arPrm = p

/-- `command_processing` is called for the command `i` with the parameters `r`, or to report
an error. -/
def Called (i : Nat) (r : Option (Fin maxParam → CmdParametr)) (d : Terminal) : Prop :=
  match r with
  | some p => d.statusCmdParam = .norm ∧ d.indexCmd = some i ∧ d.arPrm = p
  | none => d.statusCmdParam ≠ .norm

/-- What the next byte does after a word, where `r` are the parameters with that word: the end
of the line dispatches, and a space leads to parameter `j` if there is such a parameter. -/
structure Pending (c : Console) (i j : Nat) (r : Option (Fin maxParam → CmdParametr))
    (t : Terminal) : Prop where
  last : ∀ ch, isEol ch = true ∨ ch = 0x3E → ∃ d t', Reads c t [ch] t' [d] ∧ Called i r d
  next : ∀ p, r = some p → j < maxParam → ∃ t', Reads c t [0x20] t' [] ∧ AtParam i j p t'
  stop : r = none ∨ ¬ j < maxParam →
    ∃ d t', Reads c t [0x20] t' [d] ∧ Called i r d ∧ t'.fsmDatPrc = .findCmd

section Separator
variable {c : Console} {t : Terminal} {i : Nat} {cmd : Cmd}

/-- After a dispatch at a space the terminal searches for a line. -/
theorem afterOutput_findCmd (d : Terminal) (o : Option Output) :
    (afterOutput d .findCmd o).fsmDatPrc = .findCmd := by
  cases o with
  | none => rfl
  | some o =>
    dsimp only [afterOutput]
    split_ifs <;> rfl

/-- The terminal at the end of a line, with its last word looked up or converted. -/
def atEnd (c : Console) (t : Terminal) : Terminal :=
  match t.fsmDatPrc with
  | .findCmd | .findPrm => t
  | .prcCmd => rejectUnknown (CmdTrmnl.lookupCmd c t)
  | .prcPrm => procParametr c t.terminate

/-- The end of a line dispatches, and so does the `>` of the next line. -/
theorem dispatch?_last (ht : t.fsmDatPrc ≠ .findCmd) {ch : UInt8}
    (hch : isEol ch = true ∨ ch = 0x3E) : ∃ next, dispatch? c t ch = some (atEnd c t, next) := by
  unfold dispatch? atEnd
  by_cases hstart : ch = 0x3E
  · refine ⟨.startCmd, ?_⟩
    cases hf : t.fsmDatPrc with
    | findCmd => exact absurd hf ht
    | prcCmd | findPrm | prcPrm => simp [hstart]
  · have heol := hch.resolve_right hstart
    refine ⟨.findCmd, ?_⟩
    cases hf : t.fsmDatPrc with
    | findCmd => exact absurd hf ht
    | prcCmd | findPrm | prcPrm => simp [hstart, heol]

/-- A dispatch behind a token converts the token. -/
theorem dispatch?_prcPrm_eq (ht : t.fsmDatPrc = .prcPrm) {ch : UInt8} {d : Terminal}
    {next : Follow} (h : dispatch? c t ch = some (d, next)) : d = procParametr c t.terminate := by
  simp only [dispatch?, ht] at h
  split_ifs at h <;> cases h <;> rfl

/-- A dispatch while the terminal searches for a parameter changes nothing before. -/
theorem dispatch?_findPrm_eq (ht : t.fsmDatPrc = .findPrm) {ch : UInt8} {d : Terminal}
    {next : Follow} (h : dispatch? c t ch = some (d, next)) : d = t := by
  simp only [dispatch?, ht] at h
  split_ifs at h <;> cases h <;> rfl

/-- The entry `i` of the table is the first one with the name. -/
structure First (cmds : List Cmd) (i : Nat) (cmd : Cmd) (name : List UInt8) : Prop where
  entry : cmds[i]? = some cmd
  name_eq : CStr.textBytes cmd.cmdName = name
  first : ∀ j < i, (cmds[j]?.map fun cmd' => CStr.textBytes cmd'.cmdName) ≠ some name

/-- `scan_cmd` returns the first entry with the name. -/
theorem First.scanCmd {name : List UInt8} {table : CmdTable}
    (h : First table.cmds i cmd name) :
    scanCmd (table.cmds.map Cmd.toCmdText) name = some i := by
  obtain ⟨hi, hcmd⟩ := List.getElem?_eq_some_iff.mp h.entry
  rw [CmdTrmnl.scanCmd, List.findIdx?_eq_some_iff_getElem]
  refine ⟨by rw [List.length_map]; exact hi, ?_, ?_⟩
  · simp [hcmd, h.name_eq]
  · intro j hj
    have hjlen : j < table.cmds.length := hj.trans hi
    have hne := h.first j hj
    rw [List.getElem?_eq_getElem hjlen] at hne
    simpa using fun heq => hne (congrArg some heq.symm)

/-- The end of the name finds the command. -/
theorem First.lookupCmd {w : List UInt8} (h : First c.table.cmds i cmd (CStr.ofBytes w))
    (hlen : w.length < maxSizeData) (hload : Loaded t w) :
    lookupCmd c t = { t.terminate with
      statusCmdParam := .norm
      indexCmd := some i
      numCmdParam := getNumCmdParam cmd } := by
  have hscan := h.scanCmd
  rw [← hload.ofBuf hlen] at hscan
  simp only [CmdTrmnl.lookupCmd, hscan, h.entry, Option.map_some, Option.getD_some]

/-- After the name no parameter has been given. The end of the name looks the command up, and by
`First` it is found at `i`. -/
theorem pending_name {w : List UInt8} (ht : t.fsmDatPrc = .prcCmd) (hload : Loaded t w)
    (hlen : w.length < maxSizeData) (h : First c.table.cmds i cmd (CStr.ofBytes w))
    (hparams : 0 < getNumCmdParam cmd) : Pending c i 0 (some t.arPrm) t := by
  have hl := h.lookupCmd hlen hload
  generalize hd : lookupCmd c t = d at hl
  have hrej : rejectUnknown d = d := by rw [hl]; rfl
  have hcalled : Called i (some t.arPrm) d := by rw [hl]; exact ⟨rfl, rfl, rfl⟩
  constructor
  · intro ch hch
    have hend : atEnd c t = d := by simp only [atEnd, ht, hd, hrej]
    obtain ⟨next, hdisp⟩ := dispatch?_last (c := c) (t := t) (by simp [ht]) hch
    rw [hend] at hdisp
    exact ⟨d, _, reads_dispatch hdisp, hcalled⟩
  · rintro p hp -
    obtain rfl := Option.some.inj hp
    refine ⟨{ d with indexParam := 0, fsmDatPrc := .findPrm }, ?_, ?_⟩
    · have hq : quiet c t 0x20 = { d with indexParam := 0, fsmDatPrc := .findPrm } := by
        simp [quiet, ht, hd]
      rw [← hq]
      refine reads_quiet ?_
      have hidx : d.indexCmd ≠ none := by rw [hl]; exact Option.some_ne_none i
      have hnum : d.numCmdParam > 0 := by rw [hl]; exact hparams
      simp [dispatch?, ht, hd, isEol, hidx, hnum]
    · rw [hl]
      exact ⟨rfl, rfl, rfl, rfl, rfl⟩
  · rintro (hnone | hfull)
    · cases hnone
    · exact absurd (by decide) hfull

/-- The separator converts the token. What the conversion gives decides whether the status is still
`STAT_NORM`. -/
theorem procParametr_called {word : Word} (hload : Loaded t word.bytes)
    (hidx : t.indexCmd = some i) (hentry : c.table.cmds[i]? = some cmd) :
    Called i
      ((deliver c (cmd.cmdTypeParametr t.indexParam) word (t.arPrm t.indexParam)).map
        (Function.update t.arPrm t.indexParam))
      (procParametr c t.terminate) := by
  have hgives := getParametrCmd_gives (c := c) hload.holds (cmd.cmdTypeParametr t.indexParam)
    (t.arPrm t.indexParam)
  have hcmd : t.terminate.cmd? c = some cmd := by
    show t.indexCmd.bind _ = some cmd
    rw [hidx]
    exact hentry
  have hp : procParametr c t.terminate =
      { t.terminate with
        statusCmdParam := (getParametrCmd c t.terminate.dataPrmCmd
          (cmd.cmdTypeParametr t.indexParam) (t.arPrm t.indexParam)).1
        arPrm := Function.update t.arPrm t.indexParam (getParametrCmd c t.terminate.dataPrmCmd
          (cmd.cmdTypeParametr t.indexParam) (t.arPrm t.indexParam)).2 } := by
    rw [procParametr, hcmd]
    rfl
  generalize getParametrCmd c t.terminate.dataPrmCmd (cmd.cmdTypeParametr t.indexParam)
    (t.arPrm t.indexParam) = result at hgives hp
  rw [hp]
  cases hr : deliver c (cmd.cmdTypeParametr t.indexParam) word (t.arPrm t.indexParam) with
  | none =>
    rw [hr] at hgives
    exact hgives
  | some q =>
    rw [hr] at hgives
    have hresult : result = (.norm, q) := hgives
    rw [hresult]
    exact ⟨rfl, hidx, rfl⟩

/-- After a token its parameter has been converted. In all three cases the conversion is the same,
and what follows it differs. -/
theorem pending_token {word : Word} (ht : t.fsmDatPrc = .prcPrm)
    (hload : Loaded t word.bytes) (hidx : t.indexCmd = some i)
    (hentry : c.table.cmds[i]? = some cmd) {m : Fin maxParam} (hm : t.indexParam = m)
    {p : Fin maxParam → CmdParametr} (harprm : t.arPrm = p) :
    Pending c i (m.val + 1)
      ((deliver c (cmd.cmdTypeParametr m) word (p m)).map (Function.update p m)) t := by
  subst hm harprm
  have hcalled := procParametr_called (c := c) hload hidx hentry
  have hparam : (procParametr c t.terminate).indexParam = t.indexParam :=
    procParametr_indexParam c t.terminate
  generalize hd : procParametr c t.terminate = d at hcalled hparam
  generalize (deliver c (cmd.cmdTypeParametr t.indexParam) word (t.arPrm t.indexParam)).map
    (Function.update t.arPrm t.indexParam) = r at hcalled ⊢
  -- behind the token there is the end of the line, another parameter, or a space too many
  constructor
  · intro ch hch
    have hend : atEnd c t = d := by simp only [atEnd, ht, hd]
    obtain ⟨next, hdisp⟩ := dispatch?_last (c := c) (t := t) (by simp [ht]) hch
    rw [hend] at hdisp
    exact ⟨d, _, reads_dispatch hdisp, hcalled⟩
  · intro p hsome hj
    rw [hsome] at hcalled
    obtain ⟨hnorm, hcmd', harprm⟩ := hcalled
    have hlt : d.indexParam.val < maxParam - 1 := by
      rw [hparam]
      show t.indexParam.val < maxParam - 1
      omega
    refine ⟨quiet c t 0x20, reads_quiet ?_, ?_⟩
    · have hlt4 : d.indexParam.val < 4 := hlt
      simp [dispatch?, ht, hd, isEol, hlt4, hnorm]
    · have hq : quiet c t 0x20 = { d with
          indexParam := ⟨d.indexParam + 1, by omega⟩
          fsmDatPrc := .findPrm } := by
        simp only [quiet, ht, hd, if_true, dif_pos hlt]
      rw [hq]
      exact ⟨rfl, hcmd', congrArg (·.val + 1) hparam, hnorm, harprm⟩
  · intro hstop
    have hdisp : dispatch? c t 0x20 = some (d, .findCmd) := by
      have hno : ¬ (d.indexParam.val < maxParam - 1 ∧ d.statusCmdParam = .norm) := by
        rintro ⟨hlt, hnorm⟩
        rcases hstop with hnone | hfull
        · rw [hnone] at hcalled
          exact hcalled hnorm
        · rw [hparam] at hlt
          omega
      have hno4 : ¬ (d.indexParam.val < 4 ∧ d.statusCmdParam = .norm) := hno
      simp only [dispatch?, ht, hd, isEol]
      simp [hno4]
    exact ⟨d, _, reads_dispatch hdisp, hcalled, afterOutput_findCmd d _⟩

end Separator

/-! ### The tokens of a line -/

section Tokens
variable (c : Console) (cmd : Cmd)

/-- The parameters after the tokens from parameter `j` on, if all are accepted. -/
def deliverAll : Nat → List Token → (Fin maxParam → CmdParametr) →
    Option (Fin maxParam → CmdParametr)
  | _, [], p => some p
  | j, token :: tokens, p =>
    if h : j < maxParam then
      (deliver c (cmd.cmdTypeParametr ⟨j, h⟩) token.word (p ⟨j, h⟩)).bind fun q =>
        deliverAll (j + 1) tokens (Function.update p ⟨j, h⟩ q)
    else none

/-- The bytes of the rest before its last one. -/
def Rest.body (rest : Rest) : List UInt8 :=
  rest.tokens.flatMap Token.bytes ++ List.replicate rest.trailing 0x20

/-- Nothing follows, or a space and more that starts no line. -/
def Tail (body : List UInt8) : Prop := body = [] ∨ ∃ rest, body = 0x20 :: rest ∧ 0x3E ∉ rest

/-- Tokens that each start with a space, and the spaces after them. None of the words holds a `>`,
so the rest of the line does not begin another one. -/
theorem tail_flatMap {α : Type*} {f : α → List UInt8}
    (h : ∀ a, ∃ word, f a = 0x20 :: word ∧ 0x3E ∉ word) (l : List α) (n : Nat) :
    Tail (l.flatMap f ++ List.replicate n 0x20) := by
  have hspaces (n : Nat) : 0x3E ∉ List.replicate n (0x20 : UInt8) :=
    fun hmem => absurd (List.eq_of_mem_replicate hmem) (by decide)
  have hfree (l : List α) : 0x3E ∉ l.flatMap f := by
    intro hmem
    obtain ⟨a, -, ha⟩ := List.mem_flatMap.mp hmem
    obtain ⟨word, hword, hno⟩ := h a
    rw [hword] at ha
    exact (List.mem_cons.mp ha).elim (by decide) hno
  cases l with
  | nil =>
    cases n with
    | zero => exact .inl rfl
    | succ n => exact .inr ⟨_, rfl, hspaces n⟩
  | cons a l =>
    obtain ⟨word, hword, hno⟩ := h a
    refine .inr ⟨word ++ l.flatMap f ++ List.replicate n 0x20, by simp [hword], ?_⟩
    simp only [List.mem_append, not_or]
    exact ⟨⟨hno, hfree l⟩, hspaces n⟩

/-- A word behind spaces starts no line. -/
theorem notMem_word {word : List UInt8} (hfree : ∀ ch ∈ word, isWordByte ch = true) (n : Nat) :
    0x3E ∉ List.replicate n (0x20 : UInt8) ++ word := by
  intro hmem
  rcases List.mem_append.mp hmem with hmem | hmem
  · exact absurd (List.eq_of_mem_replicate hmem) (by decide)
  · exact absurd (hfree _ hmem) (by decide)

/-- What follows a word in a line is empty, or begins with a space. -/
theorem Rest.tail (rest : Rest) : Tail rest.body :=
  tail_flatMap (f := Token.bytes)
    (fun token => ⟨_, rfl, notMem_word token.word.free token.moreSpaces⟩) _ _

variable {c cmd} {i j : Nat}

/-- Nothing of a line is dispatched once the terminal searches for the next one. -/
theorem reads_skipped {t : Terminal} (ht : t.fsmDatPrc = .findCmd) {body : List UInt8}
    (hbody : 0x3E ∉ body) (last : UInt8) : dispatches c t (body ++ [last]) = [] := by
  have hlast : Reads c t [last] (quiet c t last) [] := reads_quiet (by simp [dispatch?, ht])
  exact ((reads_findCmd ht hbody).append hlast).2

/-- After a token that has no value, or that fills the last parameter, the next byte dispatches
and the rest of the line is skipped. -/
theorem Pending.stops {r : Option (Fin maxParam → CmdParametr)} {t : Terminal}
    (h : Pending c i j r t) (hstop : r = none ∨ ¬ j < maxParam) {body : List UInt8}
    (hbody : Tail body) {last : UInt8} (hlast : isEol last = true ∨ last = 0x3E) :
    ∃ ch t' d, Reads c t [ch] t' [d] ∧ Called i r d ∧ dispatches c t (body ++ [last]) = [d] := by
  rcases hbody with rfl | ⟨rest, rfl, hfree⟩
  · obtain ⟨d, t', hreads, hcalled⟩ := h.last last hlast
    exact ⟨last, t', d, hreads, hcalled, hreads.2⟩
  · obtain ⟨d, t', hreads, hcalled, hfind⟩ := h.stop hstop
    have hskip := reads_skipped (c := c) hfind hfree last
    exact ⟨0x20, t', d, hreads, hcalled, (hreads.append ⟨rfl, hskip⟩).2⟩

/-- The end of a line while the terminal searches for a parameter. -/
theorem AtParam.last {p : Fin maxParam → CmdParametr} {t : Terminal} (h : AtParam i j p t)
    {ch : UInt8} (hch : isEol ch = true ∨ ch = 0x3E) :
    ∃ t', Reads c t [ch] t' [t] ∧ Called i (some p) t := by
  have hend : atEnd c t = t := by simp only [atEnd, h.fsm]
  obtain ⟨next, hdisp⟩ := dispatch?_last (c := c) (t := t) (by simp [h.fsm]) hch
  rw [hend] at hdisp
  exact ⟨_, reads_dispatch hdisp, h.status, h.indexCmd, h.arPrm⟩

/-- A token has been loaded for parameter `j`; `w` is what the buffer keeps of it. -/
structure InToken (i j : Nat) (p : Fin maxParam → CmdParametr) (w : List UInt8) (t : Terminal) :
    Prop where
  fsm : t.fsmDatPrc = .prcPrm
  loaded : Loaded t w
  indexCmd : t.indexCmd = some i
  indexParam : t.indexParam.val = j
  arPrm : t.arPrm = p

/-- A token is loaded. The blanks in front of it are passed over, its first byte goes to the start
of the buffer and the others behind it. What does not fit is dropped. -/
theorem AtParam.reads {p : Fin maxParam → CmdParametr} {t : Terminal} (h : AtParam i j p t)
    (n : Nat) {word : List UInt8} (hne : word ≠ [])
    (hfree : ∀ ch ∈ word, isWordByte ch = true) :
    ∃ t', Reads c t (List.replicate n 0x20 ++ word) t' [] ∧
      InToken i j p (word.take (maxSizeData - 1)) t' := by
  obtain ⟨b, bs, rfl⟩ := List.exists_cons_of_ne_nil hne
  have hword : isWordByte b = true := hfree b List.mem_cons_self
  simp only [isWordByte, Bool.not_eq_true', Bool.or_eq_false_iff,
    decide_eq_false_iff_not] at hword
  obtain ⟨⟨hspace, heol⟩, hstart⟩ := hword
  -- the first byte goes to the start of the buffer
  let t₁ : Terminal := { t with
    dataPrmCmd := Function.update t.dataPrmCmd 0 b
    indexDat := 1
    fsmDatPrc := .prcPrm }
  have hfirst : Reads c t [b] t₁ [] := by
    have hq : quiet c t b = t₁ := by simp [quiet, h.fsm, hspace, t₁]
    rw [← hq]
    exact reads_quiet (by simp [dispatch?, h.fsm, heol, hstart])
  have hload₁ : Loaded t₁ [b] := by
    refine ⟨rfl, fun k hk => ?_⟩
    have hzero : k = 0 := Fin.ext (Nat.lt_one_iff.mp hk)
    subst hzero
    show Function.update t.dataPrmCmd 0 b 0 = b
    rw [Function.update_self]
  obtain ⟨buf, ix, hreads, hload⟩ := reads_word (c := c) (t := t₁) (.inr rfl) hload₁
    (Nat.le_of_ble_eq_true rfl) fun ch hch => hfree ch (List.mem_cons_of_mem _ hch)
  exact ⟨{ t₁ with dataPrmCmd := buf, indexDat := ix },
    (reads_spaces h.fsm n).append (hfirst.append hreads),
    rfl, hload, h.indexCmd, h.indexParam, h.arPrm⟩

/-- A token is loaded, and its separator will convert it. -/
theorem AtParam.token {p : Fin maxParam → CmdParametr} {t : Terminal} (h : AtParam i j p t)
    (hj : j < maxParam) (hentry : c.table.cmds[i]? = some cmd) (n : Nat) (word : Word) :
    ∃ t', Reads c t (List.replicate n 0x20 ++ word.bytes) t' [] ∧
      Pending c i (j + 1)
        ((deliver c (cmd.cmdTypeParametr ⟨j, hj⟩) word (p ⟨j, hj⟩)).map
          (Function.update p ⟨j, hj⟩)) t' := by
  obtain ⟨t', hreads, hin⟩ := h.reads (c := c) n word.ne word.free
  have hload := hin.loaded
  rw [List.take_of_length_le (Nat.le_sub_one_of_lt word.fits)] at hload
  have hidx : t'.indexParam = ⟨j, hj⟩ := Fin.ext hin.indexParam
  exact ⟨t', hreads, pending_token hin.fsm hload hin.indexCmd hentry hidx hin.arPrm⟩

/-- No token follows a word that has been accepted. The end of the line dispatches the command with
the parameters as they are, and the blanks before it do nothing. -/
theorem Pending.blank {p : Fin maxParam → CmdParametr} {t : Terminal}
    (h : Pending c i j (some p) t) (n : Nat) {last : UInt8}
    (hlast : isEol last = true ∨ last = 0x3E) :
    ∃ d, dispatches c t (List.replicate n 0x20 ++ [last]) = [d] ∧ Called i (some p) d := by
  by_cases hj : j < maxParam
  · cases n with
    | zero =>
      obtain ⟨d, t', hreads, hcalled⟩ := h.last last hlast
      exact ⟨d, hreads.2, hcalled⟩
    | succ n =>
      obtain ⟨t', hreads, hat⟩ := h.next p rfl hj
      -- a line that ends in blanks has no further word
      obtain ⟨t'', hend, hcalled⟩ := hat.last (c := c) hlast
      exact ⟨t', (hreads.append ((reads_spaces hat.fsm n).append hend)).2, hcalled⟩
  · -- the last parameter ends the search for more
    have htail : Tail (List.replicate n 0x20) :=
      tail_flatMap (f := fun _ : Unit => [0x20]) (fun _ => ⟨[], rfl, List.not_mem_nil⟩) [] n
    obtain ⟨ch, t', d, -, hcalled, hds⟩ := h.stops (.inr hj) htail hlast
    exact ⟨d, hds, hcalled⟩

/-- The rest of a line after a word that has been accepted. By induction on the words, each of
which starts at the blank in front of it. A word that its type does not accept ends the delivery
for good. -/
theorem reads_tokens (hentry : c.table.cmds[i]? = some cmd) (rest : Rest) {t : Terminal}
    {p : Fin maxParam → CmdParametr} (h : Pending c i j (some p) t)
    (hlen : j + rest.tokens.length ≤ maxParam) :
    ∃ d, dispatches c t (rest.body ++ [rest.last]) = [d] ∧
      Called i (deliverAll c cmd j rest.tokens p) d := by
  -- the induction is on the words; each of them starts at the space in front of it
  obtain ⟨tokens, trailing, last, last_ok⟩ := rest
  induction tokens generalizing t p j with
  | nil => exact h.blank trailing last_ok
  | cons token tokens ih =>
    have hlen' : j + (tokens.length + 1) ≤ maxParam := hlen
    have hj : j < maxParam := by omega
    obtain ⟨t', hspace, hat⟩ := h.next p rfl hj
    obtain ⟨t'', hword, hpend⟩ := hat.token hj hentry token.moreSpaces token.word
    have htoken : Reads c t token.bytes t'' [] := hspace.append hword
    have hbytes : ∀ ds,
        dispatches c t'' ((Rest.mk tokens trailing last last_ok).body ++ [last]) = ds →
        dispatches c t ((Rest.mk (token :: tokens) trailing last last_ok).body ++ [last]) = ds := by
      intro ds hds
      have hall := htoken.append ⟨rfl, hds⟩
      have heq : (Rest.mk (token :: tokens) trailing last last_ok).body ++ [last] =
          token.bytes ++ ((Rest.mk tokens trailing last last_ok).body ++ [last]) := by
        simp [Rest.body]
      rw [heq]
      exact hall.2
    unfold deliverAll
    rw [dif_pos hj]
    -- a word that the type does not accept ends the delivery for good
    cases hdel : deliver c (cmd.cmdTypeParametr ⟨j, hj⟩) token.word (p ⟨j, hj⟩) with
    | none =>
      rw [hdel] at hpend
      have htail := (Rest.mk tokens trailing last last_ok).tail
      obtain ⟨ch, t₃, d, -, hcalled, hds⟩ := hpend.stops (.inl rfl) htail last_ok
      exact ⟨d, hbytes _ hds, hcalled⟩
    | some q =>
      rw [hdel] at hpend
      obtain ⟨d, hds, hcalled⟩ := ih hpend (by show j + 1 + tokens.length ≤ maxParam; omega)
      exact ⟨d, hbytes _ hds, hcalled⟩

/-- The token is an empty string, or it has a value. -/
def Accepted (c : Console) (type : TypeCmdPrmtr) (word : Word) : Prop :=
  word.bytes.head word.ne = 0 ∨ (value c type (CStr.ofBytes word.bytes)).isSome

/-- A token is delivered iff it is an empty string or has a value. -/
theorem deliver_isSome_iff (type : TypeCmdPrmtr) (word : Word) (p : CmdParametr) :
    (deliver c type word p).isSome ↔ Accepted c type word := by
  unfold deliver Accepted
  by_cases hempty : word.bytes.head word.ne = 0
  · simp [hempty]
  · simp [hempty]

/-- A parameter that no token reaches stays as it is, and any other gets its token. By induction on
the tokens: the first one decides its own parameter, and later ones leave it. -/
theorem deliverAll_eq_some {tokens : List Token} {p p' : Fin maxParam → CmdParametr}
    (h : deliverAll c cmd j tokens p = some p') (m : Fin maxParam) :
    (m.val < j → p' m = p m) ∧
    ∀ k, m.val = j + k →
      match tokens[k]? with
      | some token => deliver c (cmd.cmdTypeParametr m) token.word (p m) = some (p' m)
      | none => p' m = p m := by
  induction tokens generalizing j p with
  | nil =>
    obtain rfl := Option.some.inj h
    exact ⟨fun _ => rfl, fun k _ => rfl⟩
  | cons token tokens ih =>
    unfold deliverAll at h
    by_cases hj : j < maxParam
    · rw [dif_pos hj] at h
      obtain ⟨q, hq, hrest⟩ := Option.bind_eq_some_iff.mp h
      obtain ⟨hbefore, hat⟩ := ih hrest
      constructor
      · intro hm
        have hne : m ≠ ⟨j, hj⟩ := fun he => by rw [he] at hm; exact absurd hm (Nat.lt_irrefl j)
        rw [hbefore (by omega), Function.update_of_ne hne]
      · intro k hk
        cases k with
        | zero =>
          -- its own token, which later ones do not touch
          obtain rfl : m = ⟨j, hj⟩ := Fin.ext hk
          rw [hbefore (Nat.lt_succ_self j), Function.update_self]
          exact hq
        | succ k =>
          have hne : m ≠ ⟨j, hj⟩ := fun he => by
            have hmj : m.val = j := congrArg Fin.val he
            omega
          have htoken := hat k (by omega)
          rw [Function.update_of_ne hne] at htoken
          exact htoken
    · rw [dif_neg hj] at h
      cases h

/-- All tokens are accepted iff each is. By induction on the tokens. -/
theorem deliverAll_isSome_iff {tokens : List Token} {p : Fin maxParam → CmdParametr}
    (hlen : j + tokens.length ≤ maxParam) :
    (deliverAll c cmd j tokens p).isSome ↔
      ∀ (k : Nat) (m : Fin maxParam) (token : Token), m.val = j + k → tokens[k]? = some token →
        Accepted c (cmd.cmdTypeParametr m) token.word := by
  induction tokens generalizing j p with
  | nil => simp [deliverAll]
  | cons token tokens ih =>
    rw [List.length_cons] at hlen
    have hj : j < maxParam := by omega
    unfold deliverAll
    rw [dif_pos hj]
    constructor
    · -- each delivered token was accepted, the first here and the rest by induction
      intro h k m token' hm htoken
      obtain ⟨p', hp'⟩ := Option.isSome_iff_exists.mp h
      obtain ⟨q, hq, hrest⟩ := Option.bind_eq_some_iff.mp hp'
      cases k with
      | zero =>
        obtain rfl : m = ⟨j, hj⟩ := Fin.ext hm
        obtain rfl := Option.some.inj htoken
        exact (deliver_isSome_iff _ _ _).mp (Option.isSome_iff_exists.mpr ⟨q, hq⟩)
      | succ k =>
        have hall := (ih (p := Function.update p ⟨j, hj⟩ q) (by omega)).mp
          (Option.isSome_iff_exists.mpr ⟨p', hrest⟩)
        exact hall k m token' (by omega) htoken
    · intro h
      have hfirst := (deliver_isSome_iff (c := c) (cmd.cmdTypeParametr ⟨j, hj⟩) token.word
        (p ⟨j, hj⟩)).mpr (h 0 ⟨j, hj⟩ token rfl rfl)
      obtain ⟨q, hq⟩ := Option.isSome_iff_exists.mp hfirst
      rw [hq]
      exact (ih (by omega)).mpr fun k m token' hm htoken =>
        h (k + 1) m token' (by omega) htoken

end Tokens

/-! ### Lines -/

/-- No command has more parameters than there is room for. -/
theorem getNumCmdParam_le (cmd : Cmd) : getNumCmdParam cmd ≤ maxParam := by
  have hle := (List.takeWhile_sublist (· ≠ .none) (l := List.ofFn cmd.cmdTypeParametr)).length_le
  rw [List.length_ofFn] at hle
  exact hle

/-- An error is printed. -/
theorem commandOutput_error {c : Console} {d : Terminal} (h : d.statusCmdParam ≠ .norm) :
    ∃ text, commandOutput c d = some (.printf text) := by
  cases hs : d.statusCmdParam with
  | norm => exact absurd hs h
  | incorrectParam | overflow | dataIsEmpty | cmdNotLoaded | incorrectCmd =>
    simp only [commandOutput, hs]
    exact ⟨_, rfl⟩

/-- A call for accepted parameters calls the handler of the entry. -/
theorem commandOutput_called {c : Console} {i : Nat} {cmd : Cmd} {p : Fin maxParam → CmdParametr}
    {d : Terminal} (hentry : c.table.cmds[i]? = some cmd) (h : Called i (some p) d) :
    commandOutput c d = some (.call i (cmd.cmdHandlerCb.eval (d.read c))) := by
  obtain ⟨hnorm, hidx, -⟩ := h
  have hcmd : d.cmd? c = some cmd := by
    show d.indexCmd.bind _ = some cmd
    rw [hidx]
    exact hentry
  simp only [commandOutput, hnorm, hidx, hcmd]

/-- A line dispatches once, with the parameters that its tokens give. The parts of the line are read
one after the other. -/
theorem line_dispatches {c : Console} {t : Terminal} (ht : t.fsmDatPrc = .findCmd) {i : Nat}
    {cmd : Cmd} {line : CmdLine} (hfirst : First c.table.cmds i cmd line.name.bytes)
    (hnul : 0 ∉ line.name.bytes) (hparams : 0 < getNumCmdParam cmd)
    (htokens : 0 + line.tokens.length ≤ maxParam) :
    ∃ d, dispatches c t line.bytes = [d] ∧
      Called i (deliverAll c cmd 0 line.tokens (startCmd t).arPrm) d := by
  have hstart : Reads c t [0x3E] (startCmd t) [] := by
    have hq : quiet c t 0x3E = startCmd t := by simp [quiet, ht]
    rw [← hq]
    exact reads_quiet (by simp [dispatch?, ht])
  have hempty : Loaded (startCmd t) [] := ⟨rfl, fun _ hj => absurd hj (Nat.not_lt_zero _)⟩
  obtain ⟨buf, ix, hname, hload⟩ := reads_word (c := c) (.inl rfl) hempty (Nat.zero_le _)
    line.name.free
  rw [List.nil_append, List.take_of_length_le (Nat.le_sub_one_of_lt line.name.fits)] at hload
  have hstr := CStr.ofBytes_of_notMem hnul
  have hpend := pending_name (c := c) rfl hload line.name.fits (hstr ▸ hfirst) hparams
  obtain ⟨d, hds, hcalled⟩ := reads_tokens hfirst.entry line.toRest hpend htokens
  exact ⟨d, (hstart.append (hname.append ⟨rfl, hds⟩)).2, hcalled⟩

/-- For every table, from the search for a line: a line with the name of a command that declares
parameters, and with no more tokens than these. `i` is the first entry with the name.

If every token is an empty string or has a value of its type, the handler of the entry `i` is
called once and nothing else is printed or called. It finds each parameter with a token as
`deliver` says, and each other one marked as left out. If there is a token without a value,
an error is printed and no handler is called. -/
theorem parameters_delivered {c : Console} {t : Terminal} (ht : t.fsmDatPrc = .findCmd)
    {i : Nat} {cmd : Cmd} {line : CmdLine} (hfirst : First c.table.cmds i cmd line.name.bytes)
    (hnul : 0 ∉ line.name.bytes) (hparams : 1 ≤ getNumCmdParam cmd)
    (htokens : line.tokens.length ≤ getNumCmdParam cmd) :
    ((∀ (m : Fin maxParam) (token : Token), line.tokens[m.val]? = some token →
        Accepted c (cmd.cmdTypeParametr m) token.word) →
      ∃ d, dispatches c t line.bytes = [d] ∧
        (run (terminalDataProcessing c) t line.bytes).output =
          t.output ++ [.call i (cmd.cmdHandlerCb.eval (d.read c))] ∧
        ∀ m : Fin maxParam,
          match line.tokens[m.val]? with
          | some token =>
            deliver c (cmd.cmdTypeParametr m) token.word (t.arPrm m) = some (d.arPrm m)
          | none => d.arPrm m = { t.arPrm m with flagDef := true }) ∧
    (∀ (m : Fin maxParam) (token : Token), line.tokens[m.val]? = some token →
      ¬ Accepted c (cmd.cmdTypeParametr m) token.word →
      ∃ text, (run (terminalDataProcessing c) t line.bytes).output =
        t.output ++ [.printf text]) := by
  have hmax : 0 + line.tokens.length ≤ maxParam := by
    have := getNumCmdParam_le cmd
    omega
  obtain ⟨d, hall, hcalled⟩ := line_dispatches ht hfirst hnul hparams hmax
  have hout := run_output c t line.bytes
  rw [hall, List.filterMap_cons] at hout
  have hsome : (deliverAll c cmd 0 line.tokens (startCmd t).arPrm).isSome ↔ _ :=
    deliverAll_isSome_iff hmax
  constructor
  · intro hacc
    -- every token is accepted, so the delivery comes to its end
    obtain ⟨p', hp'⟩ := Option.isSome_iff_exists.mp (hsome.mpr fun k m token hm htoken =>
      hacc m token (by rw [hm, Nat.zero_add]; exact htoken))
    rw [hp'] at hcalled
    refine ⟨d, hall, ?_, ?_⟩
    · rw [hout, commandOutput_called hfirst.entry hcalled]
      rfl
    · intro m
      have hparam := (deliverAll_eq_some hp' m).2 m.val (Nat.zero_add _).symm
      rw [hcalled.2.2]
      exact hparam
  · intro m token htoken hbad
    -- one bad token is enough for the error
    have hnone : deliverAll c cmd 0 line.tokens (startCmd t).arPrm = none := by
      rw [← Option.not_isSome_iff_eq_none, hsome]
      exact fun h => hbad (h m.val m token (Nat.zero_add _).symm htoken)
    rw [hnone] at hcalled
    obtain ⟨text, htext⟩ := commandOutput_error (c := c) hcalled
    refine ⟨text, ?_⟩
    rw [hout, htext]
    rfl

/-! ### A full and an empty token -/

/-- The bytes are those of a word. -/
def isWord (bytes : List UInt8) : Bool :=
  !bytes.isEmpty && bytes.length < maxSizeData && bytes.all isWordByte

/-- The word of some bytes. -/
def Word.ofBytes (bytes : List UInt8) (h : isWord bytes = true) : Word where
  bytes := bytes
  ne := by
    intro hnil
    rw [hnil] at h
    cases h
  fits := by
    simp only [isWord, Bool.and_eq_true, decide_eq_true_eq] at h
    exact h.1.2
  free := by
    simp only [isWord, Bool.and_eq_true, List.all_eq_true] at h
    exact h.2

/-- A text as a word. -/
def Word.ofText (text : String) (h : isWord (CStr.textBytes text) = true) : Word :=
  .ofBytes (CStr.textBytes text) h

/-- A carriage return ends a line. -/
theorem cr_ends_line : isEol 0x0D = true ∨ (0x0D : UInt8) = 0x3E := .inl rfl

/-- `>damp fill  7 `, ended by a carriage return. -/
def dampFill : CmdLine where
  name := .ofText "damp" (by decide)
  tokens := [⟨0, .ofText "fill" (by decide)⟩, ⟨1, .ofText "7" (by decide)⟩]
  trailing := 1
  last := 0x0D
  last_ok := cr_ends_line

/-- The line `>damp fill 7`, whose command takes a mode and a number. Both tokens are accepted, and
the handler is called once, with them and with the defaults behind them. -/
theorem parameters_delivered_damp :
    ((∀ (m : Fin maxParam) (token : Token), dampFill.tokens[m.val]? = some token →
        Accepted console (dampCmd.cmdTypeParametr m) token.word) →
      ∃ d, dispatches console Terminal.init dampFill.bytes = [d] ∧
        (run (terminalDataProcessing console) Terminal.init dampFill.bytes).output =
          [] ++ [.call 5 (dampCmd.cmdHandlerCb.eval (d.read console))] ∧
        ∀ m : Fin maxParam,
          match dampFill.tokens[m.val]? with
          | some token => deliver console (dampCmd.cmdTypeParametr m) token.word
              (Terminal.init.arPrm m) = some (d.arPrm m)
          | none => d.arPrm m = { Terminal.init.arPrm m with flagDef := true }) ∧
    (∀ (m : Fin maxParam) (token : Token), dampFill.tokens[m.val]? = some token →
      ¬ Accepted console (dampCmd.cmdTypeParametr m) token.word →
      ∃ text, (run (terminalDataProcessing console) Terminal.init dampFill.bytes).output =
        [] ++ [.printf text]) :=
  parameters_delivered (c := console) (t := Terminal.init) (i := 5) rfl
    ⟨rfl, rfl, by decide⟩ (by decide) (by decide) (by decide)

/-- A line gives its parameters or calls no handler, where `conv` tells which words convert. -/
def GivesOrRejects (conv : TypeCmdPrmtr → Word → Prop) (c : Console) (t : Terminal) (cmd : Cmd)
    (line : CmdLine) : Prop :=
  ((∀ (m : Fin maxParam) (token : Token), line.tokens[m.val]? = some token →
      conv (cmd.cmdTypeParametr m) token.word) →
    ∃ d, dispatches c t line.bytes = [d] ∧ d.statusCmdParam = .norm ∧
      ∀ (m : Fin maxParam) (token : Token), line.tokens[m.val]? = some token →
        (d.arPrm m).flagDef = false) ∧
  (∀ (m : Fin maxParam) (token : Token), line.tokens[m.val]? = some token →
    ¬ conv (cmd.cmdTypeParametr m) token.word →
    ∀ d ∈ dispatches c t line.bytes, d.statusCmdParam ≠ .norm)

/-- A line whose only token is left out although a handler is called. The two halves exclude each
other: if the token converts, it should have been given, and if it does not, no handler should have
been called. -/
theorem not_givesOrRejects {conv : TypeCmdPrmtr → Word → Prop} {c : Console} {t : Terminal}
    {cmd : Cmd} {line : CmdLine} {token : Token} (htoken : line.tokens = [token])
    (rest : List (StatCmd × Bool))
    (h : (dispatches c t line.bytes).map (fun d => (d.statusCmdParam, (d.arPrm 0).flagDef)) =
      (.norm, true) :: rest) : ¬ GivesOrRejects conv c t cmd line := by
  rintro ⟨hgives, hrejects⟩
  obtain ⟨d, ds, hds, hd, -⟩ := List.map_eq_cons_iff.mp h
  obtain ⟨hnorm, hflag⟩ := Prod.mk.inj hd
  have hzero : line.tokens[(0 : Fin maxParam).val]? = some token := by rw [htoken]; rfl
  by_cases hconv : conv (cmd.cmdTypeParametr 0) token.word
  · have hall : ∀ (m : Fin maxParam) (token' : Token), line.tokens[m.val]? = some token' →
        conv (cmd.cmdTypeParametr m) token'.word := by
      intro m token' hm
      rw [htoken] at hm
      obtain ⟨hlt, heq⟩ := List.getElem?_eq_some_iff.mp hm
      obtain rfl : m = 0 := Fin.ext (Nat.lt_one_iff.mp hlt)
      obtain rfl : token = token' := heq
      exact hconv
    obtain ⟨d', hd', -, hgiven⟩ := hgives hall
    rw [hds] at hd'
    obtain rfl : d = d' := (List.cons.inj hd').1
    rw [hgiven 0 token hzero] at hflag
    cases hflag
  · refine hrejects 0 token hzero hconv d ?_ hnorm
    rw [hds]
    exact List.mem_cons_self

/-- `>led` with a NUL as its token. -/
def ledNul : CmdLine where
  name := .ofText "led" (by decide)
  tokens := [⟨0, .ofBytes [0] rfl⟩]
  trailing := 0
  last := 0x0D
  last_ok := cr_ends_line

/-- A command with the name of `verCmd` and a parameter. -/
def verCmd' : Cmd := { verCmd with cmdTypeParametr := ![.string, .none, .none, .none, .none] }

/-- A terminal with both commands. -/
def twiceConsole : Console :=
  { verConsole with table := (addTerminalCmd verConsole.table verCmd').1 }

/-- `>ver x` -/
def verX : CmdLine where
  name := .ofText "ver" (by decide)
  tokens := [⟨0, .ofText "x" (by decide)⟩]
  trailing := 0
  last := 0x0D
  last_ok := cr_ends_line

/-- Whatever it means that a token converts: a NUL is a token that is left out although the
handler is called. A command behind another one with its name does not get its parameters. -/
theorem token_left_out :
    (¬ ∃ conv : Console → TypeCmdPrmtr → Word → Prop,
      ∀ (c : Console) (t : Terminal) (i : Nat) (cmd : Cmd) (line : CmdLine),
        t.fsmDatPrc = .findCmd → First c.table.cmds i cmd line.name.bytes →
        0 ∉ line.name.bytes → 1 ≤ getNumCmdParam cmd →
        line.tokens.length ≤ getNumCmdParam cmd → GivesOrRejects (conv c) c t cmd line) ∧
    (¬ ∃ conv : Console → TypeCmdPrmtr → Word → Prop,
      ∀ (c : Console) (t : Terminal) (i : Nat) (cmd : Cmd) (line : CmdLine),
        t.fsmDatPrc = .findCmd → c.table.cmds[i]? = some cmd →
        CStr.textBytes cmd.cmdName = line.name.bytes →
        (∀ token ∈ line.tokens, 0 ∉ token.word.bytes) → 0 ∉ line.name.bytes →
        1 ≤ getNumCmdParam cmd → line.tokens.length ≤ getNumCmdParam cmd →
        GivesOrRejects (conv c) c t cmd line) := by
  constructor
  · rintro ⟨conv, h⟩
    have hled := h console Terminal.init 2 ledCmd ledNul rfl ⟨rfl, rfl, by decide⟩
      (by decide) (by decide) (by decide)
    exact not_givesOrRejects rfl [] (by decide) hled
  · rintro ⟨conv, h⟩
    have hver := h twiceConsole Terminal.init 1 verCmd' verX rfl rfl rfl (by decide)
      (by decide) (by decide) (by decide)
    exact not_givesOrRejects rfl [(.incorrectCmd, true)] (by decide) hver

end NucleoH743.CmdTrmnl
