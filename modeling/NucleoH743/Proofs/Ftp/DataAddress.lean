import NucleoH743.Proofs.Ftp.Arguments

/-!
# `Proofs.Ftp.DataAddress`: the address of the data connection

The 227 reply of `PASV` prints an address and a port as six decimal numbers, and `PORT` reads six
such numbers. The two are written apart from each other: `PASV` takes the bytes of `ipaddr` from the
low end up and splits the port at base 256, `PORT` takes tokens between any of five delimiters and
puts them together with shifts.

The proof that the two agree goes through the text. A number is printed as its digits, `atoi` reads
digits up to the first character that is none, and no digit is a delimiter, so the tokens of the
printed text are the printed numbers. What is left is arithmetic: the bytes of a word, in the order
that `PASV` prints them, are put together by the shifts of `PORT` to the same word, and the port
likewise.

`PORT` does not check what it has read. `atoi` turns any token into a number, the numbers are not
compared with 255, and a missing token is a null pointer that `atoi` follows. So a malformed
argument leads to a connection to some other address. The statement on this says exactly in which
case the server still refuses: `socket` has failed, and then it refuses a good argument as well.

- `pasv_port_codec`: what `PASV` prints, `PORT` reads as the same address and port.
- `port_validated_iff`: `PORT` asks nothing of its numbers, so a malformed argument is refused only
  where there is no socket for it anyway.
-/

set_option autoImplicit false

namespace NucleoH743.Ftp

open NucleoH743.FatFs
open CStr (textBytes)

/-! ### The six numbers -/

/-- The numbers in the parentheses of the 227 reply. -/
def pasvNumbers (ipaddr : UInt32) (pasvPort : UInt16) : List UInt8 :=
  let octet (i : UInt32) : List UInt8 := formatInt (ipaddr >>> i).toUInt8.toNat
  octet 0 ++ textBytes "," ++ octet 8 ++ textBytes "," ++ octet 16 ++ textBytes "," ++
    octet 24 ++ textBytes "," ++ formatInt (pasvPort / 256).toNat ++ textBytes "," ++
    formatInt (pasvPort % 256).toNat

/-- The reply of `PASV` prints them for the address of the server and its passive port. -/
theorem passiveMode_eq (o : Outcome) :
    passiveMode o = textBytes "227 Entering passive mode (" ++ pasvNumbers o.ipaddr ftpPassvPort ++
      textBytes ")\r\n" := by
  simp only [passiveMode, pasvNumbers, List.append_assoc]

/-- The address and the port that `PORT` makes of its argument. -/
def portTarget (o : Outcome) (s : List UInt8) : UInt32 × UInt16 :=
  let com (i : Nat) : Int := (portcom o (strtok (textBytes ".,;()") s)).getD i 0
  ((UInt32.ofInt (com 3) <<< 24) ||| (UInt32.ofInt (com 2) <<< 16) |||
    (UInt32.ofInt (com 1) <<< 8) ||| UInt32.ofInt (com 0),
    UInt16.ofInt (com 4 * 256 + com 5))

/-- What `PORT` does with its argument: it connects to this address and port, if there is a
socket. -/
theorem cmdPort_eq (o : Outcome) (q : Req) (s : List UInt8) :
    cmdPort o q (some s) =
      let r := (portRead o q (some s)).2.newFd o.socket
      let q' := { r.2 with conn := { r.2.conn with pasvSockfd := r.1 } }.emit (.socket r.1)
      if r.1 = -1 then
        let q' := (q'.reply cantOpen).close r.1
        { q' with conn := { q'.conn with pasvActive := false } }
      else portConnect o q' r.1 (portTarget o s).1 (portTarget o s).2 := rfl

/-! ### Printed numbers -/

/-- A digit as a byte. -/
theorem digit_byte {c : Char} (h : c.isDigit = true) :
    48 ≤ c.toNat.toUInt8 ∧ c.toNat.toUInt8 ≤ 57 ∧ c.toNat.toUInt8.toNat = c.toNat := by
  simp only [Char.isDigit, Bool.and_eq_true, decide_eq_true_eq, UInt32.le_iff_toNat_le] at h
  have hlo : 48 ≤ c.toNat := h.1
  have hhi : c.toNat ≤ 57 := h.2
  have hbyte : c.toNat.toUInt8.toNat = c.toNat := Nat.mod_eq_of_lt (by omega)
  rw [UInt8.le_iff_toNat_le, UInt8.le_iff_toNat_le, hbyte]
  exact ⟨hlo, hhi, rfl⟩

/-- Digits are read up to their end. -/
theorem digits_map {cs : List Char} (h : ∀ c ∈ cs, c.isDigit = true) (m : Nat) :
    digits m (cs.map fun c => c.toNat.toUInt8) = Nat.ofDigitChars 10 cs m := by
  induction cs generalizing m with
  | nil => rw [List.map_nil, digits, Nat.ofDigitChars_nil]
  | cons c cs ih =>
    -- a digit goes on, with its value as the next digit of the number
    obtain ⟨hlo, hhi, hbyte⟩ := digit_byte (h c List.mem_cons_self)
    rw [List.map_cons, digits, if_pos ⟨hlo, hhi⟩, hbyte, Nat.ofDigitChars_cons]
    exact ih (fun c hc => h c (List.mem_cons_of_mem _ hc)) _

/-- A number that is not negative is printed as its digits. -/
theorem formatInt_natCast (n : Nat) :
    formatInt (n : Nat) = (Nat.toDigits 10 n).map fun c => c.toNat.toUInt8 := by
  -- without a sign the text is that of the digits
  rw [formatInt, textBytes, Int.toString_eq_repr, Int.repr_eq_if, if_pos (Int.natCast_nonneg n),
    Int.toNat_natCast, Nat.repr, String.toList_ofList]

/-- A number is printed in digits. -/
theorem isDigit_toDigits {n : Nat} : ∀ c ∈ Nat.toDigits 10 n, c.isDigit = true :=
  fun _ hc => Nat.isDigit_of_mem_toDigits (by decide) (Nat.le_refl 10) hc

/-- At least one digit is printed. -/
theorem formatInt_ne_nil (n : Nat) : formatInt (n : Nat) ≠ [] := by
  rw [formatInt_natCast]
  exact List.map_eq_nil_iff.not.2 Nat.toDigits_ne_nil

/-- The bytes that are printed have the codes of digits. -/
theorem formatInt_digit {n : Nat} {b : UInt8} (hb : b ∈ formatInt (n : Nat)) : 48 ≤ b ∧ b ≤ 57 := by
  rw [formatInt_natCast] at hb
  obtain ⟨c, hc, rfl⟩ := List.mem_map.1 hb
  have hbyte := digit_byte (isDigit_toDigits c hc)
  exact ⟨hbyte.1, hbyte.2.1⟩

/-- Digits have no blank and no sign before them. So the value is that of the digits, up to the
largest `int`. -/
theorem atoi_digits {b : UInt8} (bs : List UInt8) (hb : 48 ≤ b ∧ b ≤ 57) :
    atoi (b :: bs) = min (digits 0 (b :: bs) : Int) (2 ^ 31 - 1) := by
  have hlo : 48 ≤ b.toNat := UInt8.le_iff_toNat_le.1 hb.1
  have hne : ∀ c : UInt8, c.toNat < 48 → b ≠ c := by
    rintro c hc rfl
    exact Nat.not_lt.2 hlo hc
  have hspace : isSpace b = false := by
    have hle : ¬ b ≤ 13 := fun h => by
      have hhi : b.toNat ≤ 13 := UInt8.le_iff_toNat_le.1 h
      omega
    simp [isSpace, hne 32 (by decide), hle]
  rw [atoi, List.dropWhile_cons_of_neg (by simp [hspace])]
  -- the two branches with a sign are not taken
  split
  · next h => exact absurd (List.cons.inj h).1 (hne 45 (by decide))
  · next h => exact absurd (List.cons.inj h).1 (hne 43 (by decide))
  · rfl

/-- A printed `int` is read as its value. -/
theorem atoi_formatInt {n : Nat} (hn : n < 2 ^ 31) : atoi (formatInt (n : Nat)) = (n : Nat) := by
  have hread : digits 0 (formatInt (n : Nat)) = n := by
    rw [formatInt_natCast, digits_map isDigit_toDigits]
    exact Nat.ofDigitChars_toDigits (by decide) (Nat.le_refl 10)
  cases htext : formatInt (n : Nat) with
  | nil => exact absurd htext (formatInt_ne_nil n)
  | cons b bs =>
    rw [atoi_digits bs (formatInt_digit (htext ▸ List.mem_cons_self)), ← htext, hread]
    omega

/-- A digit is no delimiter. -/
theorem digit_no_delimiter {b : UInt8} (hb : 48 ≤ b ∧ b ≤ 57) :
    (textBytes ".,;()").contains b = false := by
  have hdelim : textBytes ".,;()" = [46, 44, 59, 40, 41] := by decide
  have hlo : 48 ≤ b.toNat := UInt8.le_iff_toNat_le.1 hb.1
  have hhi : b.toNat ≤ 57 := UInt8.le_iff_toNat_le.1 hb.2
  rw [hdelim]
  simp [← UInt8.toNat_inj]
  omega

/-- A printed byte is read as its value, and has no delimiter in it. -/
theorem octet_text (n : Fin 256) : atoi (formatInt (n : Nat)) = (n : Nat) ∧
    formatInt (n : Nat) ≠ [] ∧
      ∀ b ∈ formatInt (n : Nat), (textBytes ".,;()").contains b = false :=
  ⟨atoi_formatInt (by omega), formatInt_ne_nil n,
    fun _ hb => digit_no_delimiter (formatInt_digit hb)⟩

/-- The first token ends at the first delimiter behind it. -/
theorem strtok_cons {delim t : List UInt8} {d : UInt8} (hd : delim.contains d = true) (h0 : t ≠ [])
    (ht : ∀ b ∈ t, delim.contains b = false) (rest : List UInt8) :
    strtok delim (t ++ d :: rest) = t :: strtok delim rest := by
  rw [strtok, strtok, List.splitOnP_append_cons_of_forall_mem ht d hd,
    List.filter_cons_of_pos (by simpa using h0)]

/-- Without a delimiter the text is one token. -/
theorem strtok_single {delim t : List UInt8} (h0 : t ≠ [])
    (ht : ∀ b ∈ t, delim.contains b = false) : strtok delim t = [t] := by
  rw [strtok, List.splitOnP_eq_singleton ht, List.filter_cons_of_pos (by simpa using h0),
    List.filter_nil]

/-- Six printed bytes with commas between them are read back. The tokens end at the commas, and none
of the digits is a delimiter. -/
theorem portcom_numbers (o : Outcome) (a b c d e f : Fin 256) :
    portcom o (strtok (textBytes ".,;()") (formatInt (a : Nat) ++ textBytes "," ++
      formatInt (b : Nat) ++ textBytes "," ++ formatInt (c : Nat) ++ textBytes "," ++
      formatInt (d : Nat) ++ textBytes "," ++ formatInt (e : Nat) ++ textBytes "," ++
      formatInt (f : Nat))) =
      [((a : Nat) : Int), (b : Nat), (c : Nat), (d : Nat), (e : Nat), (f : Nat)] := by
  have hcomma : textBytes "," = [44] := by decide
  have hdelim : (textBytes ".,;()").contains 44 = true := by decide
  have hcut (n : Fin 256) (rest : List UInt8) :
      strtok (textBytes ".,;()") (formatInt (n : Nat) ++ 44 :: rest) =
        formatInt (n : Nat) :: strtok (textBytes ".,;()") rest :=
    strtok_cons hdelim (octet_text n).2.1 (octet_text n).2.2 rest
  have hlast : strtok (textBytes ".,;()") (formatInt (f : Nat)) = [formatInt (f : Nat)] :=
    strtok_single (octet_text f).2.1 (octet_text f).2.2
  simp only [hcomma, List.append_assoc, List.cons_append, List.nil_append, hcut, hlast]
  have hread (n : Fin 256) : atoi (formatInt (n : Nat)) = (n : Nat) := (octet_text n).1
  simp [portcom, List.range_succ, hread]

/-- The low byte of a word, printed and read as an `int`. -/
theorem ofInt_octet (x : UInt32) : UInt32.ofInt (x.toUInt8.toNat : Nat) = x &&& 255 := by
  refine UInt32.toNat_inj.1 ?_
  have hand : x.toNat &&& 255 = x.toNat % 256 := Nat.and_two_pow_sub_one_eq_mod x.toNat 8
  rw [UInt32.toNat_and]
  show (UInt32.ofInt _).toNat = x.toNat &&& 255
  rw [hand, UInt32.ofInt, UInt32.toNat_ofNat']
  simp
  omega

/-- The four bytes of a word, put together again. Each byte is cut out, and goes back to its place.
By the bits. -/
theorem octets_word (a : BitVec 32) :
    ((a >>> 24 &&& 255#32) <<< 24) ||| ((a >>> 16 &&& 255#32) <<< 16) |||
      ((a >>> 8 &&& 255#32) <<< 8) ||| (a &&& 255#32) = a := by
  -- the mask has its lowest eight bits
  have h255 (j : Nat) : (255#32).getLsbD j = decide (j < 8) := by
    by_cases hj : j < 32
    · revert j
      decide
    · rw [BitVec.getLsbD_of_ge _ _ (by omega)]
      simp
      omega
  refine BitVec.eq_of_getLsbD_eq fun i hi => ?_
  simp only [BitVec.getLsbD_or, BitVec.getLsbD_and, BitVec.getLsbD_shiftLeft,
    BitVec.getLsbD_ushiftRight, h255]
  -- a bit comes from the byte that it lies in, and from no other
  by_cases h8 : i < 8
  · simp [h8, hi, show i < 16 by omega, show i < 24 by omega]
  by_cases h16 : i < 16
  · simp [h8, h16, hi, show i < 24 by omega, show i - 8 < 8 by omega,
      show 8 + (i - 8) = i by omega]
  by_cases h24 : i < 24
  · simp [h8, h16, h24, hi, show ¬ i - 8 < 8 by omega, show i - 16 < 8 by omega,
      show 16 + (i - 16) = i by omega]
  · simp [h8, h16, h24, hi, show ¬ i - 8 < 8 by omega, show ¬ i - 16 < 8 by omega,
      show i - 24 < 8 by omega, show 24 + (i - 24) = i by omega]

/-- What `PASV` prints for an address and a port, `PORT` reads as this address and port. Through the
whole way: the text of the reply, the tokens that `PORT` finds in it, and the shifts that put them
together. The order of the bytes is that of the code. -/
theorem pasv_port_codec (o : Outcome) (ipaddr : UInt32) (pasvPort : UInt16) :
    portTarget o (pasvNumbers ipaddr pasvPort) = (ipaddr, pasvPort) := by
  have hbyte (x : UInt32) : x.toUInt8.toNat < 256 := UInt8.toNat_lt _
  have hhigh : (pasvPort / 256).toNat < 256 := by
    have hport := pasvPort.toNat_lt
    rw [UInt16.toNat_div]
    exact Nat.div_lt_of_lt_mul (by simpa using hport)
  -- the two halves of the port are bytes as well
  have hlow : (pasvPort % 256).toNat < 256 := by
    rw [UInt16.toNat_mod]
    exact Nat.mod_lt _ (by decide)
  have hcom : portcom o (strtok (textBytes ".,;()") (pasvNumbers ipaddr pasvPort)) = _ :=
    portcom_numbers o ⟨_, hbyte (ipaddr >>> 0)⟩ ⟨_, hbyte (ipaddr >>> 8)⟩
      ⟨_, hbyte (ipaddr >>> 16)⟩ ⟨_, hbyte (ipaddr >>> 24)⟩ ⟨_, hhigh⟩ ⟨_, hlow⟩
  dsimp only [portTarget]
  rw [hcom]
  refine Prod.ext ?_ ?_
  · show (UInt32.ofInt ((ipaddr >>> 24).toUInt8.toNat : Nat) <<< 24) |||
      (UInt32.ofInt ((ipaddr >>> 16).toUInt8.toNat : Nat) <<< 16) |||
      (UInt32.ofInt ((ipaddr >>> 8).toUInt8.toNat : Nat) <<< 8) |||
      UInt32.ofInt ((ipaddr >>> 0).toUInt8.toNat : Nat) = ipaddr
    simp only [ofInt_octet]
    refine UInt32.toBitVec_inj.1 ?_
    exact octets_word ipaddr.toBitVec
  · show UInt16.ofInt (((pasvPort / 256).toNat : Nat) * 256 + ((pasvPort % 256).toNat : Nat)) =
      pasvPort
    have hport := pasvPort.toNat_lt
    refine UInt16.toNat_inj.1 ?_
    rw [UInt16.ofInt, UInt16.toNat_ofNat', UInt16.toNat_div, UInt16.toNat_mod]
    simp
    omega

/-! ### The check that is missing -/

/-- The argument is six decimal numbers from 0 to 255, with one delimiter between two of them. -/
def PortArg (s : List UInt8) : Prop :=
  (s.splitOnP ((textBytes ".,;()").contains ·)).length = 6 ∧
    ∀ f ∈ s.splitOnP ((textBytes ".,;()").contains ·),
      f ≠ [] ∧ (∀ b ∈ f, 48 ≤ b ∧ b ≤ 57) ∧ digits 0 f ≤ 255

instance : DecidablePred PortArg := fun _ =>
  have (f : List UInt8) : Decidable (∀ b ∈ f, 48 ≤ b ∧ b ≤ 57) := List.decidableBAll _ f
  inferInstanceAs (Decidable (_ ∧ _))

/-- The effect is a call of `send`. -/
def Effect.sends : Effect → Bool
  | .send _ _ _ => true
  | _ => false

/-- `PORT` is refused: one error reply is sent, no null pointer is followed, no socket is opened or
connected, and the data connection of the session is what it was. -/
structure PortRefused (q q' : Req) : Prop where
  reply : ∃ text, IsError text ∧
    q'.out.filter Effect.sends = [.send q.conn.sockfd (text.take 255) text.length]
  safe : .nullPtr ∉ q'.out
  socket : ∀ fd, .socket fd ∈ q'.out → fd = -1
  connect : ∀ fd addr port ok, .connect fd addr port ok ∉ q'.out
  pasvSockfd : q'.conn.pasvSockfd = q.conn.pasvSockfd
  pasvActive : q'.conn.pasvActive = q.conn.pasvActive
  pasvPort : q'.conn.pasvPort = q.conn.pasvPort

/-- There is no socket for the data connection: `socket` fails. -/
def NoSocket (o : Outcome) (sockets : Int → Bool) : Prop :=
  ∀ fd : Nat, o.socket = some fd → sockets fd = true

/-- What `PORT` reads and prints. -/
theorem portRead_eq_out (o : Outcome) (q : Req) (s : List UInt8) :
    (portRead o q (some s)).2 = { q with out := q.out ++ portEffects o (some s) } := by
  dsimp only [portRead, Req.param, portEffects, nullParam, Option.getD_some, portText]
  split
  · next h => simp [h, Req.spare, Req.emit]
  · next h => simp [h, Req.spare, Req.emit]

/-- The descriptor of the data socket. -/
theorem newFd_eq_neg_one_iff (q : Req) (n : Option Nat) :
    (q.newFd n).1 = -1 ↔ ∀ fd : Nat, n = some fd → q.sockets fd = true := by
  unfold Req.newFd
  cases n with
  | none => simp
  | some fd =>
    dsimp only
    split
    · next h => simp [h]
    · next h =>
      refine iff_of_false (fun heq => ?_) (fun hall => h (hall fd rfl))
      have hneg : (fd : Int) = -1 := heq
      omega

/-- Without a socket, `PORT` says so and marks the session. The number -1 goes into `pasv_sockfd`,
and the reply is the error. -/
theorem cmdPort_noSocket {o : Outcome} {q : Req} (h : NoSocket o q.sockets) (s : List UInt8) :
    cmdPort o q (some s) =
      { vol := q.vol
        sockets := Function.update q.sockets (-1) false
        conn := { q.conn with pasvSockfd := -1, pasvActive := false }
        out := q.out ++ portEffects o (some s) ++
          [.socket (-1), .send q.conn.sockfd (cantOpen.take 255) cantOpen.length,
            .close (-1)] } := by
  have hfd : ({ q with out := q.out ++ portEffects o (some s) } : Req).newFd o.socket =
      (-1, { q with out := q.out ++ portEffects o (some s) }) := by
    -- the descriptor would have to be one that is in use
    rcases newFd_cases { q with out := q.out ++ portEffects o (some s) } o.socket with hno | hyes
    · exact hno
    · obtain ⟨fd, -, hyes⟩ := hyes
      have hneg := (newFd_eq_neg_one_iff { q with out := q.out ++ portEffects o (some s) }
        o.socket).2 h
      rw [hyes] at hneg
      exact absurd hneg (by simp)
  have hne : cantOpen ≠ [] := by decide
  rw [cmdPort_eq, portRead_eq_out, hfd]
  dsimp only
  rw [if_pos rfl]
  simp [Req.reply, doSendReply, hne, Req.emit, Req.close]

/-- Connecting only adds to the effects. -/
theorem mem_portConnect {o : Outcome} (q : Req) (fd : Int) (addr : UInt32) (port : UInt16)
    {e : Effect} (he : e ∈ q.out) : e ∈ (portConnect o q fd addr port).out := by
  have hkeeps : Keeps (fun _ => False) q (portConnect o q fd addr port) :=
    keeps_portConnect o q (fun h => h) addr port
  exact hkeeps.out.subset he

/-- With a socket, `PORT` opens it. -/
theorem cmdPort_socket {o : Outcome} {q : Req} (h : ¬ NoSocket o q.sockets) (s : List UInt8) :
    ∃ fd : Int, fd ≠ -1 ∧ .socket fd ∈ (cmdPort o q (some s)).out := by
  have hfd : ¬ (({ q with out := q.out ++ portEffects o (some s) } : Req).newFd o.socket).1 = -1 :=
    fun heq => h ((newFd_eq_neg_one_iff { q with out := q.out ++ portEffects o (some s) } _).1 heq)
  refine ⟨_, hfd, ?_⟩
  rw [cmdPort_eq, portRead_eq_out]
  dsimp only
  rw [if_neg hfd]
  exact mem_portConnect _ _ _ _ (List.mem_append_right _ (List.mem_singleton_self _))

/-- `PORT` follows a null pointer iff there are fewer than six tokens. -/
theorem nullPtr_mem_portEffects (o : Outcome) (s : List UInt8) :
    .nullPtr ∈ portEffects o (some s) ↔ (strtok (textBytes ".,;()") s).length < 6 := by
  dsimp only [portEffects, nullParam, Option.getD_some]
  split
  · next h => simp [h]
  · next h => simp [h]

/-- Neither reading nor printing the numbers is a call. -/
theorem portEffects_quiet (o : Outcome) (s : List UInt8) :
    (portEffects o (some s)).filter Effect.sends = [] ∧
      ∀ e ∈ portEffects o (some s), e.calls = false := by
  dsimp only [portEffects, nullParam, Option.getD_some]
  split <;> simp [Effect.sends, Effect.calls]

/-- A malformed argument of `PORT` is refused iff there are six tokens, no socket for it, and no
data connection before. The numbers are never compared with anything, so that it is the failure of
`socket` that refuses them. With fewer than six tokens a null pointer is followed first. -/
theorem port_validated_iff (o : Outcome) (vol : Volume) (sockets : Int → Bool) (conn : Conn)
    (s : List UInt8) :
    (¬ PortArg s →
      PortRefused { vol, sockets, conn } (cmdPort o { vol, sockets, conn } (some s))) ↔
      PortArg s ∨
        6 ≤ (strtok (textBytes ".,;()") s).length ∧ NoSocket o sockets ∧
          conn.pasvSockfd = -1 ∧ conn.pasvActive = false := by
  by_cases harg : PortArg s
  · exact iff_of_true (absurd harg) (.inl harg)
  refine (forall_prop_of_true harg).trans (Iff.trans ?_ (or_iff_right harg).symm)
  by_cases hsock : NoSocket o sockets
  · have hport := cmdPort_noSocket (q := { vol, sockets, conn }) hsock s
    obtain ⟨hsends, hcalls⟩ := portEffects_quiet o s
    rw [hport]
    constructor
    · intro h
      refine ⟨?_, hsock, h.pasvSockfd.symm, h.pasvActive.symm⟩
      by_contra hlt
      -- with fewer tokens a null pointer is followed
      have hnull := (nullPtr_mem_portEffects o s).2 (Nat.not_le.1 hlt)
      exact h.safe (List.mem_append_left _ (List.mem_append_right _ hnull))
    · rintro ⟨hlen, -, hfd, hactive⟩
      have hnull : .nullPtr ∉ portEffects o (some s) :=
        fun h => absurd ((nullPtr_mem_portEffects o s).1 h) (Nat.not_lt.2 hlen)
      exact {
        reply := ⟨cantOpen, by decide, by simp [hsends, List.filter_cons, Effect.sends]⟩
        safe := by simpa using hnull
        socket := by
          intro fd hmem
          rcases List.mem_append.1 hmem with hmem | hmem
          · exact absurd (hcalls _ hmem) (by simp [Effect.calls])
          · simpa using hmem
        connect := by
          intro fd addr port ok hmem
          rcases List.mem_append.1 hmem with hmem | hmem
          · exact absurd (hcalls _ hmem) (by simp [Effect.calls])
          · simp at hmem
        pasvSockfd := hfd.symm
        pasvActive := hactive.symm
        pasvPort := rfl }
  -- a socket is opened, whatever the numbers are
  · refine iff_of_false (fun h => ?_) (fun h => hsock h.2.1)
    obtain ⟨fd, hne, hmem⟩ := cmdPort_socket (q := { vol, sockets, conn }) hsock s
    exact hne (h.socket fd hmem)

/-- `PORT 1,2,3` follows a null pointer, and `PORT 300,0,0,1,4,1` connects to `44.1.0.1`. -/
theorem port_unvalidated :
    (¬ ∀ (o : Outcome) (vol : Volume) (sockets : Int → Bool) (conn : Conn),
      ¬ PortArg (textBytes "1,2,3") → PortRefused { vol, sockets, conn }
        (cmdPort o { vol, sockets, conn } (some (textBytes "1,2,3")))) ∧
    ¬ ∀ (o : Outcome) (vol : Volume) (sockets : Int → Bool) (conn : Conn),
      ¬ PortArg (textBytes "300,0,0,1,4,1") → PortRefused { vol, sockets, conn }
        (cmdPort o { vol, sockets, conn } (some (textBytes "300,0,0,1,4,1"))) := by
  constructor
  · intro h
    have hrefused := h {} emptyDisk (fun _ => false) rootConn (by decide)
    exact hrefused.safe (by decide)
  · intro h
    have hrefused := h { socket := some 5 } emptyDisk (fun _ => false) rootConn (by decide)
    exact hrefused.connect 5 0x0100012c 1025 true (by decide +kernel)

end NucleoH743.Ftp
