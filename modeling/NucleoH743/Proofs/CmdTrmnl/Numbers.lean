import NucleoH743.Lib.Numeral
import NucleoH743.Proofs.CmdTrmnl.History

/-!
# `Proofs.CmdTrmnl.Numbers`: the number parameters

`get_parametr_cmd` leaves the text of a number to `sscanf`, `%lu` for the unsigned types and `%li`
for the signed ones. Both read as far as they can and leave the rest, so a token that only begins
with a number is accepted. `%lu` takes a sign, and it saturates, which the check of the 8- and
16-bit types notices and that of the 32-bit type does not. `%li` takes a leading zero for octal.

Both theorems compare the code with what a number parameter should mean, stated on the text of the
token and without `sscanf`: a decimal numeral has the value of its digits, and any other text is
refused. What `sscanf` does is reduced to the digits of the token first (`sscanfLu_numeral`,
`sscanfLi_numeral`). The comparison of `%lu` with the numeral is then one of bounds, and that of
`%li` one of bases, for which `Numeral.value_takeWhile_eq_iff` is the reason.

The types of 8 and 16 bits are smaller than a `long`, so a value that is too large is still there
after `sscanf` and the code notices it. The type of 32 bits is a `long` itself.

- `uint_conversion_iff`: the tokens on which an unsigned conversion is right.
- `int_agrees_iff`: the numerals that have the same value under both types of a width.
-/

set_option autoImplicit false

namespace NucleoH743.CmdTrmnl

/-! ### Numerals -/

/-- The byte is a decimal digit. -/
def isDigit (c : UInt8) : Bool := 48 ≤ c ∧ c ≤ 57

/-- The string is a decimal numeral, which may have leading zeros. -/
def isNumeral (str : List UInt8) : Bool := !str.isEmpty && str.all isDigit

/-- The digits of a numeral. -/
def digitValues (str : List UInt8) : List Nat := str.map fun c => c.toNat - 48

/-- The value of a numeral. -/
def decimalValue (str : List UInt8) : Nat := Numeral.value 10 (digitValues str)

/-- The string begins with a digit. -/
def startsWithDigit (str : List UInt8) : Bool := str.head?.any isDigit

/-- The string behind the blanks and the sign that `sscanf` skips. -/
def unsignedPart (str : List UInt8) : List UInt8 := (sign (str.dropWhile isspace)).2

/-- The number that the low `n` bytes of the union hold, as an unsigned type reads it. -/
def CmdParametr.uint (p : CmdParametr) (n : Nat) : Nat :=
  Nat.ofDigits 256 ((List.range n).map fun i => (p.raw i).toNat)

/-- The same as a signed type reads it. -/
def CmdParametr.int (p : CmdParametr) (n : Nat) : Int := (p.uint n : Int).bmod (2 ^ (8 * n))

section Digits
variable {c : UInt8} {str : List UInt8}

/-- A digit by its code. -/
theorem isDigit_iff : isDigit c = true ↔ 48 ≤ c.toNat ∧ c.toNat ≤ 57 := by
  simp [isDigit, UInt8.le_iff_toNat_le]

/-- A decimal digit is a digit of every base here, with its own value. -/
theorem digit_of_isDigit (h : isDigit c = true) : digit c = some (c.toNat - 48) := by
  have hc : 48 ≤ c ∧ c ≤ 57 := by simpa [isDigit] using h
  rw [digit, if_pos hc]

/-- The letters are no digits of a base up to ten. -/
theorem digit_large (h : isDigit c = false) {d : Nat} (hd : digit c = some d) : 10 ≤ d := by
  have hc : ¬ (48 ≤ c ∧ c ≤ 57) := by simpa [isDigit] using h
  rw [digit, if_neg hc] at hd
  split_ifs at hd with hlow hup
  · have hle : 97 ≤ c.toNat := UInt8.le_iff_toNat_le.1 hlow.1
    have hval : c.toNat - 87 = d := Option.some.inj hd
    omega
  · have hle : 65 ≤ c.toNat := UInt8.le_iff_toNat_le.1 hup.1
    have hval : c.toNat - 55 = d := Option.some.inj hd
    omega

/-- A string of digits is read up to the first one that the base does not have. By induction on the
string. -/
theorem digits_numeral (h : str.all isDigit = true) (base : Nat) :
    digits base str = (digitValues str).takeWhile (· < base) := by
  induction str with
  | nil => rfl
  | cons c str ih =>
    rw [List.all_cons, Bool.and_eq_true] at h
    rw [digits, digit_of_isDigit h.1, ih h.2]
    show _ = ((c.toNat - 48) :: digitValues str).takeWhile (· < base)
    rw [List.takeWhile_cons]
    by_cases hlt : c.toNat - 48 < base
    · simp [hlt]
    · simp [hlt]

/-- Every digit is one of base ten. -/
theorem takeWhile_digitValues (h : str.all isDigit = true) :
    (digitValues str).takeWhile (· < 10) = digitValues str := by
  rw [List.takeWhile_eq_self_iff]
  intro d hd
  obtain ⟨c, hc, rfl⟩ := List.mem_map.1 hd
  have hdigit := isDigit_iff.1 (List.all_eq_true.1 h c hc)
  simp
  omega

/-- The number that starts a string is that of its digits. -/
theorem number_eq (base : Nat) (str : List UInt8) (h : digits base str ≠ []) :
    number base str = some (Numeral.value base (digits base str)) := by
  unfold number
  cases hds : digits base str with
  | nil => exact absurd hds h
  | cons d ds =>
    dsimp only
    rw [Numeral.value_eq_foldl, Nat.zero_mul, Nat.zero_add]

/-- There is a decimal number at the start of a string iff it begins with a digit. A byte that is no
decimal digit is no digit for `digit`, or one that is too large for the base. -/
theorem number_eq_none_iff (str : List UInt8) :
    number 10 str = none ↔ startsWithDigit str = false := by
  cases str with
  | nil => decide
  | cons c str =>
    show number 10 (c :: str) = none ↔ isDigit c = false
    by_cases hc : isDigit c = true
    · have hlt : c.toNat - 48 < 10 := by
        have := isDigit_iff.1 hc
        omega
      have hds : digits 10 (c :: str) = (c.toNat - 48) :: digits 10 str := by
        rw [digits, digit_of_isDigit hc]
        exact if_pos hlt
      rw [number_eq 10 _ (by rw [hds]; exact List.cons_ne_nil _ _)]
      simp [hc]
    · have hc' : isDigit c = false := by simpa using hc
      have hds : digits 10 (c :: str) = [] := by
        rw [digits]
        cases hd : digit c with
        | none => rfl
        | some d => exact if_neg (Nat.not_lt.2 (digit_large hc' hd))
      rw [number, hds]
      simp [hc']

end Digits

section Numeral
variable {str : List UInt8}

/-- Every byte of a numeral is a digit. -/
theorem isNumeral_all (h : isNumeral str = true) : str.all isDigit = true :=
  (Bool.and_eq_true_iff.1 h).2

/-- A numeral has no blank and no sign before it. Blanks and signs have codes below those of the
digits. -/
theorem sign_numeral (h : isNumeral str = true) :
    sign (str.dropWhile isspace) = (false, str) := by
  cases str with
  | nil => cases h
  | cons c str =>
    have hc := isNumeral_all h
    rw [List.all_cons, Bool.and_eq_true, isDigit_iff] at hc
    have hne : ∀ d : UInt8, d.toNat < 48 → c ≠ d := by
      rintro d hd rfl
      omega
    have hspace : isspace c = false := by
      have hle : ¬ c ≤ 13 := fun h => by
        have := UInt8.le_iff_toNat_le.1 h
        have : c.toNat ≤ 13 := this
        omega
      simp [isspace, hne 32 (by decide), hle]
    rw [List.dropWhile_cons_of_neg (by simp [hspace])]
    unfold sign
    split
    · next heq => exact absurd (List.cons.inj heq).1 (hne 45 (by decide))
    · next heq => exact absurd (List.cons.inj heq).1 (hne 43 (by decide))
    · rfl

/-- A numeral has a digit. -/
theorem digitValues_ne_nil (h : isNumeral str = true) : digitValues str ≠ [] := by
  cases str with
  | nil => cases h
  | cons c str => exact List.cons_ne_nil _ _

/-- `%lu` reads a numeral, and saturates. There is no sign to skip, and all bytes are digits of the
number. -/
theorem sscanfLu_numeral (h : isNumeral str = true) :
    sscanfLu str = some (min (decimalValue str) (2 ^ 32 - 1)) := by
  have hds : digits 10 str = digitValues str := by
    rw [digits_numeral (isNumeral_all h), takeWhile_digitValues (isNumeral_all h)]
  have hnum : number 10 str = some (decimalValue str) := by
    rw [number_eq 10 str (by rw [hds]; exact digitValues_ne_nil h), hds]
    rfl
  unfold sscanfLu
  rw [sign_numeral h]
  dsimp only
  rw [hnum]
  dsimp only
  by_cases hlarge : 2 ^ 32 ≤ decimalValue str
  · rw [if_pos hlarge, Nat.min_eq_right (by omega)]
  · rw [if_neg hlarge, Nat.min_eq_left (by omega)]
    rfl

/-- `%lu` reads nothing iff behind the blanks and the sign there is no digit. -/
theorem sscanfLu_eq_none_iff (str : List UInt8) :
    sscanfLu str = none ↔ startsWithDigit (unsignedPart str) = false := by
  rw [← number_eq_none_iff, sscanfLu, unsignedPart]
  rcases sign (str.dropWhile isspace) with ⟨neg, rest⟩
  dsimp only
  cases number 10 rest with
  | none => simp
  | some v =>
    dsimp only
    split_ifs <;> simp

/-- `%li` reads the octal digits behind a leading zero. -/
def liValue (str : List UInt8) : Nat :=
  if str.head? = some 48 then Numeral.value 8 ((digitValues str).takeWhile (· < 8))
  else decimalValue str

/-- Without a leading zero the base is ten. -/
theorem numberI_decimal {b : UInt8} (hb : b ≠ 48) (bs : List UInt8) :
    numberI (b :: bs) = number 10 (b :: bs) := by
  unfold numberI
  split
  · next heq => exact absurd (List.cons.inj heq).1 hb
  · next heq => exact absurd (List.cons.inj heq).1 hb
  · next heq => exact absurd (List.cons.inj heq).1 hb
  · rfl

/-- With one it is eight, since no digit is an `x`. A zero that no `x` follows makes the base
eight. -/
theorem numberI_octal {bs : List UInt8} (h : bs.all isDigit = true) :
    numberI (48 :: bs) = number 8 (48 :: bs) := by
  have hx : ∀ (b : UInt8) (rest : List UInt8), 57 < b.toNat → bs ≠ b :: rest := by
    rintro b rest hb rfl
    rw [List.all_cons, Bool.and_eq_true, isDigit_iff] at h
    omega
  unfold numberI
  split
  · next heq => exact absurd (List.cons.inj heq).2 (hx 120 _ (by decide))
  · next heq => exact absurd (List.cons.inj heq).2 (hx 88 _ (by decide))
  · next heq =>
    obtain ⟨-, rfl⟩ := List.cons.inj heq
    rfl
  · next hno => exact absurd rfl (hno bs)

/-- `%li` reads a numeral as decimal, or as octal where it begins with a zero. By the first
digit. -/
theorem numberI_numeral (h : isNumeral str = true) : numberI str = some (liValue str) := by
  cases str with
  | nil => cases h
  | cons b bs =>
    have hall := isNumeral_all h
    have hds := digits_numeral hall
    by_cases hb : b = 48
    · subst hb
      rw [List.all_cons, Bool.and_eq_true] at hall
      have hne : digits 8 (48 :: bs) ≠ [] := by
        rw [hds]
        exact List.cons_ne_nil _ _
      rw [numberI_octal hall.2, number_eq 8 _ hne, hds]
      rfl
    · have hne : digits 10 (b :: bs) ≠ [] := by
        rw [hds, takeWhile_digitValues hall]
        exact List.cons_ne_nil _ _
      rw [numberI_decimal hb, number_eq 10 _ hne, hds, takeWhile_digitValues hall]
      have hhead : ¬ (b :: bs).head? = some 48 := fun heq => hb (Option.some.inj heq)
      rw [liValue, if_neg hhead]
      rfl

/-- The value is cut to the largest `long`. -/
theorem sscanfLi_numeral (h : isNumeral str = true) :
    sscanfLi str = some (min (liValue str : Int) (2 ^ 31 - 1)) := by
  unfold sscanfLi
  rw [sign_numeral h]
  dsimp only
  rw [numberI_numeral h]
  rfl

/-- The octal number is never the larger one. -/
theorem liValue_le (str : List UInt8) : liValue str ≤ decimalValue str := by
  unfold liValue
  split_ifs
  · have hprefix := Numeral.value_prefix_le (by decide : 0 < 8)
      (List.takeWhile_prefix (p := (· < 8)) (l := digitValues str))
    have hbase := Numeral.value_base_le (by decide : 8 ≤ 10) (digitValues str)
    exact Nat.le_trans hprefix hbase
  · exact Nat.le_refl _

/-- It is the same one without a leading zero, and below eight. -/
theorem liValue_eq_iff (str : List UInt8) :
    liValue str = decimalValue str ↔ str.head? ≠ some 48 ∨ decimalValue str < 8 := by
  unfold liValue
  split_ifs with hzero
  · have hiff := Numeral.value_takeWhile_eq_iff (by decide : 0 < 8) (by decide : 8 < 10)
      (digitValues str)
    rw [or_iff_right (not_not.2 hzero)]
    exact hiff
  · simp [hzero]

end Numeral

/-! ### The unions -/

section Union
variable (p : CmdParametr)

/-- What a conversion stores is read back. -/
theorem uint_store (n v : Nat) : (p.store (leBytes n v)).uint n = v % 256 ^ n := by
  rw [← Numeral.value_bytes]
  show Nat.ofDigits 256 ((List.range n).map fun i => ((leBytes n v).getD i (p.raw i)).toNat) = _
  refine congrArg (Nat.ofDigits 256) (List.map_congr_left ?_)
  intro i hi
  have hlt : i < n := List.mem_range.1 hi
  have hget : (leBytes n v).getD i (p.raw i) = (v / 256 ^ i % 256).toUInt8 := by
    simp [leBytes, hlt]
  rw [hget]
  exact Nat.mod_eq_of_lt (Nat.mod_lt _ (by decide))

/-- So is a number of a signed type that is not negative. -/
theorem int_store {n v : Nat} (hn : 0 < n) (hv : v < 2 ^ (8 * n - 1)) :
    (p.store (leBytesInt n v)).int n = v := by
  have hpow : 2 ^ (8 * n) = 2 * 2 ^ (8 * n - 1) := by
    rw [← Nat.pow_succ', show (8 * n - 1).succ = 8 * n by omega]
  have h256 : 256 ^ n = 2 ^ (8 * n) := (Nat.pow_mul 2 8 n).symm
  have hbytes : leBytesInt n v = leBytes n v := by
    rw [leBytesInt, show ((v : Int) % 2 ^ (8 * n)).toNat = v by
      rw [Int.emod_eq_of_lt (Int.natCast_nonneg v) (by exact_mod_cast (by omega : v < 2 ^ (8 * n)))]
      exact Int.toNat_natCast v]
  rw [CmdParametr.int, hbytes, uint_store, h256, Nat.mod_eq_of_lt (by omega)]
  exact Int.bmod_eq_of_le (by omega) (by omega)

end Union

/-! ### Unsigned types -/

/-- What the conversion of a string to an unsigned type of `n` bytes should give: the value of a
numeral, an overflow if the type does not have it, and an error for every other string. -/
def UintRight (n : Nat) (str : List UInt8) (r : StatCmd × CmdParametr) : Prop :=
  if isNumeral str then
    if decimalValue str < 2 ^ (8 * n) then r.1 = .norm ∧ r.2.uint n = decimalValue str
    else r.1 = .overflow
  else r.1 = .incorrectParam

instance (n : Nat) (str : List UInt8) (r : StatCmd × CmdParametr) : Decidable (UintRight n str r) :=
  inferInstanceAs (Decidable (ite _ _ _))

/-- The string is a numeral, which for 32 bits must be in range, or there is no digit behind its
blanks and its sign. -/
def UintReadable (n : Nat) (str : List UInt8) : Prop :=
  if isNumeral str then n = 4 → decimalValue str < 2 ^ 32
  else startsWithDigit (unsignedPart str) = false

instance (n : Nat) (str : List UInt8) : Decidable (UintReadable n str) :=
  inferInstanceAs (Decidable (ite _ _ _))

/-- A numeral is converted right, except that 32 bits have no overflow. Above `2 ^ 32` the scanned
value is cut, which only the widest type does not notice; below it the comparison with the type is
the one that should be made. -/
theorem convertUint_numeral {n : Nat} (hn : n = 1 ∨ n = 2 ∨ n = 4) {str : List UInt8}
    (h : isNumeral str = true) (p : CmdParametr) :
    UintRight n str (convertUint n str p) ↔ (n = 4 → decimalValue str < 2 ^ 32) := by
  have h256 : 256 ^ n = 2 ^ (8 * n) := (Nat.pow_mul 2 8 n).symm
  unfold UintRight convertUint
  rw [sscanfLu_numeral h, if_pos h]
  dsimp only
  rw [h256]
  by_cases hlarge : 2 ^ 32 ≤ decimalValue str
  · -- `%lu` gives the largest number, which only the 32-bit type has
    rw [Nat.min_eq_right (by omega)]
    rcases hn with rfl | rfl | rfl
    · rw [if_neg (show ¬ decimalValue str < 2 ^ (8 * 1) by omega), if_neg (by decide)]
      exact iff_of_true rfl fun h => absurd h (by decide)
    · rw [if_neg (show ¬ decimalValue str < 2 ^ (8 * 2) by omega), if_neg (by decide)]
      exact iff_of_true rfl fun h => absurd h (by decide)
    · rw [if_neg (show ¬ decimalValue str < 2 ^ (8 * 4) by omega), if_pos (by decide)]
      have hnorm : StatCmd.norm ≠ StatCmd.overflow := by decide
      exact iff_of_false hnorm fun h => absurd (h rfl) (by omega)
  · rw [Nat.min_eq_left (by omega)]
    have hsmall : n = 4 → decimalValue str < 2 ^ 32 := fun _ => by omega
    by_cases hv : decimalValue str < 2 ^ (8 * n)
    · rw [if_pos hv, if_pos hv]
      have hstore : (p.store (leBytes n (decimalValue str))).uint n = decimalValue str := by
        rw [uint_store, h256, Nat.mod_eq_of_lt hv]
      exact iff_of_true ⟨rfl, hstore⟩ hsmall
    · rw [if_neg hv, if_neg hv]
      exact iff_of_true rfl hsmall

/-- Any other string is refused iff `%lu` finds no number. -/
theorem convertUint_other (n : Nat) {str : List UInt8} (h : isNumeral str = false)
    (p : CmdParametr) :
    UintRight n str (convertUint n str p) ↔ startsWithDigit (unsignedPart str) = false := by
  rw [← sscanfLu_eq_none_iff, UintRight, if_neg (by simp [h]), convertUint]
  cases sscanfLu str with
  | none => simp
  | some v =>
    dsimp only
    split_ifs <;> simp

/-- The conversion to an unsigned type. -/
theorem getParametrCmd_uint (c : Console) {buf : Fin maxSizeData → UInt8} (hbuf : buf 0 ≠ 0)
    {type : TypeCmdPrmtr} (htype : type = .uint8 ∨ type = .uint16 ∨ type = .uint32)
    (p : CmdParametr) :
    getParametrCmd c buf type p =
      convertUint type.width (CStr.ofBuf buf) { p with flagDef := false } := by
  unfold getParametrCmd
  rw [if_neg hbuf]
  rcases htype with rfl | rfl | rfl <;> rfl

/-- For every token that is not empty and every unsigned type: the conversion is right iff the token
is a numeral, in range if the type has 32 bits, or `%lu` finds no digit in it. By whether the token
is a numeral. -/
theorem uint_conversion_iff (c : Console) {buf : Fin maxSizeData → UInt8} (hbuf : buf 0 ≠ 0)
    {type : TypeCmdPrmtr} (htype : type = .uint8 ∨ type = .uint16 ∨ type = .uint32)
    (p : CmdParametr) :
    UintRight type.width (CStr.ofBuf buf) (getParametrCmd c buf type p) ↔
      UintReadable type.width (CStr.ofBuf buf) := by
  have hwidth : type.width = 1 ∨ type.width = 2 ∨ type.width = 4 := by
    rcases htype with rfl | rfl | rfl
    · exact .inl rfl
    · exact .inr (.inl rfl)
    · exact .inr (.inr rfl)
  rw [getParametrCmd_uint c hbuf htype, UintReadable]
  cases hnum : isNumeral (CStr.ofBuf buf) with
  | true =>
    rw [if_pos rfl]
    exact convertUint_numeral hwidth hnum _
  | false =>
    rw [if_neg Bool.false_ne_true]
    exact convertUint_other _ hnum _

/-- A buffer that holds a text. -/
def bufOf (text : String) (j : Fin maxSizeData) : UInt8 := (CStr.textBytes text).getD j 0

/-- A parameter that no line has written to. -/
def noParam : CmdParametr := { flagDef := true, raw := fun _ => 0 }

/-- A numeral with a zero in front, which `%lu` reads as decimal all the same. -/
theorem uint_conversion_kept :
    UintRight 2 (CStr.ofBuf (bufOf "0512"))
        (getParametrCmd console (bufOf "0512") .uint16 noParam) ↔
      UintReadable 2 (CStr.ofBuf (bufOf "0512")) :=
  uint_conversion_iff console (by decide) (.inr (.inl rfl)) noParam

/-- Three tokens that are converted without an error: one with letters behind its number, one with a
sign, and one that 32 bits do not have. -/
theorem uint_conversion_lax :
    ¬ UintRight 1 (CStr.ofBuf (bufOf "12abc"))
      (getParametrCmd console (bufOf "12abc") .uint8 noParam) ∧
    ¬ UintRight 4 (CStr.ofBuf (bufOf "-1")) (getParametrCmd console (bufOf "-1") .uint32 noParam) ∧
    ¬ UintRight 4 (CStr.ofBuf (bufOf "4294967296"))
      (getParametrCmd console (bufOf "4294967296") .uint32 noParam) := by
  decide

/-! ### Signed types -/

/-- An unsigned type and the signed type of the same width. -/
inductive SameWidth : TypeCmdPrmtr → TypeCmdPrmtr → Prop
  | bits8 : SameWidth .uint8 .int8
  | bits16 : SameWidth .uint16 .int16
  | bits32 : SameWidth .uint32 .int32

/-- Both conversions succeed, with the same value of `n` bytes. -/
def Agree (n : Nat) (r r' : StatCmd × CmdParametr) : Prop :=
  r.1 = .norm ∧ r'.1 = .norm ∧ r'.2.int n = r.2.uint n

/-- The conversion to a signed type of `n` bytes stores the number that `%li` reads, if it is small
enough for the type. -/
theorem convertInt_numeral {n : Nat} (hn : 0 < n) (hn4 : n ≤ 4) {str : List UInt8}
    (h : isNumeral str = true) (hv : decimalValue str < 2 ^ (8 * n - 1)) (p : CmdParametr) :
    (convertInt n str p).1 = .norm ∧ (convertInt n str p).2.int n = liValue str := by
  have hle : liValue str < 2 ^ (8 * n - 1) := Nat.lt_of_le_of_lt (liValue_le str) hv
  have h32 : 2 ^ (8 * n - 1) ≤ 2 ^ 31 := Nat.pow_le_pow_right (by decide) (by omega)
  have hmin : min (liValue str : Int) (2 ^ 31 - 1) = liValue str := by omega
  have hrange : (liValue str : Int) < 2 ^ (8 * n - 1) ∧ -2 ^ (8 * n - 1) ≤ (liValue str : Int) := by
    have hcast : (liValue str : Int) < 2 ^ (8 * n - 1) := by exact_mod_cast hle
    have hpow : (0 : Int) < 2 ^ (8 * n - 1) := by positivity
    omega
  unfold convertInt
  rw [sscanfLi_numeral h, hmin]
  dsimp only
  rw [if_pos hrange]
  exact ⟨rfl, int_store p hn hle⟩

/-- The conversion to an unsigned type stores the value of the numeral. -/
theorem convertUint_small {n : Nat} (hn : n = 1 ∨ n = 2 ∨ n = 4) {str : List UInt8}
    (h : isNumeral str = true) (hv : decimalValue str < 2 ^ (8 * n - 1)) (p : CmdParametr) :
    (convertUint n str p).1 = .norm ∧ (convertUint n str p).2.uint n = decimalValue str := by
  have h32 : 2 ^ (8 * n - 1) ≤ 2 ^ 31 := by
    rcases hn with rfl | rfl | rfl <;> decide
  have hwide : decimalValue str < 2 ^ (8 * n) :=
    Nat.lt_of_lt_of_le hv (Nat.pow_le_pow_right (by decide) (by omega))
  have hright := (convertUint_numeral hn h p).2 fun _ => by omega
  rw [UintRight, if_pos h, if_pos hwide] at hright
  exact hright

/-- The two conversions agree iff `%li` reads the numeral in base ten, or reads the same number. -/
theorem convert_agree_iff {n : Nat} (hn : n = 1 ∨ n = 2 ∨ n = 4) {str : List UInt8}
    (h : isNumeral str = true) (hv : decimalValue str < 2 ^ (8 * n - 1)) (p p' : CmdParametr) :
    Agree n (convertUint n str p) (convertInt n str p') ↔
      str.head? ≠ some 48 ∨ decimalValue str < 8 := by
  obtain ⟨hnorm, hval⟩ := convertUint_small hn h hv p
  obtain ⟨hnorm', hval'⟩ := convertInt_numeral (by omega) (by omega) h hv p'
  rw [← liValue_eq_iff, Agree, hval, hval']
  constructor
  · rintro ⟨-, -, heq⟩
    exact_mod_cast heq
  · intro heq
    exact ⟨hnorm, hnorm', by rw [heq]⟩

/-- The conversion to a signed type. -/
theorem getParametrCmd_int (c : Console) {buf : Fin maxSizeData → UInt8} (hbuf : buf 0 ≠ 0)
    {type : TypeCmdPrmtr} (htype : type = .int8 ∨ type = .int16 ∨ type = .int32)
    (p : CmdParametr) :
    getParametrCmd c buf type p =
      convertInt type.width (CStr.ofBuf buf) { p with flagDef := false } := by
  unfold getParametrCmd
  rw [if_neg hbuf]
  rcases htype with rfl | rfl | rfl <;> rfl

/-- For every decimal numeral whose value both types of a width have: the two conversions give this
value iff the numeral has no leading zero or its value is below eight. By the width, and then by the
first digit. -/
theorem int_agrees_iff (c : Console) {buf : Fin maxSizeData → UInt8}
    (hnum : isNumeral (CStr.ofBuf buf) = true) {utype itype : TypeCmdPrmtr}
    (htypes : SameWidth utype itype)
    (hrep : decimalValue (CStr.ofBuf buf) < 2 ^ (8 * utype.width - 1)) (p p' : CmdParametr) :
    Agree utype.width (getParametrCmd c buf utype p) (getParametrCmd c buf itype p') ↔
      (CStr.ofBuf buf).head? ≠ some 48 ∨ decimalValue (CStr.ofBuf buf) < 8 := by
  have hbuf : buf 0 ≠ 0 := by
    intro hzero
    rw [CStr.ofBuf, List.ofFn_succ, CStr.ofBytes, List.takeWhile_cons_of_neg (by simpa using hzero)]
      at hnum
    cases hnum
  cases htypes with
  | bits8 =>
    rw [getParametrCmd_uint c hbuf (.inl rfl), getParametrCmd_int c hbuf (.inl rfl)]
    exact convert_agree_iff (.inl rfl) hnum hrep _ _
  | bits16 =>
    rw [getParametrCmd_uint c hbuf (.inr (.inl rfl)), getParametrCmd_int c hbuf (.inr (.inl rfl))]
    exact convert_agree_iff (.inr (.inl rfl)) hnum hrep _ _
  | bits32 =>
    rw [getParametrCmd_uint c hbuf (.inr (.inr rfl)), getParametrCmd_int c hbuf (.inr (.inr rfl))]
    exact convert_agree_iff (.inr (.inr rfl)) hnum hrep _ _

/-- A numeral without a zero in front. -/
theorem int_agrees_kept :
    Agree 2 (getParametrCmd console (bufOf "512") .uint16 noParam)
        (getParametrCmd console (bufOf "512") .int16 noParam) ↔
      (CStr.ofBuf (bufOf "512")).head? ≠ some 48 ∨ decimalValue (CStr.ofBuf (bufOf "512")) < 8 :=
  int_agrees_iff console (by decide) .bits16 (by decide) noParam noParam

/-- The numeral `010` is ten for the unsigned types and eight for the signed ones, and `08` is eight
and zero. -/
theorem int_disagrees :
    ¬ Agree 1 (getParametrCmd console (bufOf "010") .uint8 noParam)
      (getParametrCmd console (bufOf "010") .int8 noParam) ∧
    ¬ Agree 4 (getParametrCmd console (bufOf "08") .uint32 noParam)
      (getParametrCmd console (bufOf "08") .int32 noParam) := by
  unfold Agree
  decide

end NucleoH743.CmdTrmnl
