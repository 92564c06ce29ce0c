import NucleoH743.Core.Uptime
import NucleoH743.Lib.Numeral

/-!
# `Proofs.Core.Uptime`: the uptime and its display

The structure counts seconds twice: in `all_second`, and in fields with carries. `Represents`
says that both stand for the number of calls, and `represents_update` keeps it.

The first theorem is an induction over the calls. A call carries through as many fields as are at
their last values, and the proof has one case for each length of the carry; in each of them the
fields before and after are quotients and remainders of two successive numbers. That no increment
wraps is the reason why the fields are bytes: their last values are 59, 59 and 23, far below the
ends of their types, and the days do not reach 65535 before the seconds reach 2^32.

The second is about one call of the page. All arithmetic of `Time_Handler` is on 32 bits, and the
only loss is the cut of the first digit to a `char`. What is left of the number is too large by a
multiple of 256000 then, and the cuts of the other digits take that away again.

- `uptime_counts`: up to 2^32 calls no field wraps, and the fields write the number of seconds.
- `uptime_shown_iff`: the page shows the seconds modulo 10000 iff the uptime is at most 9999 s
  above a multiple of 1280000 s. The first digit is that of the thousands modulo 256.
-/

set_option autoImplicit false

namespace NucleoH743.Core

/-! ### The counter -/

/-- The structure stands for `n` seconds. -/
structure Represents (t : TimeWork) (n : Nat) : Prop where
  allSecond : t.allSecond.toNat = n
  day : t.day.toNat = n / 86400
  hour : t.hour.toNat = n / 3600 % 24
  minute : t.minute.toNat = n / 60 % 60
  second : t.second.toNat = n % 60

/-- No `++` of the call wraps: each field that the call counts up is below its maximum. -/
structure NoOverflow (t : TimeWork) : Prop where
  allSecond : t.allSecond.toNat + 1 < 2 ^ 32
  second : ¬ t.second > 58 → t.second.toNat + 1 < 2 ^ 8
  minute : t.second > 58 → ¬ t.minute > 58 → t.minute.toNat + 1 < 2 ^ 8
  hour : t.second > 58 → t.minute > 58 → ¬ t.hour > 22 → t.hour.toNat + 1 < 2 ^ 8
  day : t.second > 58 → t.minute > 58 → t.hour > 22 → t.day.toNat + 1 < 2 ^ 16

/-- At the start all fields are 0. -/
theorem represents_zero : Represents TimeWork.zero 0 := ⟨rfl, rfl, rfl, rfl, rfl⟩

section Counter
variable {t : TimeWork} {n : Nat}

/-- Below 2^32 seconds no field is at the end of its type. A field that is at the end of its range
is far below the end of its type. -/
theorem Represents.noOverflow (h : Represents t n) (hn : n + 1 < 2 ^ 32) : NoOverflow t := by
  obtain ⟨hall, hday, hhour, hminute, hsecond⟩ := h
  have hday' : n / 86400 + 1 < 2 ^ 16 := by omega
  constructor
  · omega
  · intro _
    omega
  · intro _ _
    omega
  · intro _ _ _
    omega
  · intro _ _ _
    omega

/-- A field of 8 bits counts on below 255. -/
theorem toNat_succ (a : UInt8) (h : a.toNat + 1 < 2 ^ 8) : (a + 1).toNat = a.toNat + 1 := by
  rw [UInt8.toNat_add]
  exact Nat.mod_eq_of_lt h

/-- One more call is one more second. By how far the carry goes; in each case the fields are
quotients and remainders of `n + 1`. -/
theorem represents_update (h : Represents t n) (hn : n + 1 < 2 ^ 32) :
    Represents (updateTimeWork t) (n + 1) := by
  have hno := h.noOverflow hn
  obtain ⟨hall, hday, hhour, hminute, hsecond⟩ := h
  have hall' : (t.allSecond + 1).toNat = n + 1 := by
    rw [UInt32.toNat_add, hall]
    exact Nat.mod_eq_of_lt hn
  unfold updateTimeWork
  dsimp only
  -- one case for each length of the carry
  by_cases hs : t.second > 58
  · have hs' : 58 < t.second.toNat := UInt8.lt_iff_toNat_lt.1 hs
    rw [if_pos hs]
    by_cases hm : t.minute > 58
    · have hm' : 58 < t.minute.toNat := UInt8.lt_iff_toNat_lt.1 hm
      rw [if_pos hm]
      by_cases hh : t.hour > 22
      · have hh' : 22 < t.hour.toNat := UInt8.lt_iff_toNat_lt.1 hh
        have hinc : (t.day + 1).toNat = t.day.toNat + 1 := by
          rw [UInt16.toNat_add]
          exact Nat.mod_eq_of_lt (hno.day hs hm hh)
        rw [if_pos hh]
        refine ⟨hall', hinc.trans ?_, ?_, ?_, ?_⟩
        · omega
        · show 0 = (n + 1) / 3600 % 24
          omega
        · show 0 = (n + 1) / 60 % 60
          omega
        · show 0 = (n + 1) % 60
          omega
      · have hh' : ¬ 22 < t.hour.toNat := fun hlt => hh (UInt8.lt_iff_toNat_lt.2 hlt)
        have hinc := toNat_succ t.hour (hno.hour hs hm hh)
        rw [if_neg hh]
        refine ⟨hall', hday.trans ?_, hinc.trans ?_, ?_, ?_⟩
        · omega
        · omega
        · show 0 = (n + 1) / 60 % 60
          omega
        · show 0 = (n + 1) % 60
          omega
    · have hm' : ¬ 58 < t.minute.toNat := fun hlt => hm (UInt8.lt_iff_toNat_lt.2 hlt)
      have hinc := toNat_succ t.minute (hno.minute hs hm)
      rw [if_neg hm]
      refine ⟨hall', hday.trans ?_, hhour.trans ?_, hinc.trans ?_, ?_⟩
      · omega
      · omega
      · omega
      · show 0 = (n + 1) % 60
        omega
  · have hs' : ¬ 58 < t.second.toNat := fun hlt => hs (UInt8.lt_iff_toNat_lt.2 hlt)
    have hinc := toNat_succ t.second (hno.second hs)
    rw [if_neg hs]
    refine ⟨hall', hday.trans ?_, hhour.trans ?_, hminute.trans ?_, hinc.trans ?_⟩
    · omega
    · omega
    · omega
    · omega

end Counter

/-- After fewer than 2^32 calls the structure stands for their number. -/
theorem represents_sysWorkTime {n : Nat} (hn : n < 2 ^ 32) : Represents (sysWorkTime n) n := by
  induction n with
  | zero => exact represents_zero
  | succ n ih =>
    have hstep : sysWorkTime (n + 1) = updateTimeWork (sysWorkTime n) :=
      Function.iterate_succ_apply' updateTimeWork n TimeWork.zero
    rw [hstep]
    exact represents_update (ih (Nat.lt_of_succ_lt hn)) hn

/-- For every number of calls below 2^32: no call has wrapped a field, `all_second` is the number of
calls, and the other fields write it as days, hours, minutes and seconds in their ranges.
`Represents` after `n` calls, with its fields read one by one. -/
theorem uptime_counts (n : Nat) (hn : n < 2 ^ 32) :
    (∀ k < n, NoOverflow (sysWorkTime k)) ∧
      (sysWorkTime n).allSecond.toNat = n ∧
      n = 86400 * (sysWorkTime n).day.toNat + 3600 * (sysWorkTime n).hour.toNat +
        60 * (sysWorkTime n).minute.toNat + (sysWorkTime n).second.toNat ∧
      (sysWorkTime n).second.toNat < 60 ∧ (sysWorkTime n).minute.toNat < 60 ∧
      (sysWorkTime n).hour.toNat < 24 := by
  obtain ⟨hall, hday, hhour, hminute, hsecond⟩ := represents_sysWorkTime hn
  refine ⟨?_, hall, ?_, ?_, ?_, ?_⟩
  · intro k hk
    have hk' : k + 1 < 2 ^ 32 := by omega
    exact (represents_sysWorkTime (Nat.lt_of_succ_lt hk')).noOverflow hk'
  · omega
  · omega
  · omega
  · omega

/-- The last second of the last day that the counter can hold. -/
theorem uptime_counts_max :
    (∀ k < 2 ^ 32 - 1, NoOverflow (sysWorkTime k)) ∧
      (sysWorkTime (2 ^ 32 - 1)).allSecond.toNat = 2 ^ 32 - 1 ∧
      2 ^ 32 - 1 = 86400 * (sysWorkTime (2 ^ 32 - 1)).day.toNat +
        3600 * (sysWorkTime (2 ^ 32 - 1)).hour.toNat +
        60 * (sysWorkTime (2 ^ 32 - 1)).minute.toNat + (sysWorkTime (2 ^ 32 - 1)).second.toNat ∧
      (sysWorkTime (2 ^ 32 - 1)).second.toNat < 60 ∧
      (sysWorkTime (2 ^ 32 - 1)).minute.toNat < 60 ∧
      (sysWorkTime (2 ^ 32 - 1)).hour.toNat < 24 :=
  uptime_counts (2 ^ 32 - 1) (by decide)

/-! ### The display -/

/-- The characters are four decimal digits that write `v`. -/
def ShowsFour (chars : List UInt8) (v : Nat) : Prop :=
  chars.length = 4 ∧ (∀ c ∈ chars, 0x30 ≤ c.toNat ∧ c.toNat ≤ 0x39) ∧
    Numeral.value 10 (chars.map fun c => c.toNat - 0x30) = v

/-- A product of a digit that fits. -/
theorem toNat_digit_mul (d : UInt8) {k : UInt32} {n : Nat} (hk : k.toNat = n) (hn : n ≤ 1000) :
    (d.toUInt32 * k).toNat = d.toNat * n := by
  have hd := d.toNat_lt
  have hle : d.toNat * n ≤ 255 * 1000 := Nat.mul_le_mul (by omega) hn
  rw [UInt32.toNat_mul, UInt8.toNat_toUInt32, hk]
  exact Nat.mod_eq_of_lt (by omega)

/-- A digit of what is left of the number. -/
theorem toNat_rest_digit {m p k : UInt32} {n : Nat} (hk : k.toNat = n) (hle : p.toNat ≤ m.toNat) :
    ((m - p) / k).toUInt8.toNat = (m.toNat - p.toNat) / n % 256 := by
  rw [UInt32.toNat_toUInt8, UInt32.toNat_div, UInt32.toNat_sub_of_le _ _
    (UInt32.le_iff_toNat_le.2 hle), hk]

/-- A number by its digits up to the thousands, which are cut into parts of 256. -/
theorem digits_split (n : Nat) :
    n = 256000 * (n / 1000 / 256) + 1000 * (n / 1000 % 256) + 100 * (n / 100 % 10) +
      10 * (n / 10 % 10) + n % 10 := by
  have h100 : n / 10 / 10 = n / 100 := Nat.div_div_eq_div_mul n 10 10
  have h1000 : n / 100 / 10 = n / 1000 := Nat.div_div_eq_div_mul n 100 10
  omega

/-- The digits that `Time_Handler` computes. The first one is taken modulo 256, and so the other
three are right for every uptime. Where the first one is cut, the rest of the number is too large by
a multiple of 256000, which is none for the digits behind it. -/
theorem timeHandler_eq (t : TimeWork) :
    ∃ d1 d2 d3 d4 : UInt8, timeHandler 0 t = [d1 + 0x30, d2 + 0x30, d3 + 0x30, d4 + 0x30] ∧
      d1.toNat = t.allSecond.toNat / 1000 % 256 ∧ d2.toNat = t.allSecond.toNat / 100 % 10 ∧
      d3.toNat = t.allSecond.toNat / 10 % 10 ∧ d4.toNat = t.allSecond.toNat % 10 := by
  refine ⟨_, _, _, _, rfl, ?_⟩
  generalize t.allSecond = timeVal
  have hlt := timeVal.toNat_lt
  have hsplit := digits_split timeVal.toNat
  have hlt2 : timeVal.toNat / 100 % 10 < 10 := Nat.mod_lt _ (by decide)
  have hlt3 : timeVal.toNat / 10 % 10 < 10 := Nat.mod_lt _ (by decide)
  have hlt4 : timeVal.toNat % 10 < 10 := Nat.mod_lt _ (by decide)
  have hd1 : (timeVal / 1000).toUInt8.toNat = timeVal.toNat / 1000 % 256 := by
    rw [UInt32.toNat_toUInt8, UInt32.toNat_div]
    rfl
  -- from here on the digits of the number are known by their sum alone
  generalize timeVal.toNat / 1000 / 256 = k at hsplit
  generalize timeVal.toNat / 1000 % 256 = v1 at hsplit hd1 ⊢
  generalize timeVal.toNat / 100 % 10 = v2 at hsplit hlt2 ⊢
  generalize timeVal.toNat / 10 % 10 = v3 at hsplit hlt3 ⊢
  generalize timeVal.toNat % 10 = v4 at hsplit hlt4 ⊢
  generalize (timeVal / 1000).toUInt8 = digit1 at hd1 ⊢
  have hp1 : (digit1.toUInt32 * 1000).toNat = _ := toNat_digit_mul (n := 1000) digit1 rfl le_rfl
  generalize digit1.toUInt32 * 1000 = p1 at hp1 ⊢
  have hd2 : ((timeVal - p1) / 100).toUInt8.toNat = v2 := by
    rw [toNat_rest_digit (n := 100) rfl (by omega)]
    omega
  generalize ((timeVal - p1) / 100).toUInt8 = digit2 at hd2 ⊢
  have hp2 : (digit2.toUInt32 * 100).toNat = _ := toNat_digit_mul (n := 100) digit2 rfl (by decide)
  generalize digit2.toUInt32 * 100 = p2 at hp2 ⊢
  have hp12 : (p1 + p2).toNat = p1.toNat + p2.toNat := by
    rw [UInt32.toNat_add]
    exact Nat.mod_eq_of_lt (by omega)
  have hd3 : ((timeVal - (p1 + p2)) / 10).toUInt8.toNat = v3 := by
    rw [toNat_rest_digit (n := 10) rfl (by omega), hp12]
    omega
  generalize ((timeVal - (p1 + p2)) / 10).toUInt8 = digit3 at hd3 ⊢
  have hp3 : (digit3.toUInt32 * 10).toNat = _ := toNat_digit_mul (n := 10) digit3 rfl (by decide)
  generalize digit3.toUInt32 * 10 = p3 at hp3 ⊢
  have hp123 : (p1 + p2 + p3).toNat = p1.toNat + p2.toNat + p3.toNat := by
    rw [UInt32.toNat_add, hp12]
    exact Nat.mod_eq_of_lt (by omega)
  have hd4 : (timeVal - (p1 + p2 + p3)).toUInt8.toNat = v4 := by
    have hle : p1 + p2 + p3 ≤ timeVal := UInt32.le_iff_toNat_le.2 (by omega)
    rw [UInt32.toNat_toUInt8, UInt32.toNat_sub_of_le _ _ hle, hp123]
    show (timeVal.toNat - (p1.toNat + p2.toNat + p3.toNat)) % 256 = _
    omega
  exact ⟨hd1, hd2, hd3, hd4⟩

/-- Four characters that are digits plus `'0'`. Each character is compared with the digit that it
should be. -/
theorem showsFour_iff (d1 d2 d3 d4 : UInt8) (v : Nat) (h2 : d2.toNat < 10) (h3 : d3.toNat < 10)
    (h4 : d4.toNat < 10) :
    ShowsFour [d1 + 0x30, d2 + 0x30, d3 + 0x30, d4 + 0x30] v ↔
      d1.toNat < 10 ∧ 1000 * d1.toNat + 100 * d2.toNat + 10 * d3.toNat + d4.toNat = v := by
  have hchar : ∀ d : UInt8, (d + 0x30).toNat = (d.toNat + 48) % 256 := fun d => UInt8.toNat_add d 48
  have hd1 := d1.toNat_lt
  have hlow : ∀ d : UInt8, d.toNat < 10 → (d + 0x30).toNat = d.toNat + 48 := by
    intro d hd
    rw [hchar]
    exact Nat.mod_eq_of_lt (by omega)
  unfold ShowsFour
  simp only [List.length_cons, List.length_nil, List.forall_mem_cons, List.not_mem_nil,
    IsEmpty.forall_iff, implies_true, and_true, List.map_cons, List.map_nil, hlow d2 h2,
    hlow d3 h3, hlow d4 h4]
  simp only [Numeral.value_cons, Numeral.value_nil, List.length_cons, List.length_nil,
    Nat.reduceAdd, Nat.reducePow, true_and, Nat.add_sub_cancel]
  -- only the first character may be no digit
  constructor
  · rintro ⟨⟨⟨hlo, hhi⟩, -⟩, hv⟩
    rw [hchar] at hlo hhi hv
    omega
  · rintro ⟨hd, hv⟩
    rw [hlow d1 hd]
    omega

/-- The page shows the seconds modulo 10000 iff the thousands that the eight bits lose are
multiples of ten thousand. -/
theorem timeHandler_shows_iff (t : TimeWork) :
    ShowsFour (timeHandler 0 t) (t.allSecond.toNat % 10000) ↔
      t.allSecond.toNat % 1280000 < 10000 := by
  obtain ⟨d1, d2, d3, d4, heq, h1, h2, h3, h4⟩ := timeHandler_eq t
  rw [heq, showsFour_iff d1 d2 d3 d4 _ (by omega) (by omega) (by omega), h1, h2, h3, h4]
  generalize t.allSecond.toNat = n
  omega

/-- For every uptime: the four characters are digits that write the seconds modulo 10000 iff the
uptime is less than 10000 s above a multiple of 1280000 s. -/
theorem uptime_shown_iff (n : Nat) :
    ShowsFour (timeHandler 0 (sysWorkTime n)) ((sysWorkTime n).allSecond.toNat % 10000) ↔
      (sysWorkTime n).allSecond.toNat % 1280000 < 10000 :=
  timeHandler_shows_iff (sysWorkTime n)

/-- After 10000 s the first character is a colon. -/
theorem uptime_colon :
    ¬ ShowsFour (timeHandler 0 (sysWorkTime 10000))
      ((sysWorkTime 10000).allSecond.toNat % 10000) ∧
    (timeHandler 0 (sysWorkTime 10000)).head? = some 0x3A := by
  have hall := (represents_sysWorkTime (by decide : 10000 < 2 ^ 32)).allSecond
  constructor
  · rw [timeHandler_shows_iff, hall]
    decide
  · obtain ⟨d1, d2, d3, d4, heq, h1, -⟩ := timeHandler_eq (sysWorkTime 10000)
    rw [hall] at h1
    obtain rfl : d1 = 10 := UInt8.toNat_inj.1 h1
    rw [heq]
    rfl

end NucleoH743.Core
