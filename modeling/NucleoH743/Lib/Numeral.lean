import Mathlib.Data.Nat.Digits.Defs
import Mathlib.Data.List.TakeWhile

/-!
# `Lib.Numeral`: numbers written most significant digit first

`Numeral.value b ds` is the number that the digits `ds` write in base `b`.

A reader that meets a digit which its base does not have stops there, and what it has read is the
number of the digits before. Two readers that differ in the base alone agree on
the numbers below the smaller base, however many zeros stand in front, and on no others.

- `value_eq_foldl`: the number as a reader computes it that takes one digit after the other.
- `value_base_lt`: a numeral of several digits is a smaller number in a smaller base.
- `value_takeWhile_eq_iff`: a reader of the smaller base `b` stops at the first digit that `b` does
  not have. It agrees with one of base `b'` only on the numbers below `b`.
- `value_bytes`: the bytes of a number in base 256 write the number, up to their count.
-/

set_option autoImplicit false

namespace Numeral

/-- The number that the digits write in base `b`. -/
def value (b : Nat) (ds : List Nat) : Nat := Nat.ofDigits b ds.reverse

/-- No digits have the value 0. -/
@[simp] theorem value_nil (b : Nat) : value b [] = 0 := rfl

/-- Digits in front of others count as many times more. -/
theorem value_append (b : Nat) (ds es : List Nat) :
    value b (ds ++ es) = value b ds * b ^ es.length + value b es := by
  rw [value, List.reverse_append, Nat.ofDigits_append, List.length_reverse, Nat.mul_comm,
    Nat.add_comm]
  rfl

/-- A digit has its own value. -/
@[simp] theorem value_singleton (b d : Nat) : value b [d] = d := Nat.ofDigits_singleton

/-- The first digit counts most. -/
theorem value_cons (b d : Nat) (ds : List Nat) :
    value b (d :: ds) = d * b ^ ds.length + value b ds := by
  rw [← List.singleton_append, value_append, value_singleton]

/-- A zero in front changes nothing. -/
@[simp] theorem value_zero_cons (b : Nat) (ds : List Nat) : value b (0 :: ds) = value b ds := by
  rw [value_cons, Nat.zero_mul, Nat.zero_add]

/-- One digit after the other. -/
theorem value_eq_foldl (b : Nat) (ds : List Nat) (v : Nat) :
    ds.foldl (fun v d => v * b + d) v = v * b ^ ds.length + value b ds := by
  induction ds generalizing v with
  | nil => simp
  | cons d ds ih =>
    rw [List.foldl_cons, ih, value_cons, List.length_cons, Nat.pow_succ, Nat.add_mul,
      Nat.mul_assoc, Nat.mul_comm b, Nat.add_assoc]

/-- The first digits write no larger number. -/
theorem value_prefix_le {b : Nat} (hb : 0 < b) {ds es : List Nat} (h : ds <+: es) :
    value b ds ≤ value b es := by
  obtain ⟨rest, rfl⟩ := h
  rw [value_append]
  have hpow : 0 < b ^ rest.length := Nat.pow_pos hb
  have hle : value b ds ≤ value b ds * b ^ rest.length := Nat.le_mul_of_pos_right _ hpow
  omega

/-- The same digits have no smaller value in a larger base. -/
theorem value_base_le {b b' : Nat} (h : b ≤ b') (ds : List Nat) : value b ds ≤ value b' ds :=
  Nat.ofDigits_monotone ds.reverse h

/-- With a first digit that counts and one behind it, a smaller base gives a smaller number. The
first digit counts for a power of the base. -/
theorem value_base_lt {b b' d : Nat} (h : b < b') (hd : 0 < d) {ds : List Nat} (hds : ds ≠ []) :
    value b (d :: ds) < value b' (d :: ds) := by
  rw [value_cons, value_cons]
  have hlen : ds.length ≠ 0 := fun hzero => hds (List.length_eq_zero_iff.1 hzero)
  have hpow : b ^ ds.length < b' ^ ds.length := Nat.pow_lt_pow_left h hlen
  have hhead : d * b ^ ds.length < d * b' ^ ds.length := Nat.mul_lt_mul_of_pos_left hpow hd
  have htail := value_base_le (Nat.le_of_lt h) ds
  omega

/-- A reader of base `b` that stops at the first digit from `b` on agrees with one of base `b'`
exactly on the numbers below `b`. By induction on the digits: zeros in front count for neither, and
behind a digit that counts every further one makes the numbers differ. -/
theorem value_takeWhile_eq_iff {b b' : Nat} (hb : 0 < b) (h : b < b') (ds : List Nat) :
    value b (ds.takeWhile (· < b)) = value b' ds ↔ value b' ds < b := by
  induction ds with
  | nil => simp [hb]
  | cons d ds ih =>
    cases Nat.eq_zero_or_pos d with
    | inl hzero =>
      -- a leading zero is read in both bases, and says nothing
      subst hzero
      rw [List.takeWhile_cons_of_pos (by simpa using hb), value_zero_cons, value_zero_cons]
      exact ih
    | inr hpos =>
      by_cases hds : ds = []
      · subst hds
        rw [value_singleton]
        by_cases hd : d < b
        · simp [hd]
        · simp [hd]
          omega
      · -- two digits that count: the number has reached the larger base, and the other has not
        have hlt := value_base_lt h hpos hds
        have hle := value_prefix_le hb (List.takeWhile_prefix (p := (· < b)) (l := d :: ds))
        have hlarge : b' ≤ value b' (d :: ds) := by
          obtain ⟨e, es, rfl⟩ := List.exists_cons_of_ne_nil hds
          rw [value_cons, List.length_cons, Nat.pow_succ]
          have hpow : 0 < b' ^ es.length := Nat.pow_pos (by omega)
          have hle' : b' ≤ b' ^ es.length * b' := Nat.le_mul_of_pos_left b' hpow
          have hd : b' ^ es.length * b' ≤ d * (b' ^ es.length * b') :=
            Nat.le_mul_of_pos_left _ hpos
          omega
        constructor
        · intro heq
          omega
        · intro hsmall
          omega

/-- The low bytes of a number. -/
theorem value_bytes (n v : Nat) :
    Nat.ofDigits 256 ((List.range n).map fun i => v / 256 ^ i % 256) = v % 256 ^ n := by
  induction n with
  | zero => simp [Nat.mod_one]
  | succ n ih =>
    rw [List.range_succ, List.map_append, Nat.ofDigits_append, ih, List.length_map,
      List.length_range, List.map_singleton, Nat.ofDigits_singleton, Nat.mod_pow_succ]

end Numeral
