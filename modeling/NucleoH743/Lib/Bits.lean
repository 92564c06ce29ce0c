import Mathlib.Data.Nat.Bitwise
import Mathlib.Tactic.Common

/-!
# `Lib.Bits`: masks as arithmetic

A mask of low bits is a remainder, a mask of high bits a multiple, and the parts that two such
masks leave are put together by an addition.

Code that cuts a number into fields does so with masks and shifts, and a proof about the number
wants sums. The lemmas go from the first to the second; a `BitVec` is turned into a number before.

- `and_low`, `and_high`: the two masks.
- `or_add`: the parts together.
-/

set_option autoImplicit false

namespace Bits

/-- The `k` low bits. -/
theorem and_low (x k : Nat) : x &&& 2 ^ k - 1 = x % 2 ^ k := Nat.and_two_pow_sub_one_eq_mod x k

/-- The bits from `k` on, of a number of `k + n` bits. -/
theorem and_high {x k n : Nat} (hx : x < 2 ^ (k + n)) :
    x &&& (2 ^ n - 1) <<< k = x / 2 ^ k * 2 ^ k := by
  have hshift : x &&& (2 ^ n - 1) <<< k = (x >>> k &&& 2 ^ n - 1) <<< k := by
    refine Nat.eq_of_testBit_eq fun i => ?_
    simp only [Nat.testBit_and, Nat.testBit_shiftLeft, Nat.testBit_shiftRight]
    by_cases hi : k ≤ i
    · simp [hi]
    · simp [hi]
  have hlt : x / 2 ^ k < 2 ^ n := by
    rw [Nat.div_lt_iff_lt_mul (Nat.two_pow_pos k), ← Nat.pow_add, Nat.add_comm]
    exact hx
  rw [hshift, and_low, Nat.shiftRight_eq_div_pow, Nat.mod_eq_of_lt hlt, Nat.shiftLeft_eq]

/-- Low bits beside high bits. -/
theorem or_add {k x : Nat} (hx : x < 2 ^ k) (y : Nat) : x ||| y * 2 ^ k = x + y * 2 ^ k := by
  rw [Nat.or_comm, ← Nat.shiftLeft_eq, ← Nat.shiftLeft_add_eq_or_of_lt hx, Nat.add_comm]

end Bits
