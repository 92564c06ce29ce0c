import Mathlib.Data.List.Basic
import Mathlib.Logic.Function.Basic
import Mathlib.Tactic.Common

/-!
# `Lib.Ring`: rings of slots

A ring of `n` slots that is written in order. The element that was written as number `k`,
counted from zero, stands in slot `k % n`. `Holds n buf p l` says that the elements `l`, the
first of which has number `p`, are all still in the ring.

A slot is named by the number of the element and not by an index, so the proofs do not distinguish
whether the ring has wrapped. The index that the code keeps is the number modulo `n`, by
`next_slot`. An element is lost when the number of the new one is `n` more than its own, as this is
when both have the same slot.

- `holds_push`: writing one more element keeps the others, unless the ring already holds `n`.
- `holds_head`, `holds_tail`: the first element is in slot `p % n`, and the others remain.
- `next_slot`: an index that wraps at the end of the buffer is the slot of the next number.
-/

set_option autoImplicit false

namespace Ring

variable {α : Type*} {n p : Nat} {buf : Nat → α} {l : List α}

/-- The elements `l`, numbered from `p` on, are in the ring. -/
def Holds (n : Nat) (buf : Nat → α) (p : Nat) (l : List α) : Prop :=
  ∀ i (h : i < l.length), buf ((p + i) % n) = l[i]

/-- The index after the slot of `k`, which wraps at the end, is the slot of `k + 1`. -/
theorem next_slot (hn : 0 < n) (k : Nat) :
    (if k % n + 1 ≥ n then 0 else k % n + 1) = (k + 1) % n := by
  have hlt := Nat.mod_lt k hn
  rw [← Nat.mod_add_mod k n 1]
  split
  · have hend : k % n + 1 = n := by omega
    rw [hend, Nat.mod_self]
  · exact (Nat.mod_eq_of_lt (by omega)).symm

/-- Numbers less than `n` apart have different slots. -/
theorem slot_ne {a b : Nat} (hab : a < b) (hn : b < a + n) : a % n ≠ b % n := by
  intro h
  have hdvd : n ∣ b - a := Nat.dvd_of_mod_eq_zero (Nat.sub_mod_eq_zero_of_mod_eq h.symm)
  have hle := Nat.le_of_dvd (by omega) hdvd
  omega

/-- Every ring holds no elements. -/
@[simp] theorem holds_nil : Holds n buf p [] := fun _ h => absurd h (Nat.not_lt_zero _)

/-- One more element is written behind the others. -/
theorem holds_push (h : Holds n buf p l) (hroom : l.length < n) (a : α) :
    Holds n (Function.update buf ((p + l.length) % n) a) p (l ++ [a]) := by
  intro i hi
  rw [List.length_append, List.length_singleton] at hi
  rcases Nat.lt_succ_iff_lt_or_eq.1 hi with hlt | rfl
  · -- an older element: its slot is not the one that is written
    have hne : (p + i) % n ≠ (p + l.length) % n := slot_ne (by omega) (by omega)
    rw [Function.update_of_ne hne, List.getElem_append_left hlt]
    exact h i hlt
  · rw [Function.update_self, List.getElem_append_right (Nat.le_refl _)]
    simp

/-- The first element is in its slot. -/
theorem holds_head {a : α} (h : Holds n buf p (a :: l)) : buf (p % n) = a :=
  h 0 (Nat.succ_pos _)

/-- The others remain when the first is taken out. -/
theorem holds_tail {a : α} (h : Holds n buf p (a :: l)) : Holds n buf (p + 1) l := by
  intro i hi
  have hslot : p + 1 + i = p + (i + 1) := by omega
  rw [hslot]
  exact h (i + 1) (Nat.succ_lt_succ hi)

end Ring
