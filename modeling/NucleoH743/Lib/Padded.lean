import Mathlib.Data.List.Basic

/-!
# `Lib.Padded`: fields of a fixed width

A text in a field of `n` characters, filled up with a character `c`.

A field is compared and copied as a whole, and shown without its padding. The two are inverse on
texts in which the filling character does not occur, and this is all that the lemmas need to know.

- `set_pad`, `set_field`: the next character goes behind the text.
- `filter_pad`: the text without its padding.
- `pad_injective`: texts without `c` are told apart by their fields.
-/

set_option autoImplicit false

namespace Padded

variable {α : Type*} (n : Nat) (c : α)

/-- The text `l` in a field of `n` characters. -/
def pad (l : List α) : List α := l ++ List.replicate (n - l.length) c

/-- An empty field is filled up altogether. -/
@[simp] theorem pad_nil : pad n c [] = List.replicate n c := rfl

variable {n c} {l : List α}

/-- A field has its width. -/
theorem length_pad (h : l.length ≤ n) : (pad n c l).length = n := by
  rw [pad, List.length_append, List.length_replicate]
  omega

/-- A character is put behind the text. -/
theorem set_pad (h : l.length < n) (a : α) : (pad n c l).set l.length a = pad n c (l ++ [a]) := by
  have hroom : n - l.length = n - (l.length + 1) + 1 := by omega
  rw [pad, pad, List.length_append, List.length_singleton, hroom,
    List.set_append_right _ _ (Nat.le_refl _), Nat.sub_self, List.replicate_succ,
    List.set_cons_zero, List.append_assoc, List.singleton_append]

/-- The same in a row of fields. -/
theorem set_field (h : l.length < n) (pre post : List α) (a : α) :
    (pre ++ (pad n c l ++ post)).set (pre.length + l.length) a =
      pre ++ (pad n c (l ++ [a]) ++ post) := by
  have hin : l.length < (pad n c l).length := by
    rw [length_pad (Nat.le_of_lt h)]
    exact h
  rw [List.set_append_right _ _ (Nat.le_add_right _ _), Nat.add_sub_cancel_left,
    List.set_append_left _ _ hin, set_pad h]

section Text
variable [DecidableEq α]

/-- The padding is told from the text. -/
theorem filter_pad (h : c ∉ l) : (pad n c l).filter (· ≠ c) = l := by
  have htext : l.filter (· ≠ c) = l := List.filter_eq_self.2 fun a ha => by
    have hne : a ≠ c := fun heq => h (heq ▸ ha)
    simpa using hne
  have hfill : (List.replicate (n - l.length) c).filter (· ≠ c) = [] := by
    simp
  rw [pad, List.filter_append, htext, hfill, List.append_nil]

/-- Two lists without the filling element, padded alike, are the same: where the filling begins,
both end. -/
theorem pad_injective {l' : List α} (h : c ∉ l) (h' : c ∉ l') (heq : pad n c l = pad n c l') :
    l = l' := by
  rw [← filter_pad (n := n) h, heq, filter_pad h']

end Text

end Padded
