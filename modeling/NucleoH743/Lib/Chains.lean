import Mathlib.Data.Finset.Card
import Mathlib.Data.List.Nodup
import Mathlib.Order.Interval.Finset.Nat
import Mathlib.Tactic.Common

/-!
# `Lib.Chains`: chains in a table

A table gives each of its places a next place, or a mark that ends the chain. `Linked next last cs`
says that each of the places `cs` has the one behind it as its next, and the last one a mark with
`last`.

The chain of a place is found by following the table, which may go round in circles or run into a
place of another chain. So a chain is not computed here but given, as the list of its places, and
`Linked` says that the table agrees. What a change of the table does to a chain is then a question
about the places of the list: an entry of another place does not matter (`Linked.congr`).

- `Linked.nodup`: no place occurs twice.
- `Linked.next_getElem`: the entry of a place in front of the last one.
- `Linked.append`: a place behind the last one.
- `Linked.take`: a chain that is cut off.
- `freeCount_take`, `freeCount_give`: the number of places that are free.
-/

set_option autoImplicit false

namespace Chains

section Linked
variable {ι : Type*} {next next' : ι → ι} {last : ι → Prop} {c c' : ι} {cs cs' : List ι}

/-- The places `cs` form a chain up to its end. -/
def Linked (next : ι → ι) (last : ι → Prop) : List ι → Prop
  | [] => True
  | [c] => last (next c)
  | c :: c' :: cs => next c = c' ∧ Linked next last (c' :: cs)

/-- No elements are linked. -/
@[simp] theorem linked_nil : Linked next last [] := trivial

/-- One element is linked iff it is the last. -/
@[simp] theorem linked_singleton : Linked next last [c] ↔ last (next c) := Iff.rfl

/-- The first of several leads to the second, and the rest is linked. -/
@[simp] theorem linked_cons_cons :
    Linked next last (c :: c' :: cs) ↔ next c = c' ∧ Linked next last (c' :: cs) := Iff.rfl

/-- What is behind the first element of a chain is a chain. -/
theorem Linked.tail (h : Linked next last (c :: cs)) : Linked next last cs := by
  cases cs with
  | nil => trivial
  | cons c' cs => exact h.2

/-- The rest of a chain is one. -/
theorem Linked.of_append (h : Linked next last (cs ++ cs')) : Linked next last cs' := by
  induction cs with
  | nil => exact h
  | cons c cs ih => exact ih h.tail

/-- A chain depends on the entries of its places alone. By induction on the chain. -/
theorem Linked.congr (h : Linked next last cs) (heq : ∀ x ∈ cs, next' x = next x) :
    Linked next' last cs := by
  induction cs with
  | nil => trivial
  | cons c cs ih =>
    have htail := ih h.tail fun x hx => heq x (List.mem_cons_of_mem _ hx)
    have hc := heq c List.mem_cons_self
    cases cs with
    | nil =>
      show last (next' c)
      rw [hc]
      exact h
    | cons c' cs => exact ⟨hc.trans h.1, htail⟩

/-- The entry of a place in front of the last one. By induction on the chain. -/
theorem Linked.next_getElem (h : Linked next last cs) {i : Nat} (hi : i < cs.length)
    (hnext : i + 1 < cs.length) : next cs[i] = cs[i + 1] := by
  induction cs generalizing i with
  | nil => simp at hi
  | cons c cs ih =>
    cases i with
    | zero =>
      cases cs with
      | nil => simp at hnext
      | cons c' cs => exact h.1
    | succ i =>
      have hi' : i < cs.length := by simpa using hi
      have hnext' : i + 1 < cs.length := by simpa using hnext
      exact ih h.tail hi' hnext'

/-- The entry of the last place. -/
theorem Linked.last_getElem (h : Linked next last cs) {i : Nat} (hi : i < cs.length)
    (hend : i + 1 = cs.length) : last (next cs[i]) := by
  induction cs generalizing i with
  | nil => simp at hi
  | cons c cs ih =>
    cases i with
    | zero =>
      cases cs with
      | nil => exact h
      | cons c' cs => simp at hend
    | succ i =>
      have hi' : i < cs.length := by simpa using hi
      have hend' : i + 1 = cs.length := by simpa using hend
      exact ih h.tail hi' hend'

/-- Two chains from one place are equal, as none of their places is a mark. The two are followed
side by side: where the one ends the other has a place, and this place would be a mark. -/
theorem Linked.eq_of_head (h : Linked next last (c :: cs)) (h' : Linked next last (c :: cs'))
    (hcs : ∀ x ∈ cs, ¬ last x) (hcs' : ∀ x ∈ cs', ¬ last x) : cs = cs' := by
  induction cs generalizing c cs' with
  | nil =>
    cases cs' with
    | nil => rfl
    | cons c' cs' =>
      rw [linked_cons_cons] at h'
      rw [linked_singleton, h'.1] at h
      exact absurd h (hcs' c' List.mem_cons_self)
  | cons x cs ih =>
    cases cs' with
    | nil =>
      rw [linked_cons_cons] at h
      rw [linked_singleton, h.1] at h'
      exact absurd h' (hcs x List.mem_cons_self)
    | cons y cs' =>
      obtain ⟨hx, htail⟩ := h
      obtain ⟨hy, htail'⟩ := h'
      obtain rfl : x = y := hx.symm.trans hy
      have heq := ih htail htail' (fun z hz => hcs z (List.mem_cons_of_mem _ hz))
        fun z hz => hcs' z (List.mem_cons_of_mem _ hz)
      rw [heq]

/-- No place occurs twice: what follows it would be its own rest. By induction on the chain, since
the chain behind a place is determined by the place. -/
theorem Linked.nodup (h : Linked next last cs) (hcs : ∀ x ∈ cs, ¬ last x) : cs.Nodup := by
  induction cs with
  | nil => exact List.nodup_nil
  | cons c cs ih =>
    have hrest : ∀ x ∈ cs, ¬ last x := fun x hx => hcs x (List.mem_cons_of_mem _ hx)
    refine List.nodup_cons.2 ⟨?_, ih h.tail hrest⟩
    intro hmem
    obtain ⟨l, r, rfl⟩ := List.append_of_mem hmem
    have hr : ∀ x ∈ r, ¬ last x := fun x hx => hrest x (by simp [hx])
    have heq := h.eq_of_head h.tail.of_append hrest hr
    have hlen := congrArg List.length heq
    simp at hlen
    omega

/-- A place behind the last one. -/
theorem Linked.append (h : Linked next last (cs ++ [c])) (hcs : ∀ x ∈ cs, next' x = next x)
    (hc : next' c = c') (hc' : last (next' c')) : Linked next' last (cs ++ [c, c']) := by
  induction cs with
  | nil => exact ⟨hc, hc'⟩
  | cons x cs ih =>
    have htail := ih h.tail fun y hy => hcs y (List.mem_cons_of_mem _ hy)
    have hx := hcs x List.mem_cons_self
    cases cs with
    | nil => exact ⟨hx.trans h.1, htail⟩
    | cons y cs => exact ⟨hx.trans h.1, htail⟩

/-- A chain that is cut off behind `c`. -/
theorem Linked.take (h : Linked next last (cs ++ c :: cs')) (hcs : ∀ x ∈ cs, next' x = next x)
    (hc : last (next' c)) : Linked next' last (cs ++ [c]) := by
  induction cs with
  | nil => exact hc
  | cons x cs ih =>
    have htail := ih h.tail fun y hy => hcs y (List.mem_cons_of_mem _ hy)
    have hx := hcs x List.mem_cons_self
    cases cs with
    | nil => exact ⟨hx.trans h.1, htail⟩
    | cons y cs => exact ⟨hx.trans h.1, htail⟩

end Linked

/-! ### Free places -/

section Free
variable {next next' : Nat → Nat} {n c : Nat}

/-- The places from 2 to `n` with the entry 0. -/
def free (next : Nat → Nat) (n : Nat) : Finset Nat := (Finset.Ico 2 n).filter fun c => next c = 0

/-- The number of free places. -/
def freeCount (next : Nat → Nat) (n : Nat) : Nat := (free next n).card

/-- An element is in the list of the free ones iff it is in range and leads to 0. -/
@[simp] theorem mem_free : c ∈ free next n ↔ (2 ≤ c ∧ c < n) ∧ next c = 0 := by
  simp [free]

/-- There are no more free elements than elements. -/
theorem freeCount_le : freeCount next n ≤ n - 2 := by
  have hle := Finset.card_filter_le (Finset.Ico 2 n) fun c => next c = 0
  rwa [Nat.card_Ico] at hle

/-- The number of free elements depends only on which ones are free. -/
theorem freeCount_congr (h : ∀ c, 2 ≤ c → c < n → (next' c = 0 ↔ next c = 0)) :
    freeCount next' n = freeCount next n := by
  refine congrArg Finset.card (Finset.filter_congr fun c hc => ?_)
  obtain ⟨htwo, hn⟩ := Finset.mem_Ico.1 hc
  exact h c htwo hn

/-- None is free iff every one leads somewhere. -/
theorem freeCount_eq_zero : freeCount next n = 0 ↔ ∀ c, 2 ≤ c → c < n → next c ≠ 0 := by
  rw [freeCount, Finset.card_eq_zero, Finset.eq_empty_iff_forall_notMem]
  simp only [mem_free, not_and, and_imp, ne_eq]

/-- A free place is taken. The list of the free places loses one element, which occurs in it
once. -/
theorem freeCount_take (htwo : 2 ≤ c) (hn : c < n) (hfree : next c = 0) (hc : next' c ≠ 0)
    (hother : ∀ x, 2 ≤ x → x < n → x ≠ c → (next' x = 0 ↔ next x = 0)) :
    freeCount next' n + 1 = freeCount next n := by
  have hmem : c ∈ free next n := mem_free.2 ⟨⟨htwo, hn⟩, hfree⟩
  have herase : free next' n = (free next n).erase c := by
    ext x
    rw [Finset.mem_erase, mem_free, mem_free]
    constructor
    · rintro ⟨hx, hzero⟩
      have hne : x ≠ c := by
        rintro rfl
        exact hc hzero
      exact ⟨hne, hx, (hother x hx.1 hx.2 hne).1 hzero⟩
    · rintro ⟨hne, hx, hzero⟩
      exact ⟨hx, (hother x hx.1 hx.2 hne).2 hzero⟩
  rw [freeCount, herase, Finset.card_erase_add_one hmem]
  rfl

/-- A place is given back. -/
theorem freeCount_give (htwo : 2 ≤ c) (hn : c < n) (hc : next c ≠ 0) (hfree : next' c = 0)
    (hother : ∀ x, 2 ≤ x → x < n → x ≠ c → (next' x = 0 ↔ next x = 0)) :
    freeCount next' n = freeCount next n + 1 :=
  (freeCount_take htwo hn hfree hc fun x hx hx' hne => (hother x hx hx' hne).symm).symm

end Free

end Chains
