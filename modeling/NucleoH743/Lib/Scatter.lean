import Mathlib.Data.List.GetD
import NucleoH743.Lib.Blocks

/-!
# `Lib.Scatter`: a memory in blocks that lie anywhere

The blocks of `n` cells at the addresses `bs` of a memory are, one behind the other, a memory of
their own, `gather n bs m`.

The blocks of a file lie anywhere on a medium, and the reader of the file sees one sequence of
bytes. `gather` is this sequence, and a read or write that stays inside a block is one of the
sequence, at the address that the medium knows. A transfer that crosses blocks is cut there first,
which is the matter of `Lib.Blocks`.

- `addr_add`: inside a block the addresses go on.
- `slice_gather`, `gather_store`: what is read and written inside a block.
- `gather_append`: more blocks behind the others.
-/

set_option autoImplicit false

namespace Scatter

variable {α : Type*}

section Def
variable (n : Nat) (bs : List Nat)

/-- The address of cell `i`. -/
def addr (i : Nat) : Nat := bs.getD (i / n) 0 + i % n

/-- The blocks as one memory. -/
def gather (m : Nat → α) (i : Nat) : α := m (addr n bs i)

/-- No two blocks overlap. -/
def Apart : Prop := bs.Pairwise fun a b => a + n ≤ b ∨ b + n ≤ a

end Def

variable {n : Nat} {bs : List Nat} {m m' : Nat → α}

/-- A cell of the blocks lies in one of them. -/
theorem div_lt {i : Nat} (hi : i < bs.length * n) : i / n < bs.length :=
  Nat.div_lt_of_lt_mul (by rwa [Nat.mul_comm] at hi)

/-- The cell `i` lies in the block that its index falls into. -/
theorem addr_eq {i : Nat} (hi : i / n < bs.length) : addr n bs i = bs[i / n] + i % n := by
  rw [addr, List.getD_eq_getElem _ _ hi]

/-- Inside a block the addresses go on. -/
theorem addr_add {p j : Nat} (hj : p % n + j < n) : addr n bs (p + j) = addr n bs p + j := by
  have hn : 0 < n := by omega
  have hdiv : (p + j) / n = p / n := by
    have hsplit : p + j = p % n + j + n * (p / n) := by
      have := Nat.mod_add_div p n
      omega
    rw [hsplit, Nat.add_mul_div_left _ _ hn, Nat.div_eq_of_lt hj, Nat.zero_add]
  have hmod : (p + j) % n = p % n + j := by
    rw [← Nat.mod_add_mod, Nat.mod_eq_of_lt hj]
  rw [addr, addr, hdiv, hmod, Nat.add_assoc]

/-- What is read inside a block. -/
theorem slice_gather {p len : Nat} (hlen : p % n + len ≤ n) :
    Blocks.slice m (addr n bs p) len = Blocks.slice (gather n bs m) p len := by
  unfold Blocks.slice
  refine List.map_congr_left fun j hj => ?_
  have hlt : j < len := List.mem_range.1 hj
  rw [gather, addr_add (by omega)]

/-- More blocks behind the others. -/
theorem addr_append {bs' : List Nat} {i : Nat} (hi : i < bs.length * n) :
    addr n (bs ++ bs') i = addr n bs i := by
  rw [addr, addr, List.getD_append _ _ _ _ (div_lt hi)]

/-- Further blocks do not matter to the cells of those in front. -/
theorem gather_append {bs' : List Nat} {i : Nat} (hi : i < bs.length * n) :
    gather n (bs ++ bs') m i = gather n bs m i := by
  rw [gather, gather, addr_append hi]

/-- Two cells of different blocks. -/
theorem Apart.out (h : Apart n bs) {i j : Nat} (hi : i < bs.length) (hj : j < bs.length)
    (hne : i ≠ j) : bs[i] + n ≤ bs[j] ∨ bs[j] + n ≤ bs[i] := by
  rcases Nat.lt_or_gt_of_ne hne with hlt | hgt
  · exact List.pairwise_iff_getElem.1 h i j hi hj hlt
  · exact (List.pairwise_iff_getElem.1 h j i hj hi hgt).symm

/-- Data that is stored inside a block. A cell outside the data may lie in the block of the data or
in another one, and the other blocks do not overlap with this one. -/
theorem gather_store (h : Apart n bs) {p : Nat} {data : List α} (hp : p / n < bs.length)
    (hlen : p % n + data.length ≤ n) {i : Nat} (hi : i < bs.length * n) :
    gather n bs (Blocks.store m (addr n bs p) data) i =
      Blocks.store (gather n bs m) p data i := by
  have hn : 0 < n := by
    rcases Nat.eq_zero_or_pos n with rfl | hn
    · simp at hi
    · exact hn
  have hdi := div_lt hi
  have hsplit := Nat.mod_add_div i n
  have hsplitp := Nat.mod_add_div p n
  by_cases hin : p ≤ i ∧ i < p + data.length
  · obtain ⟨j, rfl⟩ : ∃ j, i = p + j := ⟨i - p, by omega⟩
    have hj : j < data.length := by omega
    rw [gather, addr_add (by omega), Blocks.store_of_mem _ _ hj, Blocks.store_of_mem _ _ hj]
  · have hout : i < p ∨ p + data.length ≤ i := by omega
    rw [Blocks.store_of_outside _ _ hout]
    refine Blocks.store_of_outside _ _ ?_
    rw [addr_eq hdi, addr_eq hp]
    by_cases hsame : i / n = p / n
    · -- another cell of the block
      simp only [hsame] at hsplit ⊢
      omega
    · have hmod := Nat.mod_lt i hn
      have hapart := h.out hdi hp hsame
      omega

end Scatter
