import Mathlib.Data.List.Basic
import Mathlib.Logic.Function.Basic
import Mathlib.Tactic.Common

/-!
# `Lib.Blocks`: data that is written into memory block by block

A memory of cells `α` is divided into blocks of `n` cells. `combine op mem addr data` is the
memory after data is written at `addr`, where `op` says what a write does to a cell. `split n addr
data` cuts the data at the ends of the blocks.

`op` is what distinguishes memories: one that is overwritten stores the new cell, and one whose bits
go from one to zero only takes the bitwise and of the old cell and the new one. All lemmas on
addresses are the same for both.

A device that takes a block at a time gets the pieces of `split`. So what it holds in the end is a
matter of two facts: `split` gives contiguous pieces with the data in them, and contiguous pieces
write what their concatenation writes.

- `combine_append`: the data can be written in two parts.
- `split_flatten`, `split_contiguous`, `split_room`: the pieces are the data, each begins where
  the one before ends, and none of them leaves its block.
- `slice_store`: what has been stored is read.
- `combineAll_eq`: contiguous pieces write what their concatenation writes.
-/

set_option autoImplicit false

namespace Blocks

variable {α β : Type*}

/-! ### Writes -/

section Combine
variable (op : α → β → α) (mem : Nat → α) (addr : Nat)

/-- The memory after `data` is written from `addr` on. -/
def combine (data : List β) (a : Nat) : α :=
  match if addr ≤ a then data[a - addr]? else none with
  | some b => op (mem a) b
  | none => mem a

/-- To write nothing is to leave the memory as it was. -/
@[simp] theorem combine_nil : combine op mem addr [] = mem := by
  funext a
  simp [combine]

/-- A cell that is written. -/
theorem combine_of_mem {data : List β} {i : Nat} (hi : i < data.length) :
    combine op mem addr data (addr + i) = op (mem (addr + i)) data[i] := by
  simp [combine, hi]

/-- The cells before and behind the data keep their content. -/
theorem combine_of_outside {data : List β} {a : Nat} (h : a < addr ∨ addr + data.length ≤ a) :
    combine op mem addr data a = mem a := by
  unfold combine
  by_cases hle : addr ≤ a
  · rw [if_pos hle, List.getElem?_eq_none (by omega)]
  · rw [if_neg hle]

/-- The first cell, and then the rest from the next address on. A cell is combined once, since the
addresses behind it are larger. -/
theorem combine_cons (b : β) (data : List β) :
    combine op mem addr (b :: data) =
      combine op (Function.update mem addr (op (mem addr) b)) (addr + 1) data := by
  funext a
  rcases Nat.lt_trichotomy a addr with hlt | rfl | hgt
  · rw [combine_of_outside _ _ _ (.inl hlt), combine_of_outside _ _ _ (.inl (by omega)),
      Function.update_of_ne (by omega)]
  · rw [combine_of_outside _ _ (a + 1) (.inl (Nat.lt_succ_self a)), Function.update_self]
    have hfirst : 0 < (b :: data).length := Nat.succ_pos _
    exact combine_of_mem op mem a hfirst
  · -- a cell behind the first one
    have hsub : a - addr = (a - (addr + 1)) + 1 := by omega
    unfold combine
    rw [if_pos (by omega), if_pos (by omega), hsub, List.getElem?_cons_succ,
      Function.update_of_ne (by omega)]

/-- Two parts, one behind the other. By induction on the first. -/
theorem combine_append (l r : List β) :
    combine op mem addr (l ++ r) = combine op (combine op mem addr l) (addr + l.length) r := by
  induction l generalizing mem addr with
  | nil => simp
  | cons b l ih =>
    have hlen : addr + 1 + l.length = addr + (b :: l).length := by
      rw [List.length_cons]
      omega
    rw [List.cons_append, combine_cons, ih, combine_cons, hlen]

end Combine

/-- The memory after the data has replaced the cells from `addr` on. -/
abbrev store (mem : Nat → α) (addr : Nat) (data : List α) : Nat → α :=
  combine (fun _ b => b) mem addr data

section Store
variable (mem : Nat → α) (addr : Nat) {data : List α}

/-- A cell that is stored. -/
theorem store_of_mem {i : Nat} (hi : i < data.length) :
    store mem addr data (addr + i) = data[i] :=
  combine_of_mem (fun _ b => b) mem addr hi

/-- A cell before or behind the data. -/
theorem store_of_outside {a : Nat} (h : a < addr ∨ addr + data.length ≤ a) :
    store mem addr data a = mem a :=
  combine_of_outside (fun _ b => b) mem addr h

/-- To store nothing is to leave the memory as it was. -/
@[simp] theorem store_nil : store mem addr [] = mem := combine_nil _ _ _

/-- Two parts, one behind the other. -/
theorem store_append (l r : List α) :
    store mem addr (l ++ r) = store (store mem addr l) (addr + l.length) r :=
  combine_append _ _ _ _ _

/-- A memory seen from `base` on. -/
theorem store_shift (base a : Nat) :
    store mem (base + addr) data (base + a) = store (fun i => mem (base + i)) addr data a := by
  unfold store combine
  have hle : base + addr ≤ base + a ↔ addr ≤ a := Nat.add_le_add_iff_left
  have hsub : base + a - (base + addr) = a - addr := by omega
  simp only [hle, hsub]

/-- A cell of the data does not depend on the memory. -/
theorem store_inside {mem' : Nat → α} {a : Nat} (hle : addr ≤ a) (hlt : a < addr + data.length) :
    store mem addr data a = store mem' addr data a := by
  obtain ⟨i, rfl⟩ : ∃ i, a = addr + i := ⟨a - addr, by omega⟩
  have hi : i < data.length := by omega
  rw [store_of_mem _ _ hi, store_of_mem _ _ hi]

/-- A cell depends on the memory at its address alone. -/
theorem store_congr {mem' : Nat → α} {a : Nat} (h : mem a = mem' a) :
    store mem addr data a = store mem' addr data a := by
  unfold store combine
  rw [h]

end Store

/-! ### Reads -/

section Slice
variable (mem : Nat → α) (addr : Nat)

/-- The `n` cells from `addr` on. -/
def slice (n : Nat) : List α := (List.range n).map fun i => mem (addr + i)

/-- A slice has as many cells as were asked for. -/
@[simp] theorem length_slice (n : Nat) : (slice mem addr n).length = n := by simp [slice]

/-- A cell that is read. -/
theorem getElem_slice {n i : Nat} (hi : i < (slice mem addr n).length) :
    (slice mem addr n)[i] = mem (addr + i) := by
  simp [slice]

/-- A read depends on its cells alone. -/
theorem slice_congr {mem' : Nat → α} {addr' n : Nat}
    (h : ∀ i < n, mem (addr + i) = mem' (addr' + i)) : slice mem addr n = slice mem' addr' n :=
  List.map_congr_left fun i hi => h i (List.mem_range.1 hi)

/-- Two reads, one behind the other. -/
theorem slice_add (m n : Nat) :
    slice mem addr (m + n) = slice mem addr m ++ slice mem (addr + m) n := by
  simp [slice, List.range_add, Nat.add_assoc]

/-- What has been stored is read. -/
theorem slice_store (data : List α) : slice (store mem addr data) addr data.length = data := by
  refine List.ext_getElem (length_slice _ _ _) fun i _ hi => ?_
  have hcell := combine_of_mem (fun _ b => b) mem addr hi
  simpa [slice] using hcell

/-- A read beside what has been stored. -/
theorem slice_of_disjoint {n addr' : Nat} {data : List α}
    (h : addr' + n ≤ addr ∨ addr + data.length ≤ addr') :
    slice (store mem addr data) addr' n = slice mem addr' n := by
  refine List.map_congr_left fun i hi => ?_
  have hlt : i < n := List.mem_range.1 hi
  exact combine_of_outside _ _ _ (by omega)

/-- The front of a slice is a shorter one. -/
theorem take_slice (k n : Nat) : (slice mem addr n).take k = slice mem addr (min k n) := by
  unfold slice
  rw [← List.map_take, List.take_range]

/-- What is left behind it is a slice that begins later. -/
theorem drop_slice (k n : Nat) : (slice mem addr n).drop k = slice mem (addr + k) (n - k) := by
  refine List.ext_getElem (by simp) fun i hi hi' => ?_
  rw [List.getElem_drop, getElem_slice, getElem_slice, Nat.add_assoc]

/-- The data over a part of `n` cells, or at their end. The three parts are the cells before the
data, the data, and the cells behind. -/
theorem slice_store_splice {k n : Nat} (hk : k ≤ n) (data : List α) :
    slice (store mem (addr + k) data) addr (max n (k + data.length)) =
      (slice mem addr n).take k ++ data ++ (slice mem addr n).drop (k + data.length) := by
  have hsplit : max n (k + data.length) = k + data.length + (n - (k + data.length)) := by omega
  have hfront : slice (store mem (addr + k) data) addr k = slice mem addr k :=
    slice_of_disjoint _ _ (.inl (Nat.le_refl _))
  have hback : slice (store mem (addr + k) data) (addr + (k + data.length))
      (n - (k + data.length)) = slice mem (addr + (k + data.length)) (n - (k + data.length)) :=
    slice_of_disjoint _ _ (.inr (by omega))
  rw [hsplit, slice_add, slice_add, hfront, slice_store, hback, take_slice, drop_slice,
    Nat.min_eq_left hk]

end Slice

/-! ### Pieces -/

/-- The pieces `(address, data)` follow each other from `addr` on. -/
def Contiguous : Nat → List (Nat × List β) → Prop
  | _, [] => True
  | addr, p :: ps => p.1 = addr ∧ Contiguous (addr + p.2.length) ps

/-- The data of the pieces. -/
def dataOf (ps : List (Nat × List β)) : List β := (ps.map Prod.snd).flatten

/-- No pieces have no data. -/
@[simp] theorem dataOf_nil : dataOf ([] : List (Nat × List β)) = [] := rfl

/-- The data of the first piece comes first. -/
@[simp] theorem dataOf_cons (p : Nat × List β) (ps : List (Nat × List β)) :
    dataOf (p :: ps) = p.2 ++ dataOf ps := rfl

/-- The data of two lists of pieces is that of the first and then that of the second. -/
@[simp] theorem dataOf_append (ps qs : List (Nat × List β)) :
    dataOf (ps ++ qs) = dataOf ps ++ dataOf qs := by
  simp [dataOf]

/-- The memory after the pieces are written one after another. -/
def combineAll (op : α → β → α) (mem : Nat → α) (ps : List (Nat × List β)) : Nat → α :=
  ps.foldl (fun mem p => combine op mem p.1 p.2) mem

/-- Contiguous pieces, written one after another, are their data written at once. By induction on
the pieces. -/
theorem combineAll_eq (op : α → β → α) {ps : List (Nat × List β)} :
    ∀ {mem : Nat → α} {addr : Nat}, Contiguous addr ps →
      combineAll op mem ps = combine op mem addr (dataOf ps) := by
  induction ps with
  | nil =>
    intro mem addr _
    rw [dataOf_nil, combine_nil]
    rfl
  | cons p ps ih =>
    intro mem addr h
    obtain ⟨rfl, hps⟩ := h
    rw [dataOf_cons, combine_append]
    exact ih hps

/-- A piece begins behind the data of the pieces before it. -/
theorem Contiguous.addr_eq {ps qs : List (Nat × List β)} {p : Nat × List β} :
    ∀ {addr : Nat}, Contiguous addr (ps ++ p :: qs) → p.1 = addr + (dataOf ps).length := by
  induction ps with
  | nil => exact fun h => h.1
  | cons q ps ih =>
    intro addr h
    rw [ih h.2, dataOf_cons, List.length_append, Nat.add_assoc]

/-- A piece ends with the data of all the pieces, or before. -/
theorem Contiguous.end_le {ps : List (Nat × List β)} {addr : Nat} (h : Contiguous addr ps)
    {p : Nat × List β} (hp : p ∈ ps) : p.1 + p.2.length ≤ addr + (dataOf ps).length := by
  obtain ⟨l, r, rfl⟩ := List.append_of_mem hp
  rw [h.addr_eq, dataOf_append, dataOf_cons, List.length_append, List.length_append]
  omega

/-- The front of contiguous pieces is contiguous. -/
theorem Contiguous.left {ps qs : List (Nat × List β)} :
    ∀ {addr : Nat}, Contiguous addr (ps ++ qs) → Contiguous addr ps := by
  induction ps with
  | nil => exact fun _ => trivial
  | cons q ps ih => exact fun h => ⟨h.1, ih h.2⟩

/-! ### Cutting at the blocks -/

/-- The cells from `addr` to the end of its block of `n` cells. -/
def room (n addr : Nat) : Nat := n - addr % n

/-- Every address has room up to the end of its block, if only for its own cell. -/
theorem room_pos {n : Nat} (hn : 0 < n) (addr : Nat) : 0 < room n addr :=
  Nat.sub_pos_of_lt (Nat.mod_lt addr hn)

/-- Cut the data for `addr` at the ends of the blocks of `n` cells. -/
def split (n : Nat) (hn : 0 < n) (addr : Nat) : List β → List (Nat × List β)
  | [] => []
  | b :: data =>
    (addr, (b :: data).take (room n addr)) ::
      split n hn (addr + room n addr) ((b :: data).drop (room n addr))
termination_by data => data.length
decreasing_by
  have hpos := room_pos hn addr
  simp only [List.length_drop, List.length_cons]
  omega

section Split
variable {n : Nat} {hn : 0 < n}

/-- Nothing is cut into no pieces. -/
@[simp] theorem split_nil (addr : Nat) : split n hn addr ([] : List β) = [] := by
  rw [split]

/-- The first piece goes to the end of its block, and the rest is cut from there on. -/
theorem split_of_ne {data : List β} (h : data ≠ []) (addr : Nat) :
    split n hn addr data = (addr, data.take (room n addr)) ::
      split n hn (addr + room n addr) (data.drop (room n addr)) := by
  cases data with
  | nil => exact absurd rfl h
  | cons b data => rw [split]

/-- No data is lost and none is doubled: the pieces put together are the data. By induction on the
cut. -/
theorem split_flatten (addr : Nat) (data : List β) : dataOf (split n hn addr data) = data := by
  induction addr, data using split.induct n hn with
  | case1 addr => simp
  | case2 addr b data ih => rw [split, dataOf_cons, ih, List.take_append_drop]

/-- Where the data of a piece does not reach the end of its block, no piece follows. By induction on
the cut. -/
theorem split_contiguous (addr : Nat) (data : List β) :
    Contiguous addr (split n hn addr data) := by
  induction addr, data using split.induct n hn with
  | case1 addr => rw [split]; trivial
  | case2 addr b data ih =>
    rw [split]
    by_cases hlen : (b :: data).length ≤ room n addr
    · rw [List.drop_eq_nil_of_le hlen, split_nil]
      exact ⟨rfl, trivial⟩
    · have htake : ((b :: data).take (room n addr)).length = room n addr := by
        rw [List.length_take]
        omega
      refine ⟨rfl, ?_⟩
      show Contiguous (addr + ((b :: data).take (room n addr)).length) _
      rw [htake]
      exact ih

/-- A piece has at least one cell and does not leave its block. By induction on the cut. -/
theorem split_room {addr : Nat} {data : List β} {p : Nat × List β}
    (h : p ∈ split n hn addr data) : p.2 ≠ [] ∧ p.1 % n + p.2.length ≤ n := by
  induction addr, data using split.induct n hn with
  | case1 addr => simp at h
  | case2 addr b data ih =>
    rw [split, List.mem_cons] at h
    rcases h with rfl | h
    · have hpos := room_pos hn addr
      have hmod := Nat.mod_lt addr hn
      constructor
      · simp only [ne_eq, List.take_eq_nil_iff, List.cons_ne_nil, or_false]
        omega
      · have htake := List.length_take_le (room n addr) (b :: data)
        have hroom : room n addr = n - addr % n := rfl
        dsimp only
        omega
    · exact ih h

end Split

end Blocks
