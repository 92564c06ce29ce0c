import NucleoH743.Lib.Blocks

/-!
# `Lib.WriteBack`: a memory with one of its blocks in a buffer

A buffer holds a block of `n` cells of a memory. Changes go to the buffer first, which is dirty
until its block is written back. `view n b m` is the memory that the user of both has to do
with.

The user of a buffered memory wants to know nothing of the buffer. `view` is what he sees, and the
lemmas say for each thing that happens below whether it changes the view: to write back does not, to
load another block does not, and a change in the buffer changes it as a store would.

The last two parts are about an access that goes past the buffer to the memory. A write of this kind
must not be to the block of the buffer, or the two are apart; a read of the block must be replaced
by the contents of a dirty buffer.

- `view_writeBack`: writing the block back does not change what is seen.
- `view_overwritten`: nor does it when the write goes wrong.
- `holds_load`: a clean buffer can take another block.
- `view_store`: a change in the buffer is a change of the memory that is seen.
- `view_store_other`: a write past the buffer changes the rest of the memory.
- `store_slice_view`: a read past the buffer takes the block from there.
-/

set_option autoImplicit false

namespace WriteBack

variable {α : Type*}

/-- A buffer for the block at `addr`. -/
structure Buffer (α : Type*) where
  addr : Nat
  cells : Nat → α
  dirty : Bool

section Buffer
variable (n : Nat) (b : Buffer α) (m : Nat → α)

/-- The block in the buffer. -/
def Buffer.block : List α := Blocks.slice b.cells 0 n

/-- A block has its size. -/
@[simp] theorem length_block : (b.block n).length = n := Blocks.length_slice _ _ _

/-- The memory with the changes that are in the buffer only. -/
def view : Nat → α := if b.dirty then Blocks.store m b.addr (b.block n) else m

/-- The buffer holds its block as it is seen. -/
def Holds : Prop := ∀ i < n, view n b m (b.addr + i) = b.cells i

end Buffer

variable {n : Nat} {b : Buffer α} {m : Nat → α}

/-- Through a clean buffer the memory is seen as it is. -/
theorem view_clean (h : b.dirty = false) : view n b m = m := by
  rw [view, h]
  rfl

/-- A dirty buffer is seen in its place. -/
theorem view_dirty (h : b.dirty = true) : view n b m = Blocks.store m b.addr (b.block n) := by
  rw [view, h]
  rfl

/-- The elements of the block are the cells of the buffer. -/
theorem block_getElem {i : Nat} (hi : i < (b.block n).length) : (b.block n)[i] = b.cells i := by
  simp [Buffer.block, Blocks.slice]

/-- The cells of the block, after it has been written. -/
theorem store_block {i : Nat} (hi : i < n) :
    Blocks.store m b.addr (b.block n) (b.addr + i) = b.cells i := by
  have hlt : i < (b.block n).length := by rwa [length_block]
  rw [Blocks.store_of_mem _ _ hlt, block_getElem]

/-- A dirty buffer holds its block. -/
theorem holds_dirty (h : b.dirty = true) : Holds n b m := by
  intro i hi
  rw [view_dirty h]
  exact store_block hi

/-- Outside its block the memory is seen as it is. -/
theorem view_outside {a : Nat} (h : a < b.addr ∨ b.addr + n ≤ a) : view n b m a = m a := by
  by_cases hd : b.dirty = true
  · rw [view_dirty hd]
    refine Blocks.store_of_outside _ _ ?_
    rwa [length_block]
  · rw [view_clean (by simpa using hd)]

/-! ### Writing the block back -/

/-- Once its block is written the buffer is clean. -/
theorem view_writeBack (h : b.dirty = true) :
    view n { b with dirty := false } (Blocks.store m b.addr (b.block n)) = view n b m := by
  rw [view_dirty h]
  exact view_clean rfl

/-- A buffer that was written back agrees with the memory. -/
theorem holds_writeBack :
    Holds n { b with dirty := false } (Blocks.store m b.addr (b.block n)) := by
  intro i hi
  rw [view_clean rfl]
  exact store_block hi

/-- A write to the block that goes wrong is not seen while the buffer is dirty. -/
theorem view_overwritten (h : b.dirty = true) {data : List α} (hdata : data.length ≤ n) :
    view n b (Blocks.store m b.addr data) = view n b m := by
  rw [view_dirty h, view_dirty h]
  funext a
  by_cases hin : b.addr ≤ a ∧ a < b.addr + n
  · obtain ⟨i, rfl⟩ : ∃ i, a = b.addr + i := ⟨a - b.addr, by omega⟩
    rw [store_block (by omega), store_block (by omega)]
  · have hout : a < b.addr ∨ b.addr + (b.block n).length ≤ a := by
      rw [length_block]
      omega
    rw [Blocks.store_of_outside _ _ hout, Blocks.store_of_outside _ _ hout,
      Blocks.store_of_outside _ _ (by omega)]

/-- A clean buffer of the block at `addr`. -/
theorem holds_load {addr : Nat} {cells : Nat → α} (h : ∀ i < n, cells i = m (addr + i)) :
    Holds n ⟨addr, cells, false⟩ m := by
  intro i hi
  exact (h i hi).symm

/-! ### Changes -/

/-- Data that is stored in the buffer is stored in the memory that is seen. A cell of the block is
in the buffer, before and after. -/
theorem view_store (hb : Holds n b m) {ofs : Nat} {data : List α}
    (hdata : ofs + data.length ≤ n) :
    view n { b with cells := Blocks.store b.cells ofs data, dirty := true } m =
      Blocks.store (view n b m) (b.addr + ofs) data := by
  funext a
  by_cases hin : b.addr ≤ a ∧ a < b.addr + n
  · obtain ⟨i, rfl⟩ : ∃ i, a = b.addr + i := ⟨a - b.addr, by omega⟩
    have hi : i < n := by omega
    rw [holds_dirty (b := { b with cells := _, dirty := true }) rfl i hi]
    show Blocks.store b.cells ofs data i = _
    by_cases hmem : ofs ≤ i ∧ i < ofs + data.length
    · obtain ⟨j, rfl⟩ : ∃ j, i = ofs + j := ⟨i - ofs, by omega⟩
      have hj : j < data.length := by omega
      rw [← Nat.add_assoc, Blocks.store_of_mem _ _ hj, Blocks.store_of_mem _ _ hj]
    · rw [Blocks.store_of_outside _ _ (by omega), Blocks.store_of_outside _ _ (by omega)]
      exact (hb i hi).symm
  · -- beside the block
    rw [view_outside (by dsimp only; omega), Blocks.store_of_outside _ _ (by omega),
      view_outside (by omega)]

/-- A cell that the change of the buffer leaves. -/
theorem view_change (hb : Holds n b m) {cells : Nat → α} {a : Nat}
    (h : ∀ i < n, a = b.addr + i → cells i = b.cells i) :
    view n { b with cells := cells, dirty := true } m a = view n b m a := by
  by_cases hin : b.addr ≤ a ∧ a < b.addr + n
  · obtain ⟨i, rfl⟩ : ∃ i, a = b.addr + i := ⟨a - b.addr, by omega⟩
    have hi : i < n := by omega
    have hnew := holds_dirty (n := n) (b := { b with cells := cells, dirty := true }) (m := m)
      rfl i hi
    rw [hb i hi, ← h i hi rfl]
    exact hnew
  · rw [view_outside (by dsimp only; omega), view_outside (by omega)]

/-- A write to the memory beside the block is seen. -/
theorem view_store_other {addr : Nat} {data : List α}
    (h : addr + data.length ≤ b.addr ∨ b.addr + n ≤ addr) :
    view n b (Blocks.store m addr data) = Blocks.store (view n b m) addr data := by
  funext a
  by_cases hin : b.addr ≤ a ∧ a < b.addr + n
  · rw [Blocks.store_of_outside _ _ (by omega)]
    cases hd : b.dirty with
    | true =>
      obtain ⟨i, rfl⟩ : ∃ i, a = b.addr + i := ⟨a - b.addr, by omega⟩
      rw [view_dirty hd, view_dirty hd, store_block (by omega), store_block (by omega)]
    | false => rw [view_clean hd, view_clean hd, Blocks.store_of_outside _ _ (by omega)]
  · have hout : a < b.addr ∨ b.addr + n ≤ a := by omega
    rw [view_outside hout]
    exact Blocks.store_congr _ _ (view_outside hout).symm

/-! ### Reads past the buffer -/

/-- A read beside the block. -/
theorem slice_view_outside {addr len : Nat}
    (h : b.dirty = true → addr + len ≤ b.addr ∨ b.addr + n ≤ addr) :
    Blocks.slice (view n b m) addr len = Blocks.slice m addr len := by
  unfold Blocks.slice
  refine List.map_congr_left fun i hi => ?_
  have hlt : i < len := List.mem_range.1 hi
  cases hd : b.dirty with
  | true =>
    have hout := h hd
    exact view_outside (by omega)
  | false => rw [view_clean hd]

/-- A read of more than the block, with the block put in its place afterwards. A cell of the buffer
comes from the block, a cell of the read beside it from the memory, and no other cell changes. -/
theorem store_slice_view (hd : b.dirty = true) (buff : Nat → α) (p : Nat) {addr len : Nat}
    (hle : b.addr ≥ addr) (hend : b.addr + n ≤ addr + len) :
    Blocks.store (Blocks.store buff p (Blocks.slice m addr len)) (p + (b.addr - addr))
      (b.block n) = Blocks.store buff p (Blocks.slice (view n b m) addr len) := by
  funext a
  have hlen : (b.block n).length = n := length_block n b
  have hslice : ∀ m : Nat → α, (Blocks.slice m addr len).length = len :=
    fun m => Blocks.length_slice m addr len
  by_cases hin : p ≤ a ∧ a < p + len
  · obtain ⟨i, rfl⟩ : ∃ i, a = p + i := ⟨a - p, by omega⟩
    have hi : ∀ m : Nat → α, i < (Blocks.slice m addr len).length := fun m => by
      rw [hslice]
      omega
    rw [Blocks.store_of_mem buff p (hi _), Blocks.getElem_slice]
    by_cases hblock : b.addr ≤ addr + i ∧ addr + i < b.addr + n
    · obtain ⟨j, hj⟩ : ∃ j, addr + i = b.addr + j := ⟨addr + i - b.addr, by omega⟩
      have hcell : p + i = p + (b.addr - addr) + j := by omega
      have hlt : j < (b.block n).length := by omega
      rw [hj, hcell, view_dirty hd, store_block (by omega), Blocks.store_of_mem _ _ hlt,
        block_getElem]
    · rw [Blocks.store_of_outside _ _ (by omega), Blocks.store_of_mem buff p (hi _),
        Blocks.getElem_slice, view_outside (by omega)]
  · have hout : a < p ∨ p + len ≤ a := by omega
    rw [Blocks.store_of_outside _ _ (by omega),
      Blocks.store_of_outside _ _ (by rw [hslice]; exact hout),
      Blocks.store_of_outside _ _ (by rw [hslice]; exact hout)]

end WriteBack
