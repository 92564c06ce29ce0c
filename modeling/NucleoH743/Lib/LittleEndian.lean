import NucleoH743.Lib.Blocks
import NucleoH743.Lib.Numeral

/-!
# `Lib.LittleEndian`: numbers stored in bytes

`store n mem addr v` puts the `n` low bytes of `v` into the memory `mem`, the lowest first, and
`load n mem addr` reads them.

A store of a number is one of its bytes at the address (`Lib.Blocks`), so what a store elsewhere
leaves alone is known from there. `bytes` and `value` are inverse up to the width of the field.

- `load_store`: what has been stored is read, up to its width.
- `load_of_disjoint`: a store elsewhere leaves it alone.
-/

set_option autoImplicit false

namespace LittleEndian

/-- The `n` low bytes of `v`, the lowest first. -/
def bytes (n v : Nat) : List UInt8 := (List.range n).map fun i => (v / 256 ^ i % 256).toUInt8

/-- The number that the bytes write. -/
def value (bs : List UInt8) : Nat := Nat.ofDigits 256 (bs.map UInt8.toNat)

/-- A number is stored in as many bytes as were asked for. -/
@[simp] theorem length_bytes (n v : Nat) : (bytes n v).length = n := by simp [bytes]

/-- They have its value, as far as it fits. -/
theorem value_bytes (n v : Nat) : value (bytes n v) = v % 256 ^ n := by
  rw [value, bytes, List.map_map, ← Numeral.value_bytes]
  congr 1
  refine List.map_congr_left fun i _ => ?_
  show (v / 256 ^ i % 256).toUInt8.toNat = v / 256 ^ i % 256
  rw [Nat.toUInt8_eq, UInt8.toNat_ofNat', Nat.mod_mod]

/-- The memory after `n` bytes of `v` are stored at `addr`. -/
abbrev store (n : Nat) (mem : Nat → UInt8) (addr v : Nat) : Nat → UInt8 :=
  Blocks.store mem addr (bytes n v)

/-- The number in the `n` bytes at `addr`. -/
def load (n : Nat) (mem : Nat → UInt8) (addr : Nat) : Nat := value (Blocks.slice mem addr n)

/-- A number that was stored is loaded again, as far as it fits. -/
theorem load_store (n : Nat) (mem : Nat → UInt8) (addr v : Nat) :
    load n (store n mem addr v) addr = v % 256 ^ n := by
  have hread := Blocks.slice_store mem addr (bytes n v)
  rw [length_bytes] at hread
  rw [load, store, hread, value_bytes]

/-- A store beside a number leaves it alone. -/
theorem load_of_disjoint {n addr addr' : Nat} (mem : Nat → UInt8) {data : List UInt8}
    (h : addr' + n ≤ addr ∨ addr + data.length ≤ addr') :
    load n (Blocks.store mem addr data) addr' = load n mem addr' := by
  rw [load, load, Blocks.slice_of_disjoint _ _ h]

end LittleEndian
