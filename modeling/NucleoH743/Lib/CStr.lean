import Mathlib.Data.List.OfFn
import Mathlib.Data.List.TakeWhile
import Mathlib.Tactic.Common

/-!
# `Lib.CStr`: C strings

Texts as bytes, and the string that a character buffer holds: its bytes up to the first NUL.

A function of the C library gets an address and reads until the first NUL, wherever that is.
`ofBytes` and `ofBuf` say what it has read; whether there is a NUL inside the buffer is the
hypothesis of the lemmas on buffers.

- `CStr.ofBytes_zeros`: a string that is filled up with NULs.
- `CStr.ofBuf_congr`: the string depends only on the bytes before its NUL.
- `CStr.ofBuf_word`: a word that is loaded with a NUL behind it.
-/

set_option autoImplicit false

namespace CStr

/-- The characters of a text as bytes, without the NUL. -/
def textBytes (s : String) : List UInt8 := s.toList.map fun c => c.toNat.toUInt8

/-- A text with a character has a byte. -/
theorem textBytes_ne_nil {s : String} (h : s ≠ "") : textBytes s ≠ [] := by
  unfold textBytes
  simpa using h

/-- The bytes of a list up to its first NUL. -/
def ofBytes (l : List UInt8) : List UInt8 := l.takeWhile (· ≠ 0)

/-- A string has no NUL in it. -/
theorem zero_notMem_ofBytes (l : List UInt8) : 0 ∉ ofBytes l := by
  intro h
  simpa using List.mem_takeWhile_imp h

/-- Bytes without a NUL are a string as they are. -/
theorem ofBytes_of_notMem {l : List UInt8} (h : 0 ∉ l) : ofBytes l = l := by
  rw [ofBytes, List.takeWhile_eq_self_iff]
  intro b hb
  simpa using fun hz : b = 0 => h (hz ▸ hb)

/-- A string that is filled up with NULs. -/
theorem ofBytes_zeros {l : List UInt8} (h : 0 ∉ l) (n : Nat) :
    ofBytes (l ++ List.replicate (n + 1) 0) = l := by
  have hself := ofBytes_of_notMem h
  unfold ofBytes at hself ⊢
  rw [List.takeWhile_append, hself, if_pos rfl, List.replicate_succ]
  simp

/-- The string that a buffer holds. -/
def ofBuf {n : Nat} (buf : Fin n → UInt8) : List UInt8 := ofBytes (List.ofFn buf)

/-- The string in a buffer with a NUL is shorter than the buffer. -/
theorem length_ofBuf_lt {n : Nat} {buf : Fin n → UInt8} {i : Fin n} (h : buf i = 0) :
    (ofBuf buf).length < n := by
  have hle : ofBuf buf <+: List.ofFn buf := List.takeWhile_prefix _
  have hne : ofBuf buf ≠ List.ofFn buf := by
    intro heq
    have hmem : 0 ∈ List.ofFn buf := List.mem_ofFn.mpr ⟨i, h⟩
    rw [← heq] at hmem
    exact zero_notMem_ofBytes _ hmem
  have hlen := hle.length_le
  rw [List.length_ofFn] at hlen
  refine lt_of_le_of_ne hlen fun heq => hne (hle.eq_of_length ?_)
  rw [heq, List.length_ofFn]

/-- Two buffers that agree up to a NUL at `i` hold the same string. What the buffers hold behind it
makes no difference. -/
theorem ofBuf_congr {n : Nat} {a b : Fin n → UInt8} (i : Fin n) (hlt : ∀ j < i, a j = b j)
    (ha : a i = 0) (hb : b i = 0) : ofBuf a = ofBuf b := by
  induction n with
  | zero => exact i.elim0
  | succ n ih =>
    simp only [ofBuf, ofBytes, List.ofFn_succ, List.takeWhile_cons]
    cases i using Fin.cases with
    | zero => simp [ha, hb]
    | succ k =>
      -- the NUL is not the first byte, so the first bytes agree
      have hzero : a 0 = b 0 := hlt 0 (Fin.succ_pos k)
      have htail : ofBuf (fun j => a j.succ) = ofBuf fun j => b j.succ :=
        ih k (fun j hj => hlt j.succ (Fin.succ_lt_succ_iff.2 hj)) ha hb
      simp only [ofBuf, ofBytes] at htail
      rw [hzero, htail]

/-- A buffer that holds a word and a NUL behind it. The word itself may have a NUL in it. -/
theorem ofBuf_word {n : Nat} {buf : Fin n → UInt8} {w : List UInt8} (hlen : w.length < n)
    (hword : ∀ j : Fin n, ∀ hj : j.val < w.length, buf j = w[j.val]) (hnul : buf ⟨_, hlen⟩ = 0) :
    ofBuf buf = ofBytes w := by
  induction n generalizing w with
  | zero => exact absurd hlen (Nat.not_lt_zero _)
  | succ n ih =>
    simp only [ofBuf, ofBytes, List.ofFn_succ, List.takeWhile_cons]
    cases w with
    | nil =>
      have hzero : buf 0 = 0 := hnul
      simp [hzero]
    | cons b w =>
      have hfirst : buf 0 = b := hword 0 (Nat.succ_pos _)
      have htail : ofBuf (fun j => buf j.succ) = ofBytes w :=
        ih (Nat.lt_of_succ_lt_succ hlen) (fun j hj => hword j.succ (Nat.succ_lt_succ hj)) hnul
      simp only [ofBuf, ofBytes] at htail
      rw [hfirst, htail, List.takeWhile_cons]

end CStr
