import Mathlib.Data.List.Basic
import Mathlib.Algebra.GroupWithZero.Nat

/-!
# `Lib.Extents`: extents placed one behind the other

`place limit start rs` gives the requests `rs` an extent each, the first at `start` and each of the
others where the one before ends. An extent gets the size that was asked for, or the rest below
`limit` if that is less. The first one of size 0 ends the list.

An allocation of this kind has a fixed order and no holes, so where an extent starts is the sum of
the sizes before it. The induction is on the requests with the start as a parameter: the tail of a
placement is a placement from a later start.

- `mem_place`: every extent lies between `start` and `limit`.
- `pairwise_place`: none of them overlap.
-/

set_option autoImplicit false

namespace Extents

/-- The extents `(start, size)` for the requests. -/
def place (limit : Nat) : Nat → List Nat → List (Nat × Nat)
  | _, [] => []
  | start, r :: rs =>
    if min r (limit - start) = 0 then []
    else (start, min r (limit - start)) :: place limit (start + min r (limit - start)) rs

variable {limit start : Nat} {rs : List Nat}

/-- No requests get no extents. -/
@[simp] theorem place_nil : place limit start [] = [] := rfl

/-- A request for nothing ends the list. -/
@[simp] theorem place_zero_cons : place limit start (0 :: rs) = [] := by
  rw [place, if_pos (Nat.zero_min _)]

/-- Behind the limit nothing is placed. -/
theorem place_of_limit_le (h : limit ≤ start) : place limit start rs = [] := by
  cases rs with
  | nil => rfl
  | cons r rs =>
    have hroom : min r (limit - start) = 0 := by omega
    rw [place, if_pos hroom]

/-- A request with room. -/
theorem place_cons {r : Nat} (hr : 0 < r) (h : start < limit) :
    place limit start (r :: rs) =
      (start, min r (limit - start)) :: place limit (start + min r (limit - start)) rs := by
  have hsize : min r (limit - start) ≠ 0 := by omega
  rw [place, if_neg hsize]

/-- The first size, 0 if there is none. -/
theorem head_place (limit start r : Nat) (rs : List Nat) :
    ((place limit start (r :: rs)).map Prod.snd).headD 0 = min r (limit - start) := by
  rw [place]
  split
  · rename_i hsize
    exact hsize.symm
  · rfl

/-- Each request gets at most one extent. -/
theorem length_place_le (limit start : Nat) (rs : List Nat) :
    (place limit start rs).length ≤ rs.length := by
  induction rs generalizing start with
  | nil => exact Nat.le_refl _
  | cons r rs ih =>
    rw [place]
    split
    · exact Nat.zero_le _
    · exact Nat.succ_le_succ (ih _)

/-- Every extent lies between the start and the limit and is not empty. By induction on the
requests. -/
theorem mem_place {e : Nat × Nat} (h : e ∈ place limit start rs) :
    start ≤ e.1 ∧ 0 < e.2 ∧ e.1 + e.2 ≤ limit := by
  induction rs generalizing start with
  | nil => cases h
  | cons r rs ih =>
    rw [place] at h
    split at h
    · cases h
    · rename_i hsize
      cases h with
      | head => exact ⟨Nat.le_refl _, Nat.pos_of_ne_zero hsize, by dsimp only; omega⟩
      | tail _ hmem =>
        obtain ⟨hstart, hrest⟩ := ih hmem
        exact ⟨by omega, hrest⟩

/-- An extent ends before the next ones start. -/
theorem pairwise_place (limit start : Nat) (rs : List Nat) :
    (place limit start rs).Pairwise fun e e' => e.1 + e.2 ≤ e'.1 := by
  induction rs generalizing start with
  | nil => exact List.Pairwise.nil
  | cons r rs ih =>
    rw [place]
    split
    · exact List.Pairwise.nil
    · exact List.Pairwise.cons (fun _ he => (mem_place he).1) (ih _)

end Extents
