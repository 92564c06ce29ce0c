import Mathlib.Data.List.Nodup
import Mathlib.Logic.Function.Basic

/-!
# `Lib.LinkedList`: singly linked lists in a heap

A heap maps the addresses that are allocated to cells, each with the address of the next one.
`Seg h p l q` says that the cells `l` lead from the pointer `p` to the pointer `q`, and
`IsList h p l` that they lead to the null pointer and that none of them occurs twice.

The structure of a list in a heap is a relation between the heap, two pointers and the list of its
cells. A path may end anywhere, and this makes it composable: `seg_append` cuts a list in front of a
cell and behind it, the change is made in the middle, and both ends are kept by `Seg.update`, as the
changed cell is not on them. That no cell occurs twice is what makes the last step possible.

- `seg_append`: a path is cut at any of its pointers.
- `Seg.walk_eq`: following the pointers gives the cells of the path.
- `Seg.update`: a change of a cell that is not on the path leaves the path.
- `IsList.cons`, `IsList.cases`, `IsList.unlink`: a cell is put in front, and a cell is taken out at
  the head or behind a cell of the list.
-/

set_option autoImplicit false

namespace LinkedList

variable {A V : Type*}

/-- A cell. -/
structure Cell (A V : Type*) where
  next : Option A
  val : V

/-- The allocated cells. -/
abbrev Heap (A V : Type*) := A → Option (Cell A V)

/-- From the pointer `p`, the cells `l` lead to the pointer `q`. -/
def Seg (h : Heap A V) : Option A → List A → Option A → Prop
  | p, [], q => p = q
  | p, a :: l, q => p = some a ∧ ∃ c, h a = some c ∧ Seg h c.next l q

/-- From the pointer `p`, the cells `l` lead to the null pointer, each of them once. -/
structure IsList (h : Heap A V) (p : Option A) (l : List A) : Prop where
  seg : Seg h p l none
  nodup : l.Nodup

section Seg
variable {h : Heap A V} {p q : Option A} {l m : List A} {a : A}

/-- A path is cut at any of its pointers. By induction on the first part of the path. -/
theorem seg_append : Seg h p (l ++ m) q ↔ ∃ r, Seg h p l r ∧ Seg h r m q := by
  induction l generalizing p with
  | nil =>
    constructor
    · intro hm
      exact ⟨p, rfl, hm⟩
    · rintro ⟨r, rfl, hm⟩
      exact hm
  | cons b l ih =>
    constructor
    · rintro ⟨hp, c, hc, htail⟩
      obtain ⟨r, hl, hm⟩ := ih.1 htail
      exact ⟨r, ⟨hp, c, hc, hl⟩, hm⟩
    · rintro ⟨r, ⟨hp, c, hc, hl⟩, hm⟩
      exact ⟨hp, c, hc, ih.2 ⟨r, hl, hm⟩⟩

/-- The cells of a path are allocated. -/
theorem Seg.allocated (hseg : Seg h p l q) (ha : a ∈ l) : ∃ c, h a = some c := by
  induction l generalizing p with
  | nil => cases ha
  | cons b l ih =>
    obtain ⟨-, c, hc, htail⟩ := hseg
    rcases List.mem_cons.1 ha with rfl | ha
    · exact ⟨c, hc⟩
    · exact ih htail ha

/-- A path whose cells have the same next pointers is the same path. -/
theorem Seg.congr {h' : Heap A V} (hseg : Seg h p l q)
    (heq : ∀ a ∈ l, ∀ c, h a = some c → ∃ c', h' a = some c' ∧ c'.next = c.next) :
    Seg h' p l q := by
  induction l generalizing p with
  | nil => exact hseg
  | cons b l ih =>
    obtain ⟨hp, c, hc, htail⟩ := hseg
    obtain ⟨c', hc', hnext⟩ := heq b List.mem_cons_self c hc
    refine ⟨hp, c', hc', ?_⟩
    rw [hnext]
    exact ih htail fun a ha => heq a (List.mem_cons_of_mem b ha)

/-- The cells that at most `fuel` steps along the pointers reach. -/
def walk (h : Heap A V) : Nat → Option A → List A
  | 0, _ => []
  | _ + 1, none => []
  | fuel + 1, some a =>
    match h a with
    | none => []
    | some c => a :: walk h fuel c.next

/-- Following the pointers gives the cells of a path to the null pointer. By induction on the path,
with as many steps as it has cells. -/
theorem Seg.walk_eq (hseg : Seg h p l none) {fuel : Nat} (hfuel : l.length ≤ fuel) :
    walk h fuel p = l := by
  induction l generalizing p fuel with
  | nil =>
    subst hseg
    cases fuel <;> rfl
  | cons b l ih =>
    obtain ⟨rfl, c, hc, htail⟩ := hseg
    obtain ⟨fuel, rfl⟩ : ∃ n, fuel = n + 1 := Nat.exists_eq_add_one.2 (by simp at hfuel; omega)
    simp only [walk, hc]
    rw [ih htail (by simpa using hfuel)]

variable [DecidableEq A]

/-- A change of a cell that is not on the path leaves the path. -/
theorem Seg.update (hseg : Seg h p l q) (ha : a ∉ l) (c : Option (Cell A V)) :
    Seg (Function.update h a c) p l q := by
  refine hseg.congr fun b hb cell hcell => ⟨cell, ?_, rfl⟩
  have hne : b ≠ a := fun heq => ha (heq ▸ hb)
  rw [Function.update_of_ne hne, hcell]

end Seg

section IsList
variable {h : Heap A V} {p : Option A} {l m : List A} {a b : A}

/-- The head of a list, and the list behind it. -/
theorem IsList.cases (hl : IsList h p (a :: l)) :
    p = some a ∧ ∃ c, h a = some c ∧ IsList h c.next l := by
  obtain ⟨hp, c, hc, htail⟩ := hl.seg
  exact ⟨hp, c, hc, htail, (List.nodup_cons.1 hl.nodup).2⟩

/-- The cells of a list are allocated. -/
theorem IsList.allocated (hl : IsList h p l) (ha : a ∈ l) : ∃ c, h a = some c :=
  hl.seg.allocated ha

/-- The pointer of a list is its head. -/
theorem IsList.head (hl : IsList h p l) : p = l.head? := by
  cases l with
  | nil => exact hl.seg
  | cons a l => exact hl.cases.1

variable [DecidableEq A]

/-- A change of a cell that is not in the list leaves the list. -/
theorem IsList.update (hl : IsList h p l) (ha : a ∉ l) (c : Option (Cell A V)) :
    IsList (Function.update h a c) p l := ⟨hl.seg.update ha c, hl.nodup⟩

/-- A new value in a cell leaves every list. -/
theorem IsList.setVal (hl : IsList h p l) {c : Cell A V} (hc : h a = some c) (v : V) :
    IsList (Function.update h a (some { c with val := v })) p l := by
  refine ⟨hl.seg.congr fun b hb cell hcell => ?_, hl.nodup⟩
  by_cases heq : b = a
  · subst heq
    rw [hc] at hcell
    cases hcell
    exact ⟨_, Function.update_self .., rfl⟩
  · exact ⟨cell, by rw [Function.update_of_ne heq, hcell], rfl⟩

/-- A cell is put in front. -/
theorem IsList.cons (hl : IsList h p l) (ha : a ∉ l) (v : V) :
    IsList (Function.update h a (some ⟨p, v⟩)) (some a) (a :: l) :=
  ⟨⟨rfl, ⟨p, v⟩, Function.update_self .., hl.seg.update ha _⟩,
    List.nodup_cons.2 ⟨ha, hl.nodup⟩⟩

/-- A cell is taken out behind the cell `b`, which gets its next pointer. The cell `b` is on the
path once, so the paths before and behind it stay as they are. -/
theorem IsList.unlink (hl : IsList h p (l ++ b :: a :: m)) {cb ca : Cell A V}
    (hcb : h b = some cb) (hca : h a = some ca) :
    IsList (Function.update h b (some { cb with next := ca.next })) p (l ++ b :: m) := by
  obtain ⟨r, hfirst, hp, cb', hcb', hq, ca', hca', htail⟩ := seg_append.1 hl.seg
  rw [hcb] at hcb'
  rw [hca] at hca'
  cases hcb'
  cases hca'
  have hsub : (l ++ b :: m).Nodup :=
    hl.nodup.sublist ((List.Sublist.refl l).append ((List.sublist_cons_self a m).cons_cons b))
  -- `b` stands once in the list, so neither part sees its new pointer
  have hbl : b ∉ l := fun hb =>
    (List.disjoint_of_nodup_append hsub) hb List.mem_cons_self
  have hbm : b ∉ m := (List.nodup_cons.1 (List.nodup_append.1 hsub).2.1).1
  refine ⟨seg_append.2 ⟨r, hfirst.update hbl _, hp, _, Function.update_self .., ?_⟩, hsub⟩
  exact htail.update hbm _

end IsList

end LinkedList
