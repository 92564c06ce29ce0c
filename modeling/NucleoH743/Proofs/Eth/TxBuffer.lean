import NucleoH743.Eth.Transmit

/-!
# `Proofs.Eth.TxBuffer`: the buffer list of a chain

`low_level_output` links the entries of `Txbuffer` while it walks the chain. The body of the loop
takes `linked done` to `linked (done ++ [q])`, so after the walk the list is that of the chain. A
chain that is too long leaves in the middle of the walk.

The entries are a linked list in an array, and the chain of pbufs is one in memory. The list is
built from its head, with the null pointer of its end stored last, so in between it is not a list
yet. `linked done` says what the array holds in between, entry by entry, and `Denotes` what it means
in the end.

- `fillEntry_apply`: what the body of the loop leaves in each entry.
- `fillTxbuffer_eq`: the loop gives the list of the chain, or returns early.
- `linked_denotes`: the list denotes the segments of the chain in order.
- `Denotes.txList_eq`: and these are what the HAL comes by.
-/

set_option autoImplicit false

namespace NucleoH743.Eth

attribute [local instance] ethTxDescCnt_neZero

/-- `Txbuffer` when the pbufs `done` are entered. -/
def linked (done : List Pbuf) : TxBuffer := fun a =>
  match done[a.val]? with
  | some q =>
    { buffer := q.payload
      len := q.len.toUInt32
      next := if a.val + 1 < done.length then some (txEntry (a.val + 1)) else none }
  | none => {}

/-- Without pbufs the list is the zeros that `memset` leaves. -/
@[simp] theorem linked_nil : linked [] = txBufferZero := by
  funext a
  simp [linked, txBufferZero]

/-- An entry inside the array has its own index. -/
theorem txEntry_val {i : Nat} (hi : i < ethTxDescCnt) : (txEntry i).val = i := Nat.mod_eq_of_lt hi

/-- The entry with index `i`. -/
theorem eq_txEntry_iff {a : Fin ethTxDescCnt} {i : Nat} (hi : i < ethTxDescCnt) :
    a = txEntry i ↔ a.val = i := by
  rw [Fin.ext_iff, txEntry_val hi]

/-- What the body of the loop leaves in each entry. The body stores in the entry of the pbuf and in
the one in front of it, so an entry is one of these two or neither. -/
theorem fillEntry_apply {i : Nat} (hi : i < ethTxDescCnt) (q : Pbuf) (isLast : Bool)
    (tx : TxBuffer) (a : Fin ethTxDescCnt) :
    fillEntry i q isLast tx a =
      if a.val = i then
        { buffer := q.payload, len := q.len.toUInt32,
          next := if isLast then none else (tx a).next }
      else if a.val + 1 = i then { tx a with next := some (txEntry i) }
      else tx a := by
  have hprev : i - 1 < ethTxDescCnt := by omega
  by_cases hcur : a.val = i
  · have heq := (eq_txEntry_iff hi).2 hcur
    have hne : 0 < i → a ≠ txEntry (i - 1) := by
      intro hpos hp
      have := (eq_txEntry_iff hprev).1 hp
      omega
    subst heq
    rw [if_pos hcur]
    cases isLast <;> by_cases hpos : 0 < i <;>
      simp [fillEntry, hpos, hne]
  · have hne : a ≠ txEntry i := fun h => hcur ((eq_txEntry_iff hi).1 h)
    rw [if_neg hcur]
    by_cases hsucc : a.val + 1 = i
    · have heq : a = txEntry (i - 1) := (eq_txEntry_iff hprev).2 (by omega)
      have hpos : 0 < i := by omega
      rw [if_pos hsucc]
      subst heq
      cases isLast <;> simp [fillEntry, hpos, hne]
    · have hne' : 0 < i → a ≠ txEntry (i - 1) := by
        intro hpos hp
        have := (eq_txEntry_iff hprev).1 hp
        omega
      rw [if_neg hsucc]
      cases isLast <;> by_cases hpos : 0 < i <;>
        simp [fillEntry, hpos, hne, hne']

/-- The body of the loop enters one more pbuf. By the place of an entry: the new one, the one in
front of it, or another. -/
theorem fillEntry_linked (done : List Pbuf) (q : Pbuf) (isLast : Bool)
    (hroom : done.length < ethTxDescCnt) :
    fillEntry done.length q isLast (linked done) = linked (done ++ [q]) := by
  funext a
  rw [fillEntry_apply hroom]
  rcases Nat.lt_trichotomy a.val done.length with h | h | h
  · rw [if_neg (by omega)]
    -- an earlier entry: the last of them gets a successor
    by_cases hsucc : a.val + 1 = done.length
    · rw [if_pos hsucc]
      simp [linked, List.getElem?_append_left h, h, hsucc]
    · rw [if_neg hsucc]
      have hlt : a.val + 1 < done.length := by omega
      have hlt' : a.val < done.length + 1 := by omega
      simp [linked, h, hlt, hlt']
  · rw [if_pos h]
    simp [linked, h]
  · rw [if_neg (by omega), if_neg (by omega)]
    have hout : ¬ a.val < (done ++ [q]).length := by simp; omega
    simp [linked, Nat.le_of_lt h]
    rw [List.getElem?_eq_none (by simp; omega)]

/-- The loop from the entry behind `done` on. By induction on the pbufs that are left. -/
theorem fillTxbuffer_linked (done rest : List Pbuf) (hroom : done.length ≤ ethTxDescCnt) :
    fillTxbuffer done.length (linked done) rest =
      if (done ++ rest).length ≤ ethTxDescCnt then some (linked (done ++ rest)) else none := by
  induction rest generalizing done with
  | nil => simp [fillTxbuffer, hroom]
  | cons q rest ih =>
    rw [fillTxbuffer]
    by_cases hfull : ethTxDescCnt ≤ done.length
    · rw [if_pos hfull, if_neg (by simp; omega)]
    · have ih := ih (done ++ [q]) (by simp; omega)
      rw [if_neg hfull, fillEntry_linked done q _ (by omega)]
      rw [List.length_append, List.length_singleton, List.append_assoc, List.singleton_append] at ih
      exact ih

/-- The loop gives the list of the chain, or returns early. -/
theorem fillTxbuffer_eq (p : PbufChain) :
    fillTxbuffer 0 txBufferZero p.pbufs =
      if p.pbufs.length ≤ ethTxDescCnt then some (linked p.pbufs) else none := by
  rw [← linked_nil]
  exact fillTxbuffer_linked [] p.pbufs (Nat.zero_le _)

/-! ### What the list denotes -/

/-- The entries of `Txbuffer` lead from the first one over `ps`, and no further. -/
def Denotes (tx : TxBuffer) (ps : List Pbuf) : Prop :=
  ∃ l, LinkedList.IsList (txCells tx) (some 0) l ∧
    l.map (fun a => ((tx a).buffer, (tx a).len)) = ps.map fun q => (q.payload, q.len.toUInt32)


/-- The entries from `j` on, `n` of them. -/
def entries (j n : Nat) : List (Fin ethTxDescCnt) := (List.range' j n).map (txEntry)

/-- No entry stands twice. -/
theorem entries_nodup {j n : Nat} (hn : j + n ≤ ethTxDescCnt) : (entries j n).Nodup := by
  refine List.Nodup.map_on ?_ List.nodup_range'
  intro a ha b hb heq
  rw [List.mem_range'_1] at ha hb
  have hval := congrArg Fin.val heq
  rwa [txEntry_val (by omega), txEntry_val (by omega)] at hval

/-- The entry of the pbuf at place `i`. -/
theorem linked_txEntry {ps : List Pbuf} (hlen : ps.length ≤ ethTxDescCnt) {i : Nat}
    (hi : i < ps.length) :
    linked ps (txEntry i) =
      { buffer := ps[i].payload
        len := ps[i].len.toUInt32
        next := if i + 1 < ps.length then some (txEntry (i + 1)) else none } := by
  have hval : (txEntry i).val = i := txEntry_val (by omega)
  simp [linked, hval, hi]

/-- From entry `j` on, the entries lead to the last one. -/
theorem seg_linked {ps : List Pbuf} (hlen : ps.length ≤ ethTxDescCnt) {n j : Nat}
    (hj : j + n + 1 = ps.length) :
    LinkedList.Seg (txCells (linked ps)) (some (txEntry j)) (entries j (n + 1))
      none := by
  induction n generalizing j with
  | zero =>
    refine ⟨rfl, _, rfl, ?_⟩
    rw [linked_txEntry hlen (by omega), if_neg (by omega)]
    rfl
  | succ n ih =>
    refine ⟨rfl, _, rfl, ?_⟩
    rw [linked_txEntry hlen (by omega), if_pos (by omega)]
    exact ih (by omega)

/-- The list that the loop builds denotes the chain. -/
theorem linked_denotes {ps : List Pbuf} (hne : ps ≠ []) (hlen : ps.length ≤ ethTxDescCnt) :
    Denotes (linked ps) ps := by
  obtain ⟨n, hn⟩ := Nat.exists_eq_add_one.2 (List.length_pos_iff.2 hne)
  refine ⟨entries 0 ps.length, ⟨?_, entries_nodup (by omega)⟩, ?_⟩
  · rw [hn]
    exact seg_linked (j := 0) hlen (by omega)
  · refine List.ext_getElem (by simp [entries]) fun i hi hi' => ?_
    have hips : i < ps.length := by simpa using hi'
    simp only [entries, List.getElem_map, List.getElem_range', Nat.zero_add, Nat.one_mul]
    rw [linked_txEntry hlen hips]

section Denotes
variable {tx : TxBuffer} {ps : List Pbuf}

/-- What the HAL comes by is the chain. -/
theorem Denotes.txList_eq (h : Denotes tx ps) (hlen : ps.length ≤ ethTxDescCnt) :
    (txList tx).map (fun b => (b.buffer, b.len)) = ps.map fun q => (q.payload, q.len.toUInt32) := by
  obtain ⟨l, hl, hmap⟩ := h
  have hlength : l.length = ps.length := by simpa using congrArg List.length hmap
  rw [txList, hl.seg.walk_eq (by omega), List.map_map, ← hmap]
  rfl

/-- The HAL comes by as many buffers as the chain has pbufs. -/
theorem Denotes.length_txList (h : Denotes tx ps) (hlen : ps.length ≤ ethTxDescCnt) :
    (txList tx).length = ps.length := by
  simpa using congrArg List.length (h.txList_eq hlen)

/-- The buffers are as long as the pbufs together. -/
theorem Denotes.sum_txList (h : Denotes tx ps) (hlen : ps.length ≤ ethTxDescCnt) :
    ((txList tx).map fun b => b.len.toNat).sum = (ps.map fun q => q.len.toNat).sum := by
  have hlens := congrArg (List.map fun s : UInt32 × UInt32 => s.2.toNat) (h.txList_eq hlen)
  rw [List.map_map, List.map_map] at hlens
  have heq : ps.map (fun q => q.len.toUInt32.toNat) = ps.map fun q => q.len.toNat := by simp
  rw [← heq]
  exact congrArg List.sum hlens

end Denotes

end NucleoH743.Eth
