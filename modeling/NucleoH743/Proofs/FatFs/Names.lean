import Mathlib.Tactic.SplitIfs
import NucleoH743.FatFs.Names
import NucleoH743.Lib.Padded

/-!
# `Proofs.FatFs.Names`: the names that `create_name` makes

`ShortName` is a name with at most eight characters and an extension of at most three, all of them
upper-case ones that a name may have. `ShortName.sfn` is its directory form and `ShortName.text`
what is printed.

The loop of `create_name` keeps a place in the array and the end of the current part, the body or
the extension. `Filled` is its invariant: the array is the directory form of a short name that grows
by one character in each round. From it follows what the loop accepts, and the rounds for a name
that has been printed are the same read from left to right.

What is checked of a single character is checked of all 256 bytes at once (`upChar_table`).

- `nameLoop_shortName`: what is accepted is a short name in directory form.
- `createName_text`: a short name that has been printed is read back.
- `ShortName.sfn_injective`, `ShortName.head_ne_zero`: two names differ in directory form, and none
  looks like a free entry or a deleted one.
- `createName_upper`: letters of either case make the same name.
-/

set_option autoImplicit false

namespace NucleoH743.Ff

open Padded

/-! ### Characters -/

/-- A character that a short name may have. -/
structure NameChar (c : UInt8) : Prop where
  visible : ¬ c ≤ 0x20
  segment : isSeparator c = false
  dot : c ≠ 0x2E
  legal : cvtChar c ∉ illegalSfn
  upper : upChar c = c
  mark : c ≠ ddem

/-- The characters that `create_name` refuses, by their codes. The list is a text in the source. -/
theorem illegalSfn_eq : illegalSfn =
    [0x22, 0x2A, 0x2B, 0x2C, 0x3A, 0x3B, 0x3C, 0x3D, 0x3E, 0x3F, 0x5B, 0x5D, 0x7C, 0x7F] := by
  decide

/-- What is checked of each of the 256 bytes. -/
theorem upChar_table : ∀ n : Fin 256,
    let c := UInt8.ofNat n.val
    ((upChar c ≤ 0x20 ↔ c ≤ 0x20) ∧ isSeparator (upChar c) = isSeparator c ∧
      (upChar c = 0x2E ↔ c = 0x2E) ∧
      (cvtChar (upChar c) ∈ illegalSfn ↔ cvtChar c ∈ illegalSfn)) ∧
      upChar (upChar c) = upChar c ∧ upChar c ≠ ddem := by
  rw [illegalSfn_eq]
  decide +kernel

/-- The tests of the loop do not depend on the case. -/
theorem upChar_tests (c : UInt8) : (upChar c ≤ 0x20 ↔ c ≤ 0x20) ∧
    isSeparator (upChar c) = isSeparator c ∧ (upChar c = 0x2E ↔ c = 0x2E) ∧
    (cvtChar (upChar c) ∈ illegalSfn ↔ cvtChar c ∈ illegalSfn) := by
  have h := (upChar_table ⟨c.toNat, c.toNat_lt⟩).1
  rwa [UInt8.ofNat_toNat] at h

/-- Upper case is reached in one step, and never by the byte that marks a free entry. -/
theorem upChar_upChar (c : UInt8) : upChar (upChar c) = upChar c ∧ upChar c ≠ ddem := by
  have h := (upChar_table ⟨c.toNat, c.toNat_lt⟩).2
  rwa [UInt8.ofNat_toNat] at h

/-- What the loop puts into a name. -/
theorem nameChar_upChar {c : UInt8} (hvisible : ¬ c ≤ 0x20) (hseg : ¬ isSeparator c = true)
    (hdot : c ≠ 0x2E) (hlegal : cvtChar c ∉ illegalSfn) : NameChar (upChar c) := by
  obtain ⟨hspace, hsep, hpoint, hill⟩ := upChar_tests c
  obtain ⟨hup, hmark⟩ := upChar_upChar c
  exact ⟨mt hspace.1 hvisible, by rw [hsep]; simpa using hseg, mt hpoint.1 hdot,
    mt hill.1 hlegal, hup, hmark⟩

/-- A character of a name is no space, which fills the name up. -/
theorem NameChar.ne_space {c : UInt8} (h : NameChar c) : c ≠ 0x20 := by
  rintro rfl
  exact h.visible (by decide)

/-- It is not the byte that stands for `DDEM` in a directory. -/
theorem NameChar.ne_rddem {c : UInt8} (h : NameChar c) : c ≠ rddem := by
  rintro rfl
  exact h.visible (by decide)

/-! ### Short names -/

/-- A body and an extension. -/
structure ShortName where
  body : List UInt8
  ext : List UInt8
  body_le : body.length ≤ 8
  ext_le : ext.length ≤ 3
  body_char : ∀ c ∈ body, NameChar c
  ext_char : ∀ c ∈ ext, NameChar c

namespace ShortName

/-- In directory form. -/
def sfn (n : ShortName) : List UInt8 := pad 8 0x20 n.body ++ pad 3 0x20 n.ext

/-- As it is printed. -/
def text (n : ShortName) : List UInt8 := n.body ++ if n.ext = [] then [] else 0x2E :: n.ext

variable (n : ShortName)

/-- The directory form has eleven bytes. -/
theorem length_sfn : n.sfn.length = 11 := by
  rw [sfn, List.length_append, length_pad n.body_le, length_pad n.ext_le]

/-- Characters of a name hold no space. -/
theorem space_notMem {l : List UInt8} (h : ∀ c ∈ l, NameChar c) : (0x20 : UInt8) ∉ l :=
  fun hmem => (h _ hmem).ne_space rfl

/-- The directory form tells the names apart. -/
theorem sfn_injective {n n' : ShortName} (h : n.sfn = n'.sfn) : n = n' := by
  have hlen : (pad 8 0x20 n.body).length = (pad 8 0x20 n'.body).length := by
    rw [length_pad n.body_le, length_pad n'.body_le]
  obtain ⟨hbody, hext⟩ := List.append_inj h hlen
  cases n with
  | mk body ext _ _ hb he =>
    cases n' with
    | mk body' ext' _ _ hb' he' =>
      obtain rfl := pad_injective (space_notMem hb) (space_notMem hb') hbody
      obtain rfl := pad_injective (space_notMem he) (space_notMem he') hext
      rfl

/-- No entry with a short name counts as deleted. -/
theorem head_ne_ddem : n.sfn.head? ≠ some ddem := by
  unfold sfn
  cases hbody : n.body with
  | nil => exact fun h => absurd (Option.some.inj h) (by decide)
  | cons c l =>
    intro h
    have hc := n.body_char c (by rw [hbody]; exact List.mem_cons_self)
    exact hc.mark (Option.some.inj h)

/-- Nor as free. -/
theorem head_ne_zero : n.sfn.head? ≠ some 0 := by
  unfold sfn
  cases hbody : n.body with
  | nil => exact fun h => absurd (Option.some.inj h) (by decide)
  | cons c l =>
    intro h
    have hc := n.body_char c (by rw [hbody]; exact List.mem_cons_self)
    obtain rfl := Option.some.inj h
    exact hc.visible (by decide)

end ShortName

/-! ### Printing -/

/-- A field that is printed as it is. -/
theorem fnameLoop_append {l : List UInt8} (h : ∀ c ∈ l, NameChar c) {si : Nat}
    (hsi : si + l.length ≤ 8 ∨ 9 ≤ si) (dir : List UInt8) :
    fnameLoop si (l ++ dir) = l ++ fnameLoop (si + l.length) dir := by
  induction l generalizing si with
  | nil => rfl
  | cons c l ih =>
    obtain ⟨hc, hl⟩ := List.forall_mem_cons.1 h
    rw [List.length_cons] at hsi
    have hnine : si + 1 ≠ 9 := by omega
    rw [List.cons_append, fnameLoop, if_neg hc.ne_space]
    dsimp only
    rw [if_neg hnine, if_neg hc.ne_rddem, ih hl (by omega), List.length_cons, List.cons_append]
    congr 3
    omega

/-- The padding is not printed. -/
theorem fnameLoop_spaces (k si : Nat) (dir : List UInt8) :
    fnameLoop si (List.replicate k 0x20 ++ dir) = fnameLoop (si + k) dir := by
  induction k generalizing si with
  | zero => rfl
  | succ k ih =>
    rw [List.replicate_succ, List.cons_append, fnameLoop, if_pos rfl, ih]
    congr 1
    omega

/-- `get_fileinfo` prints what the name is in text: it leaves the spaces out and puts a dot in front
of an extension. -/
theorem fname_sfn (n : ShortName) : fname n.sfn = n.text := by
  have hle := n.body_le
  have hbody : fname n.sfn = n.body ++ fnameLoop 8 (pad 3 0x20 n.ext) := by
    have height : 0 + n.body.length + (8 - n.body.length) = 8 := by omega
    rw [fname, ShortName.sfn, pad, List.append_assoc,
      fnameLoop_append n.body_char (.inl (by omega)), fnameLoop_spaces, height]
  rw [hbody, ShortName.text]
  congr 1
  cases hext : n.ext with
  | nil => rfl
  | cons c l =>
    -- the dot stands in front of the first character of the extension
    have hchars := n.ext_char
    rw [hext] at hchars
    obtain ⟨hc, hl⟩ := List.forall_mem_cons.1 hchars
    have hend := fnameLoop_spaces (3 - (l.length + 1)) (9 + l.length) []
    rw [List.append_nil] at hend
    rw [if_neg (List.cons_ne_nil c l), pad, List.cons_append, fnameLoop, if_neg hc.ne_space]
    dsimp only
    rw [if_pos rfl, if_neg hc.ne_rddem, fnameLoop_append hl (.inr (Nat.le_refl 9)),
      List.length_cons, hend, fnameLoop, List.append_nil]

/-! ### Reading -/

/-- The characters of a field go behind the text that is there. By induction on the characters. None
of them is a separator, a dot or an illegal one, so each goes the same way through the loop. -/
theorem nameLoop_field {l : List UInt8} (h : ∀ c ∈ l, NameChar c) {w : Nat} (text : List UInt8)
    (hfit : text.length + l.length ≤ w) (pre post p : List UInt8) :
    nameLoop (l ++ p) (pre.length + text.length) (pre.length + w)
        (pre ++ (pad w 0x20 text ++ post)) =
      nameLoop p (pre.length + (text ++ l).length) (pre.length + w)
        (pre ++ (pad w 0x20 (text ++ l) ++ post)) := by
  induction l generalizing text with
  | nil => rw [List.append_nil, List.nil_append]
  | cons c l ih =>
    obtain ⟨hc, hl⟩ := List.forall_mem_cons.1 h
    rw [List.length_cons] at hfit
    have hroom : ¬ (c = 0x2E ∨ pre.length + w ≤ pre.length + text.length) := by
      rintro (hdot | hfull)
      · exact hc.dot hdot
      · omega
    have hnext : pre.length + text.length + 1 = pre.length + (text ++ [c]).length := by
      rw [List.length_append, List.length_singleton]
      omega
    have hfit' : (text ++ [c]).length + l.length ≤ w := by
      rw [List.length_append, List.length_singleton]
      omega
    rw [List.cons_append, nameLoop, if_neg hc.visible, if_neg (by simp [hc.segment]),
      if_neg hroom, if_neg hc.legal, hc.upper, set_field (by omega), hnext, ih hl _ hfit',
      List.append_assoc, List.singleton_append]

/-- The loop of `create_name` puts the body in front. Its characters stay below the ninth place, so
no overflow ends the name. -/
theorem nameLoop_body (n : ShortName) (p : List UInt8) :
    nameLoop (n.body ++ p) 0 8 (List.replicate 11 0x20) =
      nameLoop p n.body.length 8 (pad 8 0x20 n.body ++ pad 3 0x20 []) := by
  have hfit : ([] : List UInt8).length + n.body.length ≤ 8 := by simpa using n.body_le
  have h := nameLoop_field n.body_char [] hfit [] (pad 3 0x20 []) p
  simp only [List.nil_append, List.length_nil, Nat.zero_add] at h
  exact h

/-- Behind the dot it puts the extension. -/
theorem nameLoop_ext (n : ShortName) (p : List UInt8) :
    nameLoop (n.ext ++ p) 8 11 (pad 8 0x20 n.body ++ pad 3 0x20 []) =
      nameLoop p (8 + n.ext.length) 11 n.sfn := by
  have hfit : ([] : List UInt8).length + n.ext.length ≤ 3 := by simpa using n.ext_le
  have h := nameLoop_field n.ext_char [] hfit (pad 8 0x20 n.body) [] p
  rwa [length_pad n.body_le, List.append_nil, List.append_nil, List.nil_append] at h

/-- The loop takes a name that has been printed, and goes on behind it with a field that tells
whether there was anything. -/
theorem nameLoop_text (n : ShortName) : ∃ i ni, (i = 0 ↔ n.text = []) ∧
    ∀ p, nameLoop (n.text ++ p) 0 8 (List.replicate 11 0x20) = nameLoop p i ni n.sfn := by
  by_cases hext : n.ext = []
  · refine ⟨n.body.length, 8, ?_, fun p => ?_⟩
    · simp [ShortName.text, hext]
    · rw [ShortName.text, if_pos hext, List.append_nil, nameLoop_body, ShortName.sfn, hext]
  · refine ⟨8 + n.ext.length, 11, ?_, fun p => ?_⟩
    · simp [ShortName.text, hext]
    · -- the dot, and then the characters of the extension
      rw [ShortName.text, if_neg hext, List.append_assoc, List.cons_append, nameLoop_body,
        nameLoop, if_neg (by decide), if_neg (by decide), if_pos (.inl rfl), if_neg (by decide),
        nameLoop_ext]

/-- A name that has been printed is read back, where the text `p` behind it ends the segment: it
is at its end, or begins with a separator. Nothing is printed for the name without characters,
which the path `.` makes. -/
theorem createName_text (n : ShortName) {p rest : List UInt8} {last : Bool}
    (hp : ∀ i ni sfn, nameLoop p i ni sfn = .ok ⟨i, sfn, last, rest⟩) :
    createName (n.text ++ p) =
      if n.text = [] then .error .invalidName else .ok (⟨n.sfn, last, false⟩, rest) := by
  obtain ⟨i, ni, hi, hrun⟩ := nameLoop_text n
  rw [createName, hrun, hp]
  dsimp only
  by_cases htext : n.text = []
  · rw [if_pos (hi.2 htext), if_pos htext]
  · rw [if_neg (mt hi.1 htext), if_neg htext, if_neg n.head_ne_ddem]

/-- The end of the path ends a segment. -/
theorem nameLoop_end (i ni : Nat) (sfn : List UInt8) :
    nameLoop [] i ni sfn = .ok ⟨i, sfn, true, []⟩ := rfl

/-- A separator ends a segment, and the next one begins behind it. -/
theorem nameLoop_separator {p : List UInt8} (hp : p.dropWhile isSeparator = p) (i ni : Nat)
    (sfn : List UInt8) : nameLoop (0x2F :: p) i ni sfn = .ok ⟨i, sfn, false, p⟩ := by
  rw [nameLoop, if_neg (by decide), if_pos (by decide), hp]

/-! ### The rest of the path -/

/-- The loop takes at least one byte. What is left is a part of the path behind its first byte. By
the recursion of the loop. -/
theorem nameLoop_rest {p : List UInt8} {i ni : Nat} {sfn : List UInt8} {s : Scan}
    (h : nameLoop p i ni sfn = .ok s) : s.rest <:+ p.tail := by
  induction p generalizing i ni sfn with
  | nil =>
    obtain rfl := Except.ok.inj h
    exact List.suffix_refl _
  | cons c p ih =>
    rw [nameLoop] at h
    have hnext : ∀ {i ni : Nat} {sfn : List UInt8}, nameLoop p i ni sfn = .ok s → s.rest <:+ p :=
      fun h => (ih h).trans (List.tail_suffix p)
    split_ifs at h
    · obtain rfl := Except.ok.inj h
      exact List.suffix_refl _
    · obtain rfl := Except.ok.inj h
      exact List.dropWhile_suffix _
    · exact hnext h
    · exact hnext h

/-- A segment takes at least one byte of the path. -/
theorem createName_rest {path rest : List UInt8} {fn : Fn}
    (h : createName path = .ok (fn, rest)) : rest <:+ path.tail := by
  unfold createName at h
  split at h
  · cases h
  · rename_i s hrun
    split at h
    · cases h
    · obtain ⟨-, rfl⟩ := Prod.mk.inj (Except.ok.inj h)
      exact nameLoop_rest hrun

/-! ### Accepted names -/

/-- Where the loop is when it has put the name `n` so far. -/
def Filled (n : ShortName) (i ni : Nat) : Prop :=
  ni = 8 ∧ n.ext = [] ∧ i = n.body.length ∨ ni = 11 ∧ i = 8 + n.ext.length

/-- One more character. It goes to the end of the body, or of the extension behind a dot, where
there is room for it. -/
theorem Filled.put {n : ShortName} {i ni : Nat} (h : Filled n i ni) (hlt : i < ni) {c : UInt8}
    (hc : NameChar c) : ∃ n', n'.sfn = n.sfn.set i c ∧ Filled n' (i + 1) ni := by
  have happend : ∀ l : List UInt8, (∀ a ∈ l, NameChar a) → ∀ a ∈ l ++ [c], NameChar a := by
    intro l hl a ha
    rcases List.mem_append.1 ha with ha | ha
    · exact hl a ha
    · rw [List.mem_singleton.1 ha]
      exact hc
  -- a character goes to the end of the body, or of the extension
  rcases h with ⟨rfl, hext, rfl⟩ | ⟨rfl, rfl⟩
  · have hset := set_field (c := 0x20) hlt [] (pad 3 0x20 n.ext) c
    rw [List.nil_append, List.length_nil, Nat.zero_add] at hset
    refine ⟨⟨n.body ++ [c], n.ext, ?_, n.ext_le, happend _ n.body_char, n.ext_char⟩, ?_, ?_⟩
    · rw [List.length_append, List.length_singleton]
      exact hlt
    · exact hset.symm
    · refine .inl ⟨rfl, hext, ?_⟩
      rw [List.length_append, List.length_singleton]
  · have hroom : n.ext.length < 3 := by omega
    have hset := set_field (c := 0x20) hroom (pad 8 0x20 n.body) [] c
    rw [List.append_nil, List.append_nil, length_pad n.body_le] at hset
    refine ⟨⟨n.body, n.ext ++ [c], n.body_le, ?_, n.body_char, happend _ n.ext_char⟩, ?_, ?_⟩
    · rw [List.length_append, List.length_singleton]
      exact hroom
    · exact hset.symm
    · refine .inr ⟨rfl, ?_⟩
      rw [List.length_append, List.length_singleton, Nat.add_assoc]

/-- What the loop accepts. -/
theorem nameLoop_shortName {p : List UInt8} {n : ShortName} {i ni : Nat} (h : Filled n i ni)
    {s : Scan} (hrun : nameLoop p i ni n.sfn = .ok s) : ∃ n' : ShortName, s.sfn = n'.sfn := by
  induction p generalizing n i ni with
  | nil =>
    rw [nameLoop] at hrun
    obtain rfl := Except.ok.inj hrun
    exact ⟨n, rfl⟩
  | cons c p ih =>
    rw [nameLoop] at hrun
    split at hrun
    · obtain rfl := Except.ok.inj hrun
      exact ⟨n, rfl⟩
    · rename_i hvisible
      split at hrun
      · obtain rfl := Except.ok.inj hrun
        exact ⟨n, rfl⟩
      · rename_i hseg
        split at hrun
        · split at hrun
          · cases hrun
          · rename_i hbody
            -- the extension begins
            rcases h with ⟨rfl, hext, rfl⟩ | ⟨rfl, -⟩
            · refine ih (.inr ⟨rfl, ?_⟩) hrun
              rw [hext, List.length_nil]
            · exact absurd (.inl rfl) hbody
        · rename_i hroom
          have hdot : c ≠ 0x2E := fun heq => hroom (.inl heq)
          have hlt : i < ni := Nat.lt_of_not_le fun hle => hroom (.inr hle)
          split at hrun
          · cases hrun
          · rename_i hlegal
            obtain ⟨n', hset, hfilled⟩ :=
              h.put hlt (nameChar_upChar hvisible hseg hdot hlegal)
            rw [← hset] at hrun
            exact ih hfilled hrun

/-- The name of eleven spaces. -/
def ShortName.blank : ShortName where
  body := []
  ext := []
  body_le := by decide
  ext_le := by decide
  body_char := fun _ h => absurd h List.not_mem_nil
  ext_char := fun _ h => absurd h List.not_mem_nil

/-- Every name that is accepted is a short name in directory form. -/
theorem createName_shortName {path rest : List UInt8} {fn : Fn}
    (h : createName path = .ok (fn, rest)) :
    ∃ n : ShortName, fn.sfn = n.sfn ∧ fn.noname = false := by
  unfold createName at h
  split at h
  · cases h
  · rename_i s hrun
    obtain ⟨n, hn⟩ := nameLoop_shortName (n := ShortName.blank) (.inl ⟨rfl, rfl, rfl⟩) hrun
    split at h
    · cases h
    · rw [hn, if_neg n.head_ne_ddem] at h
      obtain ⟨rfl, rfl⟩ := Prod.mk.inj (Except.ok.inj h)
      exact ⟨n, rfl, rfl⟩

/-! ### Upper and lower case -/

/-- To skip separators and to change the case may be done in either order. -/
theorem dropWhile_upper (p : List UInt8) :
    (p.map upChar).dropWhile isSeparator = (p.dropWhile isSeparator).map upChar := by
  rw [List.dropWhile_map]
  congr 2
  exact funext fun c => (upChar_tests c).2.1

/-- The loop makes the same name of the letters of either case. By induction on the path. -/
theorem nameLoop_upper (p : List UInt8) (i ni : Nat) (sfn : List UInt8) :
    nameLoop (p.map upChar) i ni sfn =
      (nameLoop p i ni sfn).map fun s => { s with rest := s.rest.map upChar } := by
  induction p generalizing i ni sfn with
  | nil => rfl
  | cons c p ih =>
    obtain ⟨hspace, hsep, hdot, hill⟩ := upChar_tests c
    have hup := (upChar_upChar c).1
    rw [List.map_cons, nameLoop, nameLoop, dropWhile_upper, ih, ih, hup]
    simp only [hspace, hsep, hdot, hill, ne_eq]
    split_ifs <;> rfl

/-- The case of the letters of a path makes no difference. -/
theorem createName_upper (path : List UInt8) :
    createName (path.map upChar) =
      (createName path).map fun r => (r.1, r.2.map upChar) := by
  rw [createName, createName, nameLoop_upper]
  cases nameLoop path 0 8 (List.replicate 11 0x20) with
  | error res => rfl
  | ok s =>
    dsimp only [Except.map]
    by_cases hi : s.i = 0
    · rw [if_pos hi, if_pos hi]
    · rw [if_neg hi, if_neg hi]

end NucleoH743.Ff
