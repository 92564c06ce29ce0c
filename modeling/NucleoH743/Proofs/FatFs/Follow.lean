import Mathlib.Data.List.Infix
import NucleoH743.FatFs.Follow
import NucleoH743.Proofs.FatFs.Names

/-!
# `Proofs.FatFs.Follow`: what a path denotes

`follow_path` goes through a path one segment after the other, and the directory that it is in
decides whether it goes on. The proofs are inductions over the rounds of its loop, with the facts
about one segment from `Proofs.FatFs.Names`.

- `followLoop_fuel`: the length of the path is enough for the loop.
- `followPath_slashed`: a path of visible characters that ends in a separator denotes no entry,
  since the segment behind the separator is empty. A byte up to the space is different: it ends
  the path in front of a separator.
- `followLoop_entry_iff`: a path denotes an entry iff its segments are the short names of
  directories, and of the entry itself.
- `followPath_printed`: the path that is put together from the printed names on the way to an
  entry denotes that entry. This is the path a client makes from what `LIST` shows it.
-/

set_option autoImplicit false

namespace NucleoH743.FatFs

open Ff
open CStr (textBytes)

variable {nodes : Entry → Option Node}

/-! ### The loop -/

/-- More rounds than the path has bytes change nothing. -/
theorem followLoop_fuel {fuel : Nat} {path : Path} (h : path.length < fuel) (dir : Entry) :
    followLoop nodes fuel dir path = followLoop nodes (path.length + 1) dir path := by
  -- on the rounds, with a shorter path in each
  induction fuel using Nat.strongRecOn generalizing dir path with
  | ind fuel ih =>
    cases fuel with
    | zero => omega
    | succ fuel =>
      rw [followLoop, followLoop]
      cases hname : createName path with
      | error res => rfl
      | ok r =>
        obtain ⟨fn, rest⟩ := r
        have hlen := (createName_rest hname).length_le
        rw [List.length_tail] at hlen
        dsimp only
        by_cases hfull : path = []
        · -- an empty path has no segment
          subst hfull
          cases hname
        · have hpos : 0 < path.length := List.length_pos_iff.2 hfull
          have hleft : followLoop nodes fuel (dir ++ fn.sfn) rest =
              followLoop nodes (rest.length + 1) (dir ++ fn.sfn) rest :=
            ih fuel (Nat.lt_succ_self fuel) (by omega) (dir ++ fn.sfn)
          by_cases hsame : fuel = path.length
          · rw [hsame]
          · have hright : followLoop nodes path.length (dir ++ fn.sfn) rest =
                followLoop nodes (rest.length + 1) (dir ++ fn.sfn) rest :=
              ih path.length (by omega) (by omega) (dir ++ fn.sfn)
            rw [hleft, hright]

/-- One round. The rest of the path is shorter, so the rounds that are left are enough for it. -/
theorem followLoop_ok {path rest : Path} {fn : Fn} (h : createName path = .ok (fn, rest))
    (dir : Entry) :
    followLoop nodes (path.length + 1) dir path =
      if fn.last then .entry (dir ++ fn.sfn)
      else if nodes (dir ++ fn.sfn) = some .dir then
        followLoop nodes (rest.length + 1) (dir ++ fn.sfn) rest
      else .noPath := by
  have hlen := (createName_rest h).length_le
  rw [List.length_tail] at hlen
  rw [followLoop, h]
  dsimp only
  by_cases hfull : path = []
  · subst hfull
    cases h
  · have hpos : 0 < path.length := List.length_pos_iff.2 hfull
    rw [followLoop_fuel (by omega)]

/-! ### Paths that end in a separator -/

/-- A path of visible characters that ends in a separator, or an empty one. -/
def Slashed (path : Path) : Prop :=
  (∀ c ∈ path, 0x20 < c) ∧ (path = [] ∨ path.getLast? = some 0x2F)

/-- What is left of such a path is one. -/
theorem Slashed.suffix {path rest : Path} (h : Slashed path) (hrest : rest <:+ path) :
    Slashed rest := by
  refine ⟨fun c hc => h.1 c (hrest.subset hc), ?_⟩
  cases rest with
  | nil => exact .inl rfl
  | cons c rest =>
    obtain ⟨front, rfl⟩ := hrest
    obtain hnil | hlast := h.2
    · simp at hnil
    · rw [List.getLast?_append_of_ne_nil _ (List.cons_ne_nil c rest)] at hlast
      exact .inr hlast

/-- The loop of `create_name` comes to a separator before it comes to the end. No byte of such a
path ends it, and its last byte is a separator. By induction on the path. -/
theorem nameLoop_slashed {path : Path} (h : Slashed path) (hne : path ≠ []) {i ni : Nat}
    {sfn : List UInt8} {s : Scan} (hrun : nameLoop path i ni sfn = .ok s) : s.last = false := by
  induction path generalizing i ni sfn with
  | nil => exact absurd rfl hne
  | cons c p ih =>
    have hvisible : ¬ c ≤ 0x20 := UInt8.not_le.2 (h.1 c List.mem_cons_self)
    rw [nameLoop, if_neg hvisible] at hrun
    by_cases hsep : isSeparator c = true
    · rw [if_pos hsep] at hrun
      obtain rfl := Except.ok.inj hrun
      rfl
    · rw [if_neg hsep] at hrun
      -- a character that is no separator is not the last one
      have hrest : p ≠ [] := by
        rintro rfl
        have hlast := h.2.resolve_left (List.cons_ne_nil c [])
        obtain rfl := Option.some.inj hlast
        exact hsep (by decide)
      have hnext : ∀ {i ni : Nat} {sfn : List UInt8}, nameLoop p i ni sfn = .ok s →
          s.last = false := ih (h.suffix (List.suffix_cons c p)) hrest
      split_ifs at hrun
      · exact hnext hrun
      · exact hnext hrun

/-- The segment of such a path is not its last one. -/
theorem createName_slashed {path rest : Path} {fn : Fn} (h : Slashed path)
    (hname : createName path = .ok (fn, rest)) : fn.last = false := by
  have hne : path ≠ [] := by
    rintro rfl
    cases hname
  unfold createName at hname
  split at hname
  · cases hname
  · rename_i s hrun
    split at hname
    · cases hname
    · obtain ⟨rfl, -⟩ := Prod.mk.inj (Except.ok.inj hname)
      exact nameLoop_slashed h hne hrun

/-- The loop ends without an entry. By induction on the rounds. Each round reads a name with a
separator behind it, so the loop goes on into a directory or stops with an error. -/
theorem followLoop_slashed (fuel : Nat) {path : Path} (h : Slashed path) (dir e : Entry) :
    followLoop nodes fuel dir path ≠ .entry e := by
  induction fuel generalizing dir path with
  | zero =>
    intro heq
    cases heq
  | succ fuel ih =>
    rw [followLoop]
    cases hname : createName path with
    | error res =>
      intro heq
      cases heq
    | ok r =>
      obtain ⟨fn, rest⟩ := r
      have hrest : Slashed rest :=
        h.suffix ((createName_rest hname).trans (List.tail_suffix path))
      dsimp only
      rw [createName_slashed h hname, if_neg Bool.false_ne_true]
      split_ifs
      · exact ih hrest _
      · intro heq
        cases heq

/-- What is left of a path behind its drive number. -/
theorem getLdnumber_suffix {path rest : Path} (h : getLdnumber path = some rest) :
    rest <:+ path := by
  unfold getLdnumber at h
  split at h
  · split_ifs at h
    obtain rfl := Option.some.inj h
    exact List.drop_suffix 2 path
  · obtain rfl := Option.some.inj h
    exact List.suffix_refl _

/-- `follow_path` has a segment to follow, or no entry. -/
theorem followFrom_loop {path : Path} {e : Entry} (h : followFrom nodes path = .entry e) :
    followLoop nodes ((path.dropWhile isSeparator).length + 1) []
      (path.dropWhile isSeparator) = .entry e := by
  unfold followFrom at h
  split at h
  · cases h
  · rename_i c p hdrop
    split_ifs at h
    have hlen := (List.dropWhile_suffix (l := path) isSeparator).length_le
    rw [hdrop] at hlen ⊢
    rwa [followLoop_fuel (by omega)] at h

/-- A path of visible characters that ends in a separator denotes no entry. -/
theorem followPath_slashed {path : Path} (h : Slashed path) (e : Entry) :
    followPath nodes path ≠ .entry e := by
  intro heq
  unfold followPath at heq
  split at heq
  · cases heq
  · rename_i rest hrest
    have hdrop := (List.dropWhile_suffix isSeparator).trans (getLdnumber_suffix hrest)
    exact followLoop_slashed _ (h.suffix hdrop) [] e (followFrom_loop heq)

/-! ### The names on the way -/

/-- The entry that the names lead to. -/
def entryName (names : List ShortName) : Entry := (names.map ShortName.sfn).flatten

/-- The names lead from the directory `dir` to an entry: all but the last of them are
directories. -/
def Leads (nodes : Entry → Option Node) : Entry → List ShortName → Prop
  | _, [] => False
  | _, [_] => True
  | dir, n :: m :: names =>
    nodes (dir ++ n.sfn) = some .dir ∧ Leads nodes (dir ++ n.sfn) (m :: names)

/-- The path of the names as they are printed, with a separator between them. -/
def printed : List ShortName → Path
  | [] => []
  | [n] => fname n.sfn
  | n :: m :: names => fname n.sfn ++ 0x2F :: printed (m :: names)

/-- An entry that the loop comes to is named by short names. By induction on the rounds:
`create_name` accepts nothing but short names, and every name but the last leads into a
directory. -/
theorem followLoop_names {fuel : Nat} {dir e : Entry} {path : Path}
    (h : followLoop nodes fuel dir path = .entry e) :
    ∃ names, Leads nodes dir names ∧ e = dir ++ entryName names := by
  induction fuel generalizing dir path with
  | zero => cases h
  | succ fuel ih =>
    rw [followLoop] at h
    split at h
    · cases h
    · rename_i fn rest hname
      obtain ⟨n, hn, -⟩ := createName_shortName hname
      dsimp only at h
      rw [hn] at h
      split_ifs at h with hlast hdir
      · obtain rfl := Follow.entry.inj h
        exact ⟨[n], trivial, by simp [entryName]⟩
      · obtain ⟨names, hleads, rfl⟩ := ih h
        cases names with
        | nil => exact absurd hleads id
        | cons m names =>
          exact ⟨n :: m :: names, ⟨hdir, hleads⟩, by simp [entryName, List.append_assoc]⟩

/-- A name that is printed does not begin with a separator. -/
theorem dropWhile_text {n : ShortName} (h : n.text ≠ []) (p : Path) :
    (n.text ++ p).dropWhile isSeparator = n.text ++ p := by
  have hfirst : ∃ c l, n.text = c :: l ∧ isSeparator c = false := by
    unfold ShortName.text at h ⊢
    cases hbody : n.body with
    | cons c l => exact ⟨c, _, rfl, (n.body_char c (by rw [hbody]; exact .head l)).segment⟩
    | nil =>
      by_cases hext : n.ext = []
      · rw [hbody, if_pos hext] at h
        exact absurd rfl h
      · exact ⟨0x2E, n.ext, by rw [if_neg hext]; rfl, by decide⟩
  obtain ⟨c, l, htext, hc⟩ := hfirst
  rw [htext, List.cons_append, List.dropWhile_cons_of_neg (by simp [hc])]

/-- Printed names begin with a character of a name, so `follow_path` skips nothing in front of
them. -/
theorem dropWhile_printed {names : List ShortName} (h : ∀ n ∈ names, n.text ≠ []) :
    (printed names).dropWhile isSeparator = printed names := by
  match names with
  | [] => rfl
  | [n] =>
    have hn := dropWhile_text (h n List.mem_cons_self) []
    rwa [List.append_nil, ← fname_sfn] at hn
  | n :: m :: names =>
    rw [printed, fname_sfn]
    exact dropWhile_text (h n List.mem_cons_self) _

/-- The loop follows the printed names. By induction on the names. Each round reads one of them, and
the separator behind it leaves the rest for the next. -/
theorem followLoop_printed {names : List ShortName} {dir : Entry} (hleads : Leads nodes dir names)
    (htext : ∀ n ∈ names, n.text ≠ []) :
    followLoop nodes ((printed names).length + 1) dir (printed names) =
      .entry (dir ++ entryName names) := by
  induction names generalizing dir with
  | nil => exact absurd hleads id
  | cons n names ih =>
    obtain ⟨hn, hrest⟩ := List.forall_mem_cons.1 htext
    cases names with
    | nil =>
      have hname : createName (fname n.sfn) = .ok (⟨n.sfn, true, false⟩, []) := by
        have h := createName_text n (p := []) nameLoop_end
        rwa [List.append_nil, if_neg hn, ← fname_sfn] at h
      rw [printed, followLoop_ok hname, if_pos rfl]
      simp [entryName]
    | cons m names =>
      have hname : createName (fname n.sfn ++ 0x2F :: printed (m :: names)) =
          .ok (⟨n.sfn, false, false⟩, printed (m :: names)) := by
        have h := createName_text n (nameLoop_separator (dropWhile_printed hrest))
        rwa [if_neg hn, ← fname_sfn] at h
      rw [printed, followLoop_ok hname, if_neg Bool.false_ne_true, if_pos hleads.1,
        ih hleads.2 hrest]
      simp [entryName, List.append_assoc]

/-! ### Printed paths -/

/-- A character of a short name is not a colon. -/
theorem nameChar_ne_colon {c : UInt8} (h : NameChar c) : c ≠ 0x3A := by
  rintro rfl
  exact h.legal (by decide)

/-- No printed name ends the search of `get_ldnumber`. -/
theorem text_plain {n : ShortName} {c : UInt8} (h : c ∈ n.text) : ¬ c ≤ 0x20 ∧ c ≠ 0x3A := by
  unfold ShortName.text at h
  rcases List.mem_append.1 h with hbody | hext
  · exact ⟨(n.body_char c hbody).visible, nameChar_ne_colon (n.body_char c hbody)⟩
  · split_ifs at hext
    · cases hext
    · rcases List.mem_cons.1 hext with rfl | hmem
      · exact ⟨by decide, by decide⟩
      · exact ⟨(n.ext_char c hmem).visible, nameChar_ne_colon (n.ext_char c hmem)⟩

/-- A character of printed names is visible and no colon. So no byte ends the path early, and no
drive number is read from it. -/
theorem printed_plain {names : List ShortName} {c : UInt8} (h : c ∈ printed names) :
    ¬ c ≤ 0x20 ∧ c ≠ 0x3A := by
  induction names with
  | nil => cases h
  | cons n names ih =>
    cases names with
    | nil =>
      rw [printed, fname_sfn] at h
      exact text_plain h
    | cons m names =>
      rw [printed, fname_sfn, List.mem_append, List.mem_cons] at h
      rcases h with htext | rfl | hrest
      · exact text_plain htext
      · exact ⟨by decide, by decide⟩
      · exact ih hrest

/-- An absolute path of printed names has no drive number. -/
theorem getLdnumber_printed (names : List ShortName) :
    getLdnumber (0x2F :: printed names) = some (0x2F :: printed names) := by
  have hnone : (0x2F :: printed names).find? (fun c => c ≤ 0x20 || c = 0x3A) = none := by
    rw [List.find?_eq_none]
    intro c hc
    rcases List.mem_cons.1 hc with rfl | hmem
    · decide
    · simpa using printed_plain hmem
  rw [getLdnumber, hnone, if_neg (by simp)]

/-! ### The case of the letters -/

/-- What the path is asked before its segments does not depend on the case either. -/
theorem upChar_path : ∀ c : UInt8,
    (upChar c = 0x30 ↔ c = 0x30) ∧ (upChar c = 0x3A ↔ c = 0x3A) ∧ (upChar c < 0x20 ↔ c < 0x20) := by
  have htable : ∀ n : Fin 256,
      let c := UInt8.ofNat n.val
      (upChar c = 0x30 ↔ c = 0x30) ∧ (upChar c = 0x3A ↔ c = 0x3A) ∧
        (upChar c < 0x20 ↔ c < 0x20) := by
    decide +kernel
  intro c
  have h := htable ⟨c.toNat, c.toNat_lt⟩
  rwa [UInt8.ofNat_toNat] at h

/-- The drive number has no letters. It is the digit 0 in front of a colon, and neither of the two
changes. -/
theorem getLdnumber_upper (path : Path) :
    getLdnumber (path.map upChar) = (getLdnumber path).map (·.map upChar) := by
  have hcolon : ((path.map upChar).find? (fun c => c ≤ 0x20 || c = 0x3A) = some 0x3A) ↔
      path.find? (fun c => c ≤ 0x20 || c = 0x3A) = some 0x3A := by
    have htest : (fun c : UInt8 => decide (c ≤ 0x20) || decide (c = 0x3A)) ∘ upChar =
        fun c => c ≤ 0x20 || c = 0x3A := by
      funext c
      simp only [Function.comp, (upChar_tests c).1, (upChar_path c).2.1]
    rw [List.find?_map, htest]
    cases path.find? (fun c => c ≤ 0x20 || c = 0x3A) with
    | none => simp
    | some c => simp [(upChar_path c).2.1]
  have hdrive : (path.map upChar).take 2 = [0x30, 0x3A] ↔ path.take 2 = [0x30, 0x3A] := by
    match path with
    | [] => simp
    | [c] => simp
    | c :: d :: rest => simp [(upChar_path c).1, (upChar_path d).2.1]
  unfold getLdnumber
  simp only [hcolon, hdrive]
  split_ifs
  · simp
  · rfl
  · rfl

/-- The loop takes the letters of either case for the same. By induction on its rounds. -/
theorem followLoop_upper (fuel : Nat) (dir : Entry) (path : Path) :
    followLoop nodes fuel dir (path.map upChar) = followLoop nodes fuel dir path := by
  induction fuel generalizing dir path with
  | zero => rfl
  | succ fuel ih =>
    rw [followLoop, followLoop, createName_upper]
    cases createName path with
    | error res => rfl
    | ok r =>
      dsimp only [Except.map]
      rw [ih]

/-- The case of the letters of a path makes no difference. `create_name` turns letters into upper
case, and what is no letter is not changed. -/
theorem followPath_upper (path : Path) :
    followPath nodes (path.map upChar) = followPath nodes path := by
  rw [followPath, followPath, getLdnumber_upper]
  cases getLdnumber path with
  | none => rfl
  | some path =>
    dsimp only [Option.map_some]
    rw [followFrom, followFrom, dropWhile_upper, List.length_map]
    cases path.dropWhile isSeparator with
    | nil => rfl
    | cons c p =>
      rw [List.map_cons]
      dsimp only
      rw [← List.map_cons, followLoop_upper]
      simp only [(upChar_path c).2.2]

/-- A path that denotes an entry is one of 8.3 names, from the root directory on. Printed from the
entry and put together with separators, these names are a path that denotes the same entry, and
so is every path with other letters of either case. The one exception is a name without
characters, of which nothing is printed. -/
theorem followPath_printed {path : Path} {e : Entry} (h : followPath nodes path = .entry e) :
    ∃ names : List ShortName, e = entryName names ∧
      followPath nodes (path.map upChar) = .entry e ∧
      ((∀ n ∈ names, n.text ≠ []) → followPath nodes (0x2F :: printed names) = .entry e) := by
  -- the names that the loop has read are those of the entry
  have hfrom : ∃ names, Leads nodes [] names ∧ e = [] ++ entryName names := by
    unfold followPath at h
    split at h
    · cases h
    · exact followLoop_names (followFrom_loop h)
  obtain ⟨names, hleads, hentry⟩ := hfrom
  rw [List.nil_append] at hentry
  refine ⟨names, hentry, (followPath_upper path).trans h, fun htext => ?_⟩
  have hloop := followLoop_printed hleads htext
  rw [List.nil_append, ← hentry] at hloop
  rw [followPath, getLdnumber_printed]
  dsimp only
  rw [followFrom, List.dropWhile_cons_of_pos (by decide), dropWhile_printed htext]
  -- what follows the slash is not empty, and it starts with a character of a name
  split
  · rename_i hnil
    rw [hnil] at hloop
    cases hloop
  · rename_i c p hcons
    have hmem : c ∈ printed names := by
      rw [hcons]
      exact List.mem_cons_self
    have hc := (printed_plain hmem).1
    have hlow : ¬ c < 0x20 := fun hlt => hc (UInt8.le_of_lt hlt)
    have hfuel : (printed names).length < (0x2F :: printed names).length + 1 := by
      rw [List.length_cons]
      omega
    rw [if_neg hlow, ← hcons, followLoop_fuel hfuel, hloop]

/-- The file `INDEX.HTM` in the directory `HTML`. -/
theorem followPath_small :
    let nodes (e : Entry) := if e = textBytes "HTML       " then some Node.dir else none
    let e := textBytes "HTML       INDEX   HTM"
    ∃ names : List ShortName, e = entryName names ∧
      followPath nodes ((textBytes "0:/html//Index.htm").map upChar) = .entry e ∧
      ((∀ n ∈ names, n.text ≠ []) → followPath nodes (0x2F :: printed names) = .entry e) := by
  intro nodes e
  have hpath : followPath nodes (textBytes "0:/html//Index.htm") = .entry e := by decide +kernel
  exact followPath_printed hpath

end NucleoH743.FatFs
