import NucleoH743.Proofs.Ftp.CurrentDir

/-!
# `Proofs.Ftp.Resolution`: what a path argument resolves to

The standard resolution reads an argument component by component: `.` and empty components stay,
`..` leaves the last directory, a name enters one. `do_full_path` looks at the first characters of
the argument only, and FatFs takes the other components for names.

Both readings of an argument end in a list of names from the root. `resolve` starts with the
components of the current directory and follows the argument part by part; the path of
`do_full_path` is absolute or not, and has the components that FatFs would read from it. Empty parts
make no difference to either.

That the arguments of `Resolvable` come out right is a computation. The other direction is a matter
of length: a part that is `.` or `..` leads less far down than a name would, and no part leads
further, so two readings of which only one takes the dots for names end in lists of different
lengths.

- `doFullPath_denotes_iff`: from a normalised directory, the path of `do_full_path` denotes the
  resolution of its argument iff the argument is one of those that need no more than that look.
-/

set_option autoImplicit false

namespace NucleoH743.Ftp

open CStr (textBytes)

/-- The components of a path: what stands between its slashes, without the empty parts. -/
def components (path : List UInt8) : List (List UInt8) :=
  (path.splitOnP (· == 47)).filter (· ≠ [])

/-- Follow one part of an argument. In the root, `..` stays. -/
def follow (dir : List (List UInt8)) (c : List UInt8) : List (List UInt8) :=
  if c = [] ∨ c = textBytes "." then dir
  else if c = textBytes ".." then dir.dropLast
  else dir ++ [c]

/-- The standard resolution of an argument: the directories from the root to its target. -/
def resolve (currentdir arg : List UInt8) : List (List UInt8) :=
  (arg.splitOnP (· == 47)).foldl follow
    (if arg.head? = some 47 then [] else components currentdir)

/-- The path is absolute and its components are the given ones. -/
def Denotes (path : List UInt8) (dir : List (List UInt8)) : Prop :=
  path.head? = some 47 ∧ components path = dir

instance (path : List UInt8) (dir : List (List UInt8)) : Decidable (Denotes path dir) :=
  inferInstanceAs (Decidable (_ ∧ _))

/-- The part is neither `.` nor `..`. -/
def NotDots (c : List UInt8) : Prop := c ≠ textBytes "." ∧ c ≠ textBytes ".."

instance : DecidablePred NotDots := fun _ => inferInstanceAs (Decidable (_ ∧ _))

/-- No part of the path is `.` or `..`. -/
def DotFree (arg : List UInt8) : Prop := ∀ c ∈ arg.splitOnP (· == 47), NotDots c

instance : DecidablePred DotFree := fun arg =>
  inferInstanceAs (Decidable (∀ c ∈ arg.splitOnP (· == 47), NotDots c))

/-- The arguments that one look at the first characters resolves: a plain absolute path; and,
behind a directory that is not the root, a plain relative path or one that begins with `..` and
means the parent. -/
def Resolvable (currentdir arg : List UInt8) : Prop :=
  if arg.head? = some 47 then DotFree arg
  else currentdir ≠ [47] ∧
    if arg.take 2 = textBytes ".." then
      resolve currentdir arg = (components currentdir).dropLast
    else DotFree arg

instance (currentdir arg : List UInt8) : Decidable (Resolvable currentdir arg) :=
  inferInstanceAs (Decidable (if arg.head? = some 47 then DotFree arg
    else currentdir ≠ [47] ∧
      if arg.take 2 = textBytes ".." then
        resolve currentdir arg = (components currentdir).dropLast
      else DotFree arg))

/-! ### Following parts -/

/-- A part that is a name is entered; one that is empty stays. -/
theorem follow_notDots {c : List UInt8} (h : NotDots c) (dir : List (List UInt8)) :
    follow dir c = dir ++ [c].filter (· ≠ []) := by
  unfold follow
  by_cases hc : c = []
  · simp [hc]
  · simp [hc, h.1, h.2]

/-- A part adds at most one directory, and none if it is `.` or `..`. -/
theorem length_follow_le (dir : List (List UInt8)) (c : List UInt8) :
    (follow dir c).length ≤ dir.length + ([c].filter (· ≠ [])).length := by
  unfold follow
  split_ifs
  · omega
  · rw [List.length_dropLast]
    omega
  · rename_i hne _
    have hne : c ≠ [] := fun h => hne (.inl h)
    simp [hne]

/-- A component of dots leads less far down than a name would. One dot stays where it is, and two
leave a directory or stay in the root. -/
theorem length_follow_dots {c : List UInt8} (h : ¬ NotDots c) (dir : List (List UInt8)) :
    (follow dir c).length < dir.length + ([c].filter (· ≠ [])).length := by
  have hc : c = textBytes "." ∨ c = textBytes ".." := by
    by_contra hnot
    exact h ⟨fun hd => hnot (.inl hd), fun hd => hnot (.inr hd)⟩
  rcases hc with rfl | rfl
  · have hstay : follow dir (textBytes ".") = dir := if_pos (.inr rfl)
    have hname : ([textBytes "."].filter (· ≠ [])).length = 1 := by decide
    rw [hstay]
    omega
  · have hup : follow dir (textBytes "..") = dir.dropLast := by
      unfold follow
      rw [if_neg (by decide), if_pos rfl]
    have hname : ([textBytes ".."].filter (· ≠ [])).length = 1 := by decide
    rw [hup, List.length_dropLast]
    omega

/-- The components lead down by at most one level each. By induction on them. -/
theorem length_foldl_follow_le (dir cs : List (List UInt8)) :
    (cs.foldl follow dir).length ≤ dir.length + (cs.filter (· ≠ [])).length := by
  induction cs generalizing dir with
  | nil => exact Nat.le_refl _
  | cons c cs ih =>
    have hrest := ih (follow dir c)
    have hfirst := length_follow_le dir c
    have hparts : (c :: cs).filter (· ≠ []) = [c].filter (· ≠ []) ++ cs.filter (· ≠ []) :=
      List.filter_append [c] cs
    rw [List.foldl_cons, hparts, List.length_append]
    omega

/-- Taking every part for a name is right iff none is `.` or `..`: each of these ends in a
shorter path. -/
theorem foldl_follow_iff (dir cs : List (List UInt8)) :
    cs.foldl follow dir = dir ++ cs.filter (· ≠ []) ↔ ∀ c ∈ cs, NotDots c := by
  induction cs generalizing dir with
  | nil => simp
  | cons c cs ih =>
    have hparts : (c :: cs).filter (· ≠ []) = [c].filter (· ≠ []) ++ cs.filter (· ≠ []) :=
      List.filter_append [c] cs
    rw [List.foldl_cons, hparts, List.forall_mem_cons]
    by_cases hc : NotDots c
    · rw [follow_notDots hc, ← List.append_assoc, ih]
      exact (and_iff_right hc).symm
    · refine iff_of_false (fun heq => ?_) (fun h => hc h.1)
      have hshort := length_follow_dots hc dir
      have hrest := length_foldl_follow_le (follow dir c) cs
      rw [heq, List.length_append, List.length_append] at hrest
      omega

/-! ### Components -/

/-- A normalised path begins with a slash. -/
theorem Normalised.head {path : List UInt8} (h : Normalised path) : path.head? = some 47 := by
  rcases h.cases with rfl | ⟨t, rfl, -⟩ <;> rfl

/-- The components of a path joined at a slash. -/
theorem components_append (a b : List UInt8) :
    components (a ++ 47 :: b) = components a ++ components b := by
  have hsplit : (a ++ 47 :: b).splitOnP (· == 47) =
      a.splitOnP (· == 47) ++ b.splitOnP (· == 47) := List.splitOnP_append_cons a b (by decide)
  rw [components, hsplit, List.filter_append]
  rfl

/-- A slash in front changes no component. -/
theorem components_slash (path : List UInt8) : components (47 :: path) = components path :=
  components_append [] path

/-- A part without a slash is one component. -/
theorem components_name {c : List UInt8} (hc : 47 ∉ c) : components c = [c].filter (· ≠ []) := by
  have hsplit : c.splitOnP (· == 47) = [c] := by
    refine List.splitOnP_eq_singleton fun b hb => ?_
    have hne : b ≠ 47 := fun h => hc (h ▸ hb)
    simpa using hne
  rw [components, hsplit]

/-- Stepping down from a normalised path leaves its last directory. In the root directory there is
none to leave, and the list is empty before and after. -/
theorem Normalised.components_doStepDown {path : List UInt8} (h : Normalised path) :
    components (Ftp.doStepDown path) = (components path).dropLast := by
  rcases h.cases with rfl | ⟨t, rfl, ht⟩
  · decide
  · show components (((cutLastSlash t).map (47 :: ·)).getD [47]) = _
    cases hcut : cutLastSlash t with
    | none =>
      have hone := components_name (cutLastSlash_none hcut)
      have hroot : components [47] = [] := by decide
      rw [components_slash, hone]
      by_cases hnil : t = []
      · simpa [hnil] using hroot
      · simpa [hnil] using hroot
    | some r =>
      obtain ⟨last, rfl, hlast⟩ := cutLastSlash_eq hcut
      -- the part behind the last slash is not empty, so it is the last component
      have hne : last ≠ [] := by
        rintro rfl
        exact not_components_nil (components_join.1 ht).2
      have hname : components last = [last] := by
        rw [components_name hlast]
        simp [hne]
      rw [components_slash, components_append, hname, List.dropLast_concat]
      exact components_slash r

/-! ### The path of a request -/

/-- From a directory other than the root, the path joined behind it. -/
theorem Normalised.denotes_join {currentdir : List UInt8} (h : Normalised currentdir)
    (arg : List UInt8) (dir : List (List UInt8)) :
    Denotes (currentdir ++ 47 :: arg) dir ↔ components currentdir ++ components arg = dir := by
  have hhead : (currentdir ++ 47 :: arg).head? = some 47 := by
    rw [List.head?_append, h.head]
    rfl
  rw [Denotes, components_append]
  exact and_iff_right hhead

/-- From a normalised directory, the path of `do_full_path` denotes the resolution of its argument
exactly for these arguments. `Denotes` compares components, so a doubled slash or one at the end
makes no difference. A step down that does not begin the argument, and whatever follows one that
does, is lost or taken for a name. -/
theorem doFullPath_denotes_iff {currentdir : List UInt8} (h : Normalised currentdir)
    (arg : List UInt8) :
    Denotes (doFullPath currentdir arg).1 (resolve currentdir arg) ↔ Resolvable currentdir arg := by
  by_cases habs : arg.head? = some 47
  · have hpath : (doFullPath currentdir arg).1 = arg := by rw [doFullPath, if_pos habs]
    -- an absolute path is taken as it is
    have hplain : DotFree arg ↔ _ := (foldl_follow_iff [] (arg.splitOnP (· == 47))).symm
    rw [Denotes, hpath, resolve, Resolvable, if_pos habs, if_pos habs, and_iff_right habs, hplain]
    exact eq_comm
  by_cases hroot : currentdir = [47]
  · -- in the root directory the path has no slash in front
    have hpath : (doFullPath currentdir arg).1 = arg := by
      rw [doFullPath, if_neg habs, if_pos hroot]
    rw [Denotes, hpath, Resolvable, if_neg habs]
    exact iff_of_false (fun hd => habs hd.1) (fun hr => hr.1 hroot)
  rw [Resolvable, if_neg habs, and_iff_right hroot]
  by_cases hup : arg.take 2 = textBytes ".."
  -- the rest of the argument behind the `..` is ignored
  · have hpath : (doFullPath currentdir arg).1 = doStepDown currentdir := by
      have hdots : arg.take 2 = [46, 46] := hup.trans (by decide)
      rw [doFullPath, if_neg habs, if_neg hroot, if_pos hdots]
    rw [Denotes, hpath, and_iff_right h.doStepDown.head, if_pos hup, h.components_doStepDown]
    exact eq_comm
  · have hpath : (doFullPath currentdir arg).1 = currentdir ++ 47 :: arg := by
      have hdots : ¬ arg.take 2 = [46, 46] := fun he => hup (he.trans (by decide))
      rw [doFullPath, if_neg habs, if_neg hroot, if_neg hdots]
    have hplain : DotFree arg ↔ _ :=
      (foldl_follow_iff (components currentdir) (arg.splitOnP (· == 47))).symm
    rw [hpath, h.denotes_join, resolve, if_neg habs, if_neg hup, hplain]
    exact eq_comm

/-- `c//d` in `/a/b` gives a path with the components of `/a/b/c/d`. -/
theorem doFullPath_denotes_join :
    Denotes (doFullPath (textBytes "/a/b") (textBytes "c//d")).1
      (resolve (textBytes "/a/b") (textBytes "c//d")) :=
  (doFullPath_denotes_iff (by decide) _).2 (by decide)

/-- `../c` in `/a/b` gives `/a`. -/
theorem doFullPath_loses_name :
    ¬ ∀ currentdir arg : List UInt8, Normalised currentdir →
      Denotes (doFullPath currentdir arg).1 (resolve currentdir arg) := fun h =>
  absurd (h (textBytes "/a/b") (textBytes "../c") (by decide)) (by decide)

end NucleoH743.Ftp
