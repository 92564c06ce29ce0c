import NucleoH743.Lib.Run
import NucleoH743.Proofs.Ftp.Paths

/-!
# `Proofs.Ftp.CurrentDir`: which commands keep the current directory normalised

`do_full_path` is meant to make a right path, but it joins its parts without a look at them. A
relative path stays relative when the session is in the root directory, and `CWD` stores what
the client sends. Stepping down and trimming a slash keep a normalised path.

A directory is normalised where it is the root, or a sequence of a slash and a name that is none of
the empty name, `.` and `..`. The property is decidable, and so is the condition on the argument of
`CWD`.

The two helpers that cut a path keep it normalised. For `do_full_path` the three branches are taken
apart: an absolute argument is taken over as it is, so it has to be normalised itself; an argument
behind `..` only steps down; and any other argument is joined to the directory, from which it
follows that its parts are names iff the result is normalised. In the root directory nothing is put
in front, which leaves a relative path without a slash at its start.

Every other command leaves the session in the old directory, one step below it, or without the slash
at its end. So the condition on a run asks something of `CWD` alone.

- `currentdir_normalised_iff`: the current directories stay normalised along a run iff every
  `CWD` has an argument that keeps its own normalised.
-/

set_option autoImplicit false

namespace NucleoH743.Ftp

open CStr (textBytes)
open EventRun (run Along along_congr)

/-- A component of a normalised path. -/
def Component (c : List UInt8) : Prop := c ≠ [] ∧ c ≠ textBytes "." ∧ c ≠ textBytes ".."

instance : DecidablePred Component := fun _ => inferInstanceAs (Decidable (_ ∧ _))

/-- The parts between the slashes are components. -/
def Components (path : List UInt8) : Prop := ∀ c ∈ path.splitOnP (· == 47), Component c

instance : DecidablePred Components := fun path =>
  inferInstanceAs (Decidable (∀ c ∈ path.splitOnP (· == 47), Component c))

/-- An absolute path without empty, `.` and `..` components and without a slash at its end,
unless it is the root. -/
def Normalised (path : List UInt8) : Prop :=
  path = [47] ∨ path.head? = some 47 ∧ Components path.tail

instance : DecidablePred Normalised := fun _ => inferInstanceAs (Decidable (_ ∨ _))

/-! ### Paths -/

/-- A path joined at a slash. -/
theorem components_join {a b : List UInt8} :
    Components (a ++ 47 :: b) ↔ Components a ∧ Components b := by
  have hsplit : (a ++ 47 :: b).splitOnP (· == 47) =
      a.splitOnP (· == 47) ++ b.splitOnP (· == 47) := List.splitOnP_append_cons a b (by decide)
  simp only [Components, hsplit, List.mem_append, or_imp, forall_and]

/-- The empty path has an empty component. -/
theorem not_components_nil : ¬ Components [] := by decide

/-- A normalised path that is not the root. -/
theorem Normalised.cases {path : List UInt8} (h : Normalised path) :
    path = [47] ∨ ∃ t, path = 47 :: t ∧ Components t := by
  rcases h with h | ⟨hhead, htail⟩
  · exact .inl h
  · cases path with
    | nil => cases hhead
    | cons b t =>
      obtain rfl : b = 47 := by simpa using hhead
      exact .inr ⟨t, rfl, htail⟩

/-- Stepping down from a normalised path gives a normalised path. -/
theorem Normalised.doStepDown {path : List UInt8} (h : Normalised path) :
    Normalised (doStepDown path) := by
  rcases h.cases with rfl | ⟨t, rfl, ht⟩
  · exact .inl rfl
  · show Normalised (((cutLastSlash t).map (47 :: ·)).getD [47])
    cases hcut : cutLastSlash t with
    | none => exact .inl rfl
    | some r =>
      obtain ⟨last, rfl, -⟩ := cutLastSlash_eq hcut
      exact .inr ⟨rfl, (components_join.1 ht).1⟩

/-- A normalised path has no slash to trim. It has a name at its end, or it is the root, which is
left alone. -/
theorem Normalised.trimSlash {path : List UInt8} (h : Normalised path) :
    trimSlash path = path := by
  rcases h.cases with rfl | ⟨t, rfl, ht⟩
  · rfl
  · refine if_neg ?_
    rintro ⟨hlen, hlast⟩
    -- a slash at the end leaves an empty component behind it
    have hne : t ≠ [] := by
      rintro rfl
      exact absurd hlen (by decide)
    obtain ⟨init, last, rfl⟩ : ∃ init last, t = init ++ [last] :=
      ⟨t.dropLast, t.getLast hne, (List.dropLast_append_getLast hne).symm⟩
    have hslash : last = 47 := by
      rw [← List.cons_append, List.getLast?_append] at hlast
      simpa using hlast
    subst hslash
    exact not_components_nil (components_join.1 ht).2

/-- The argument of `CWD` keeps the current directory normalised: it is a normalised path; or,
behind a directory that is not the root, one step down or a relative path of components. -/
def CwdArg (currentdir arg : List UInt8) : Prop :=
  if arg.head? = some 47 then Normalised arg
  else currentdir ≠ [47] ∧ (arg.take 2 = textBytes ".." ∨ Components arg)

instance (currentdir arg : List UInt8) : Decidable (CwdArg currentdir arg) :=
  inferInstanceAs (Decidable (if arg.head? = some 47 then Normalised arg
    else currentdir ≠ [47] ∧ (arg.take 2 = textBytes ".." ∨ Components arg)))

/-- The `..` branch of `do_full_path` keeps the current directory normalised. -/
theorem doFullPath_dir {currentdir : List UInt8} (h : Normalised currentdir) (arg : List UInt8) :
    Normalised (doFullPath currentdir arg).2 := by
  unfold doFullPath
  split_ifs
  · exact h
  · exact h
  · exact h.doStepDown
  · exact h

/-- The path of `CWD` is normalised exactly for these arguments. By the three branches. A path is
joined of two parts exactly when both are sequences of names. -/
theorem doFullPath_normalised_iff {currentdir : List UInt8} (h : Normalised currentdir)
    (arg : List UInt8) : Normalised (doFullPath currentdir arg).1 ↔ CwdArg currentdir arg := by
  have hdots : textBytes ".." = [46, 46] := by decide
  unfold doFullPath CwdArg
  rw [hdots]
  split_ifs with habs hroot hup
  · rfl
  · -- in the root directory the path stays relative
    constructor
    · rintro (rfl | ⟨hhead, -⟩)
      · exact absurd rfl habs
      · exact absurd hhead habs
    · rintro ⟨hne, -⟩
      exact absurd hroot hne
  · exact ⟨fun _ => ⟨hroot, .inl hup⟩, fun _ => h.doStepDown⟩
  · obtain ⟨t, rfl, ht⟩ := h.cases.resolve_left hroot
    have hlong : 47 :: (t ++ 47 :: arg) ≠ [47] := by simp
    simp only [Normalised, List.cons_append, hlong, false_or, List.head?_cons, true_and,
      List.tail_cons, components_join, ht, ne_eq, hroot, not_false_eq_true, hup]

/-! ### The service loop -/

/-- Every session is in a normalised directory. -/
def DirsNormalised (w : World) : Prop := ∀ c ∈ w.conns, Normalised c.currentdir

instance (w : World) : Decidable (DirsNormalised w) :=
  inferInstanceAs (Decidable (∀ c ∈ w.conns, Normalised c.currentdir))

/-- If the command is `CWD`, its argument keeps the directory normalised. -/
def CwdFits (w : World) (e : Event) : Prop :=
  Served w (fun o conn line => doParseCommand line = .cwd →
    CwdArg conn.currentdir ((parameterPtr line).getD o.stray)) e

/-- A command keeps the directory normalised, unless it is a `CWD` with another argument. -/
theorem nextDir_normalised_iff (o : Outcome) {currentdir : List UInt8} (h : Normalised currentdir)
    (line : List UInt8) :
    Normalised (nextDir o currentdir line) ↔
      (doParseCommand line = .cwd → CwdArg currentdir ((parameterPtr line).getD o.stray)) := by
  unfold nextDir
  cases doParseCommand line with
  | cwd =>
    simp only [forall_const]
    exact doFullPath_normalised_iff h _
  | list => simp [h.trimSlash, h]
  | cdup => simp [h.doStepDown]
  | retr | stor | size | mkd | dele | rmd => simp [dirAfter, doFullPath_dir h]
  | user | pass | nlst | pwd | type | pasv | mdtm | syst | port | rest | feat | quit | unknown =>
    simp [h]

/-- A session that ends was not given a `CWD`. -/
theorem Ends.ne_cwd {o : Outcome} {q : Req} {line : List UInt8} (h : Ends o q line) :
    doParseCommand line ≠ .cwd := by
  intro hcwd
  rw [Ends, hcwd] at h
  exact h

/-- One step keeps the directories normalised iff it is no `CWD` with another argument. -/
theorem dirsNormalised_step_iff {w : World} (hw : ConnList w) (h : DirsNormalised w) (e : Event) :
    DirsNormalised (step w e) ↔ CwdFits w e := by
  refine (dirs_step (Or.inl rfl) hw h e).trans (Served.congr (fun o line conn hc => ?_) e)
  rw [nextDir_normalised_iff o (h conn hc) line]
  exact or_iff_right_of_imp fun hends hcwd => absurd hcwd hends.ne_cwd

/-- The current directories stay normalised along a run iff every `CWD` keeps its own so. The
condition is on the argument and on the directory that the `CWD` finds (`CwdArg`). No other command
can take a session out of a normalised directory into one that is not. -/
theorem currentdir_normalised_iff (v : FatFs.Volume) (sockfd : Nat) (es : List Event) :
    Along step (fun w e => DirsNormalised (step w e)) (World.start v sockfd) es ↔
      Along step CwdFits (World.start v sockfd) es := by
  have hstep : ∀ w e, ConnList w ∧ DirsNormalised w → DirsNormalised (step w e) →
      ConnList (step w e) ∧ DirsNormalised (step w e) :=
    fun w e hw he => ⟨hw.1.step e, he⟩
  have hiff : ∀ w e, ConnList w ∧ DirsNormalised w →
      (DirsNormalised (step w e) ↔ CwdFits w e) :=
    fun w e hw => dirsNormalised_step_iff hw.1 hw.2 e
  have hstart : ConnList (World.start v sockfd) ∧ DirsNormalised (World.start v sockfd) :=
    ⟨⟨List.nodup_nil, by simp [World.start]⟩, by simp [DirsNormalised, World.start]⟩
  exact along_congr hstep hiff hstart es

/-- `CWD a` in the root directory leaves the session in the relative path `a`. -/
theorem currentdir_relative :
    ¬ Along step (fun w e => DirsNormalised (step w e)) (World.start emptyDisk 3)
      [.accept (some 4) 0 (some { pasvActive := false, pasvSockfd := 0, pasvPort := 0 }),
        .serve 0 (some (textBytes "CWD a\r\n")) {}] := by
  decide

end NucleoH743.Ftp
