import NucleoH743.Lib.Run
import NucleoH743.Proofs.Ftp.Paths

/-!
# `Proofs.Ftp.DirFrame`: the commands that leave the current directory alone

`CWD` and `CDUP` are there to change the current directory of a session. Two helpers change it
for other commands. `do_full_path` gets the session, and its `..` branch steps down in
`currentdir` itself where `CDUP` first makes a copy. `do_full_list` gets the buffer of
`currentdir` and cuts a slash from its end.

Which directory a command leaves is computed in `Proofs.Ftp.Paths` (`nextDir`). Here it is compared
with the one that the command found. Each of the two helpers is the identity exactly where it has
nothing to cut: stepping down, in the root directory, and trimming, on a path without a slash at its
end or on the root.

`CWD` and `CDUP` have no condition, and the commands without a path have none either. A request that
ends its session has no directory to keep, so the property speaks of the session where it is still
there.

- `currentdir_kept_iff`: along a run the other commands keep the directories of their sessions
  iff no path starts with `..` outside the root directory, and no `LIST` is given in a directory
  with a slash at its end.
-/

set_option autoImplicit false

namespace NucleoH743.Ftp

open CStr (textBytes)
open EventRun (run Along along_congr)

/-- The commands that change the current directory on purpose. -/
def Cmd.ChangesDir (cmd : Cmd) : Prop := cmd = .cwd ∨ cmd = .cdup

instance : DecidablePred Cmd.ChangesDir := fun _ => inferInstanceAs (Decidable (_ ∨ _))

/-- A request other than `CWD` and `CDUP` leaves its session in the directory it found. -/
def KeepsDir (w : World) : Event → Prop
  | .serve id (some (b :: bs)) o => ∀ conn ∈ w.conn? id,
      ¬ (doParseCommand (request (b :: bs))).ChangesDir →
        (ftpProcessRequest o { vol := w.vol, sockets := w.sockets, conn }
          (b :: bs ++ [0])).2.conn.currentdir = conn.currentdir
  | _ => True

instance (w : World) : DecidablePred (KeepsDir w)
  | .serve id (some (b :: bs)) o => inferInstanceAs (Decidable (∀ conn ∈ w.conn? id,
      ¬ (doParseCommand (request (b :: bs))).ChangesDir →
        (ftpProcessRequest o { vol := w.vol, sockets := w.sockets, conn }
          (b :: bs ++ [0])).2.conn.currentdir = conn.currentdir))
  | .serve _ (some []) _ | .serve _ none _ | .select | .accept _ _ _ => isTrue trivial

/-- The helper of the command leaves the directory alone: `do_full_list` finds no slash to cut,
or `do_full_path` does not take its `..` branch. -/
def LeavesDir (o : Outcome) (currentdir line : List UInt8) : Prop :=
  match doParseCommand line with
  | .list => ¬ (1 < currentdir.length ∧ currentdir.getLast? = some 47)
  | .retr | .stor | .size | .mkd | .dele | .rmd =>
    currentdir = [47] ∨ ((parameterPtr line).getD o.stray).take 2 ≠ textBytes ".."
  | .cwd | .cdup | .user | .pass | .nlst | .pwd | .type | .pasv | .mdtm | .syst | .port | .rest
  | .feat | .quit | .unknown => True

/-! ### The helpers -/

/-- Only the root directory has nothing above it. Every other path gets shorter, or becomes the
root. -/
theorem doStepDown_eq_self_iff {dir : List UInt8} : doStepDown dir = dir ↔ dir = [47] := by
  constructor
  · intro h
    cases dir with
    | nil => cases h
    | cons b bs =>
      change ((cutLastSlash bs).map (b :: ·)).getD [47] = b :: bs at h
      cases hcut : cutLastSlash bs with
      | none =>
        rw [hcut] at h
        exact h.symm
      | some r =>
        -- what stands before the last slash is shorter
        obtain ⟨t, rfl, -⟩ := cutLastSlash_eq hcut
        rw [hcut] at h
        simp at h
  · rintro rfl
    rfl

/-- The slash is cut from a path that has one to spare. -/
theorem trimSlash_eq_self_iff {dir : List UInt8} :
    trimSlash dir = dir ↔ ¬ (1 < dir.length ∧ dir.getLast? = some 47) := by
  unfold trimSlash
  split
  · next h =>
    refine iff_of_false (fun he => ?_) (not_not_intro h)
    have hlen := congrArg List.length he
    rw [List.length_dropLast] at hlen
    omega
  · next h => exact iff_of_true rfl h

/-- `do_full_path` leaves the directory alone outside its `..` branch. The branch is taken for an
argument that starts with two dots, and steps down from the directory itself. -/
theorem dirAfter_eq_self_iff (o : Outcome) (currentdir : List UInt8) (p : Option (List UInt8)) :
    dirAfter o currentdir p = currentdir ↔
      currentdir = [47] ∨ (p.getD o.stray).take 2 ≠ textBytes ".." := by
  have hdots : textBytes ".." = [46, 46] := by decide
  unfold dirAfter doFullPath
  rw [hdots]
  split_ifs with habs hroot hup
  · -- a path that starts with a slash does not start with a dot
    refine iff_of_true rfl (.inr fun hup => ?_)
    have hhead := congrArg List.head? hup
    rw [List.head?_take, if_neg (by decide), habs] at hhead
    exact absurd hhead (by decide)
  · exact iff_of_true rfl (.inl hroot)
  · exact doStepDown_eq_self_iff.trans (by simp [hup])
  · exact iff_of_true rfl (.inr hup)

/-! ### The commands -/

/-- The directory behind a command other than `CWD` and `CDUP`. -/
theorem nextDir_eq_self_iff (o : Outcome) {line : List UInt8}
    (hcmd : ¬ (doParseCommand line).ChangesDir) (currentdir : List UInt8) :
    nextDir o currentdir line = currentdir ↔ LeavesDir o currentdir line := by
  unfold nextDir LeavesDir
  cases h : doParseCommand line with
  | cwd => exact absurd (.inl h) hcmd
  | cdup => exact absurd (.inr h) hcmd
  | list => exact trimSlash_eq_self_iff
  | retr | stor | size | mkd | dele | rmd => exact dirAfter_eq_self_iff o currentdir _
  | user | pass | nlst | pwd | type | pasv | mdtm | syst | port | rest | feat | quit | unknown =>
    exact iff_of_true rfl trivial

/-- `CWD` and `CDUP` have no condition. -/
theorem LeavesDir.of_changesDir (o : Outcome) {line : List UInt8}
    (hcmd : (doParseCommand line).ChangesDir) (currentdir : List UInt8) :
    LeavesDir o currentdir line := by
  unfold LeavesDir
  rcases hcmd with hcwd | hcdup
  · rw [hcwd]
    trivial
  · rw [hcdup]
    trivial

/-- A request keeps the directory of its session iff the helper of its command does. An event
without a request changes no directory. By `nextDir_eq_self_iff` for the command that is served. -/
theorem keepsDir_iff (w : World) (e : Event) :
    KeepsDir w e ↔ Served w (fun o conn line => LeavesDir o conn.currentdir line) e := by
  match e with
  | .serve id (some (b :: bs)) o =>
    refine forall₂_congr fun conn _ => ?_
    cases ho : o.malloc with
    | false =>
      -- without memory for `sbuf` the request is not looked at
      refine iff_of_true (fun _ => ?_) (fun h => Bool.noConfusion h)
      rw [ftpProcessRequest, if_neg (by simp [ho])]
    | true =>
      have hdir : (ftpProcessRequest o { vol := w.vol, sockets := w.sockets, conn }
          (b :: bs ++ [0])).2.conn.currentdir =
          nextDir o conn.currentdir (request (b :: bs)) := by
        rw [ftpProcessRequest, if_pos ho]
        exact (builds_execute o (w.req conn (request (b :: bs))) (request (b :: bs))).2
      rw [hdir]
      refine Iff.trans ?_ (forall_prop_of_true rfl).symm
      by_cases hcmd : (doParseCommand (request (b :: bs))).ChangesDir
      · exact iff_of_true (fun hne => absurd hcmd hne) (LeavesDir.of_changesDir o hcmd _)
      · exact (forall_prop_of_true hcmd).trans (nextDir_eq_self_iff o hcmd _)
  | .serve _ (some []) _ | .serve _ none _ | .select | .accept _ _ _ => exact Iff.rfl

/-- Along a run the commands keep the directories of their sessions iff their helpers do.
`LeavesDir` is a condition on the directory and the argument: nothing to step down from, or no `..`
at the begin, and no slash at the end that `LIST` would cut. -/
theorem currentdir_kept_iff (v : FatFs.Volume) (sockfd : Nat) (es : List Event) :
    Along step KeepsDir (World.start v sockfd) es ↔
      Along step (fun w => Served w fun o conn line => LeavesDir o conn.currentdir line)
        (World.start v sockfd) es := by
  -- no invariant is needed: a request keeps its directory whatever the state is
  have hstep : ∀ w e, True → KeepsDir w e → True := fun _ _ _ _ => trivial
  exact along_congr hstep (fun w e _ => keepsDir_iff w e) trivial es

/-- `SIZE ../x` in the directory `/a` leaves the session in `/`, and `LIST` in `/a/` leaves it in
`/a`. -/
theorem currentdir_not_kept :
    (¬ Along step KeepsDir (World.start emptyDisk 3)
      [.accept (some 4) 0 (some { pasvActive := false, pasvSockfd := 0, pasvPort := 0 }),
        .serve 0 (some (textBytes "CWD /a\r\n")) {},
        .serve 0 (some (textBytes "SIZE ../x\r\n")) {}]) ∧
    ¬ Along step KeepsDir (World.start emptyDisk 3)
      [.accept (some 4) 0 (some { pasvActive := false, pasvSockfd := 0, pasvPort := 0 }),
        .serve 0 (some (textBytes "CWD /a/\r\n")) {},
        .serve 0 (some (textBytes "LIST\r\n")) {}] := by
  decide

end NucleoH743.Ftp
