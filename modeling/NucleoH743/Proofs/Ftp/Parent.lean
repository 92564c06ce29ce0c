import NucleoH743.Lib.Run
import NucleoH743.Proofs.Ftp.Resolution

/-!
# `Proofs.Ftp.Parent`: what `CDUP` makes of the current directory

`do_step_down` cuts a path at the last slash behind its first character. That slash stands in
front of the last component when each of these slashes is followed by a name. A slash at the end,
or a second one behind another, costs one more step, and the comment above `do_step_down` leaves
that case for later.

A path is split at its slashes behind the first character. One step down takes the last of the
parts, so the number of steps to the root is the number of parts, or one less when the first part
is the root already (`iterate_doStepDown_eq_root_iff`). Each part but the first is a component
unless it is empty, and this decides whether the components are enough steps
(`iterate_components_iff`).

The right answer is stated on the components of the path, by `IsParent`: the directory without its
last component. How the code finds it is another matter, since it looks at slashes, so the two are
compared on the parts between the slashes, which know both.

The law is about one `CDUP` and also about many of them, as many as there are components. The second
half does not follow from the first, because one step may lead to a path from which the next step
goes wrong.

A `CDUP` touches no other session and no other field of its own. So the session's directory after
`n` of them is the `n`-th iterate of `do_step_down`, and the rest is about this function.

- `cdup_parent_iff`: in every state that a run reaches, `CDUP` is the way to the parent of a
  session's directory iff in this directory every slash behind the first character is followed by
  a name.
-/

set_option autoImplicit false

namespace NucleoH743.Ftp

open CStr (textBytes)
open EventRun (run Along run_inv)

/-- The parts of a path between its slashes. -/
def parts (path : List UInt8) : List (List UInt8) := path.splitOnP (· == 47)

/-- The path is not empty, and every slash behind its first character is followed by a name. -/
def SlashesNamed (path : List UInt8) : Prop := path ≠ [] ∧ [] ∉ (parts path.tail).tail

instance : DecidablePred SlashesNamed := fun _ => inferInstanceAs (Decidable (_ ∧ _))

/-- `up` is the directory `dir` without its last component, or the root when there is at most
one. -/
def IsParent (dir up : List UInt8) : Prop :=
  if (components dir).length ≤ 1 then up = [47]
  else components up = (components dir).dropLast ∧ up.head? = dir.head?

instance (dir up : List UInt8) : Decidable (IsParent dir up) :=
  inferInstanceAs (Decidable (if (components dir).length ≤ 1 then up = [47]
    else components up = (components dir).dropLast ∧ up.head? = dir.head?))

/-! ### The parts of a path -/

/-- A part without a slash is the only one. -/
theorem parts_name {t : List UInt8} (ht : 47 ∉ t) : parts t = [t] :=
  List.splitOnP_eq_singleton fun b hb => by
    have hne : b ≠ 47 := fun h => ht (h ▸ hb)
    simpa using hne

/-- A path in two parts, at a slash. -/
theorem parts_append (r t : List UInt8) : parts (r ++ 47 :: t) = parts r ++ parts t :=
  List.splitOnP_append_cons r t (by decide)

/-- Every path has a first part, if only the empty one. -/
theorem exists_parts (path : List UInt8) : ∃ p ps, parts path = p :: ps :=
  List.exists_cons_of_ne_nil (List.splitOnP_ne_nil _ _)

/-- The number of components of a path: its first part may be the one in front of the slash that
makes it absolute. -/
theorem length_components_cons (b : UInt8) {bs p : List UInt8} {ps : List (List UInt8)}
    (hps : parts bs = p :: ps) :
    (components (b :: bs)).length =
      (if b = 47 ∧ p = [] then 0 else 1) + (ps.filter (· ≠ [])).length := by
  have hsplit := List.splitOnP_cons_eq_if_modifyHead (p := (· == 47)) b bs
  have hbs : bs.splitOnP (· == 47) = p :: ps := hps
  rw [hbs] at hsplit
  rw [components, hsplit]
  -- a first slash splits off an empty part in front of the first one
  by_cases hb : b = 47
  · subst hb
    by_cases hp : p = []
    · simp [hp]
    · simp [hp, Nat.add_comm]
  · have hb' : (b == 47) = false := by simpa using hb
    simp [hb, hb', Nat.add_comm]

/-! ### Stepping down -/

/-- Stepping down from one part leads to the root, and otherwise takes the last part. -/
theorem doStepDown_cases (b : UInt8) (bs : List UInt8) :
    doStepDown (b :: bs) = [47] ∧ parts bs = [bs] ∨
      ∃ r t, bs = r ++ 47 :: t ∧ doStepDown (b :: bs) = b :: r ∧ parts bs = parts r ++ [t] := by
  show ((cutLastSlash bs).map (b :: ·)).getD [47] = [47] ∧ _ ∨
    ∃ r t, _ ∧ ((cutLastSlash bs).map (b :: ·)).getD [47] = b :: r ∧ _
  cases hcut : cutLastSlash bs with
  | none => exact .inl ⟨rfl, parts_name (cutLastSlash_none hcut)⟩
  | some r =>
    obtain ⟨t, rfl, ht⟩ := cutLastSlash_eq hcut
    exact .inr ⟨r, t, rfl, rfl, by rw [parts_append, parts_name ht]⟩

/-- The root is as far as stepping down goes. -/
theorem iterate_doStepDown_root (n : Nat) : doStepDown^[n] [47] = [47] :=
  Function.iterate_fixed rfl n

/-- The steps that lead to the root: one for each part, but none for a first part that is the root
itself. By induction on the parts, from the last one on. The root is where stepping down stays. -/
theorem iterate_doStepDown_eq_root_iff (n : Nat) (b : UInt8) (bs : List UInt8) :
    doStepDown^[n] (b :: bs) = [47] ↔
      (parts bs).length ≤ n ∨
        b = 47 ∧ (parts bs).head? = some [] ∧ (parts bs).length = n + 1 := by
  induction n generalizing bs with
  | zero =>
    show b :: bs = [47] ↔ _
    constructor
    · intro h
      cases h
      exact .inr ⟨rfl, rfl, rfl⟩
    · rintro (hlen | ⟨rfl, hhead, hlen⟩)
      · obtain ⟨p, ps, hps⟩ := exists_parts bs
        rw [hps] at hlen
        exact absurd hlen (by simp)
      · -- the only part is empty
        rcases doStepDown_cases 47 bs with ⟨-, hone⟩ | ⟨r, t, -, -, happ⟩
        · rw [hone] at hhead
          cases hhead
          rfl
        · obtain ⟨p, ps, hps⟩ := exists_parts r
          rw [happ, hps] at hlen
          simp at hlen
  | succ n ih =>
    rw [Function.iterate_succ_apply]
    rcases doStepDown_cases b bs with ⟨hroot, hone⟩ | ⟨r, t, -, hdown, happ⟩
    · rw [hroot, hone]
      exact iff_of_true (iterate_doStepDown_root n) (.inl (by simp))
    · obtain ⟨p, ps, hps⟩ := exists_parts r
      rw [hdown, ih, happ, hps]
      simp

/-- As many steps as there are components lead to the root iff no slash behind the first character
lacks its name. -/
theorem iterate_components_iff (dir : List UInt8) :
    doStepDown^[(components dir).length] dir = [47] ↔ SlashesNamed dir := by
  cases dir with
  | nil => decide
  | cons b bs =>
    obtain ⟨p, ps, hps⟩ := exists_parts bs
    have hle : (ps.filter (· ≠ [])).length ≤ ps.length := List.length_filter_le _ _
    have hfull : (ps.filter (· ≠ [])).length = ps.length ↔ [] ∉ ps := by
      rw [List.length_filter_eq_length_iff]
      constructor
      · exact fun h hmem => by simpa using h [] hmem
      · exact fun h c hc => by
          have hne : c ≠ [] := fun hnil => h (hnil ▸ hc)
          simpa using hne
    have hnamed : SlashesNamed (b :: bs) ↔ (ps.filter (· ≠ [])).length = ps.length := by
      rw [hfull, SlashesNamed, List.tail_cons, hps, List.tail_cons]
      simp
    rw [iterate_doStepDown_eq_root_iff, hnamed, length_components_cons b hps, hps]
    by_cases hfirst : b = 47 ∧ p = []
    · -- the first part is the root, and every other part needs a step
      rw [if_pos hfirst, hfirst.1, hfirst.2]
      simp only [List.length_cons, List.head?_cons, true_and]
      omega
    · have hno : ¬ (b = 47 ∧ some p = some []) := by simpa using hfirst
      rw [if_neg hfirst, ← and_assoc, List.head?_cons]
      simp only [List.length_cons, hno, false_and, or_false]
      omega

/-- From such a directory one step leads to the parent. The last part is then a name, and it is the
last component; the step takes it together with its slash. -/
theorem SlashesNamed.isParent {dir : List UInt8} (h : SlashesNamed dir) :
    IsParent dir (doStepDown dir) := by
  cases dir with
  | nil => exact absurd rfl h.1
  | cons b bs =>
    rcases doStepDown_cases b bs with ⟨hroot, hone⟩ | ⟨r, t, rfl, hdown, happ⟩
    · -- without a slash behind the first character there is at most one component
      have hlen := length_components_cons b hone
      have hle : (components (b :: bs)).length ≤ 1 := by
        rw [hlen]
        split <;> simp
      rw [IsParent, if_pos hle]
      exact hroot
    · obtain ⟨p, ps, hps⟩ := exists_parts r
      have htail : [] ∉ ps ++ [t] := by
        have hsecond := h.2
        rwa [List.tail_cons, happ, hps] at hsecond
      have ht : t ≠ [] := by
        rintro rfl
        exact htail (by simp)
      have hcomp : components (b :: (r ++ 47 :: t)) = components (b :: r) ++ [t] := by
        have hname : components t = [t] := by
          have hone : parts t = [t] := by
            have hboth := happ
            rw [parts_append] at hboth
            exact List.append_cancel_left hboth
          rw [components]
          exact (congrArg _ hone).trans (by simp [ht])
        rw [← List.cons_append, components_append, hname]
      rw [IsParent, hcomp, hdown]
      split
      · next hle =>
        -- the rest has no component, so it is the root already
        have hzero : (components (b :: r)).length = 0 := by
          rw [List.length_append, List.length_singleton] at hle
          omega
        have hrest : SlashesNamed (b :: r) := by
          refine ⟨List.cons_ne_nil _ _, ?_⟩
          rw [List.tail_cons, hps]
          exact fun hmem => htail (List.mem_append_left _ hmem)
        have hroot := (iterate_components_iff (b :: r)).2 hrest
        rwa [hzero] at hroot
      · exact ⟨by rw [List.dropLast_concat], rfl⟩

/-! ### The service loop -/

/-- The event is a `CDUP` of the session. -/
def IsCdup (id : Nat) : Event → Prop
  | .serve i (some chunk) o =>
    i = id ∧ doParseCommand (request chunk) = .cdup ∧ o.malloc = true
  | _ => False

/-- The directory of a session. -/
def World.dir? (w : World) (id : Nat) : Option (List UInt8) := (w.conn? id).map Conn.currentdir

/-- `CDUP` is the way to the parent of the session's directory: one leads to the parent, and as
many as there are components lead to the root. -/
structure ParentLaw (w : World) (c : Conn) : Prop where
  once : ∀ e, IsCdup c.id e → ∃ up, (step w e).dir? c.id = some up ∧ IsParent c.currentdir up
  root : ∀ es : List Event, (∀ e ∈ es, IsCdup c.id e) →
    es.length = (components c.currentdir).length → (run step w es).dir? c.id = some [47]

/-- A `CDUP` steps down. Its other fields are as they were, and the connection is found under the
same address. -/
theorem conn?_step_cdup {w : World} {id : Nat} {c : Conn} (hc : w.conn? id = some c) {e : Event}
    (he : IsCdup id e) :
    (step w e).conn? id = some { c with currentdir := doStepDown c.currentdir } := by
  match e with
  | .serve i (some chunk) o =>
    obtain ⟨rfl, hcmd, ho⟩ := he
    cases chunk with
    | nil => exact absurd hcmd (by decide)
    | cons b bs =>
      have hexec : execute o (w.req c (request (b :: bs))) (request (b :: bs)) =
          (0, cmdCdup (w.req c (request (b :: bs)))) := by
        rw [execute, hcmd]
      have hconn : (cmdCdup (w.req c (request (b :: bs)))).conn =
          { c with currentdir := doStepDown c.currentdir } := by
        dsimp only [cmdCdup]
        rw [reply_conn]
        rfl
      dsimp only [step]
      rw [hc]
      dsimp only
      rw [serveStep_request w c b bs ho hexec, if_neg (show ¬ (0 : Int) = -1 by decide), ← hconn]
      refine World.conn?_afterRequest hc ?_
      rw [hconn]
  | .serve _ none _ | .select | .accept _ _ _ => exact he.elim

/-- Any number of `CDUP`s step down so often. -/
theorem dir?_run_cdup {id : Nat} {es : List Event} (hes : ∀ e ∈ es, IsCdup id e) {w : World}
    {c : Conn} (hc : w.conn? id = some c) :
    (run step w es).dir? id = some (doStepDown^[es.length] c.currentdir) := by
  induction es generalizing w c with
  | nil => exact congrArg (Option.map Conn.currentdir) hc
  | cons e es ih =>
    -- the session is found again after each step
    have hstep := conn?_step_cdup hc (hes e List.mem_cons_self)
    exact ih (fun e' he' => hes e' (List.mem_cons_of_mem _ he')) hstep

/-- A connection of the list is found by its address. -/
theorem ConnList.conn?_of_mem {w : World} (h : ConnList w) {c : Conn} (hc : c ∈ w.conns) :
    w.conn? c.id = some c := by
  cases hfind : w.conn? c.id with
  | none => exact absurd (List.find?_eq_none.1 hfind c hc) (by simp)
  | some c' =>
    obtain ⟨hmem, hid⟩ := World.conn?_eq hfind
    rw [h.eq_of_id hmem hc hid]

/-- The connections of a reached state have addresses of their own. -/
theorem connList_run (v : FatFs.Volume) (sockfd : Nat) (es : List Event) :
    ConnList (run step (World.start v sockfd) es) := by
  have hstart : ConnList (World.start v sockfd) := ⟨List.nodup_nil, by simp [World.start]⟩
  have hstep : ∀ w e, ConnList w → True → ConnList (step w e) := fun w e h _ => h.step e
  exact run_inv hstep hstart (EventRun.along_true _ _ _)

/-- In every reached state `CDUP` is the way to the parent of a session's directory iff in this
directory every slash behind the first character is followed by a name. A slash at the end of the
path, or two in a row, are the reason where it is not: one `CDUP` takes the slash alone. The other
direction needs all components, which is why the law has its second half. -/
theorem cdup_parent_iff (v : FatFs.Volume) (sockfd : Nat) (es : List Event) {c : Conn}
    (hc : c ∈ (run step (World.start v sockfd) es).conns) :
    ParentLaw (run step (World.start v sockfd) es) c ↔ SlashesNamed c.currentdir := by
  have hfind := (connList_run v sockfd es).conn?_of_mem hc
  constructor
  · intro h
    -- any `CDUP` will do, repeated for every component
    have hcdup : IsCdup c.id (.serve c.id (some (textBytes "CDUP\r\n")) {}) :=
      ⟨rfl, by decide, rfl⟩
    have hall : ∀ e ∈ List.replicate (components c.currentdir).length
        (Event.serve c.id (some (textBytes "CDUP\r\n")) {}), IsCdup c.id e :=
      fun e he => List.eq_of_mem_replicate he ▸ hcdup
    have hroot := h.root _ hall List.length_replicate
    rw [dir?_run_cdup hall hfind, List.length_replicate, Option.some.injEq] at hroot
    exact (iterate_components_iff _).1 hroot
  · intro h
    refine ⟨fun e he => ?_, fun cs hcs hlen => ?_⟩
    · refine ⟨doStepDown c.currentdir, ?_, h.isParent⟩
      exact congrArg (Option.map Conn.currentdir) (conn?_step_cdup hfind he)
    · rw [dir?_run_cdup hcs hfind, hlen, (iterate_components_iff _).2 h]

/-- From `/a/b`, reached by one `CWD`. -/
theorem cdup_parent_names :
    ParentLaw (run step (World.start emptyDisk 3)
      [.accept (some 4) 0 (some { pasvActive := false, pasvSockfd := 0, pasvPort := 0 }),
        .serve 0 (some (textBytes "CWD /a/b\r\n")) {}])
      { id := 0, sockfd := 4, remote := 0, pasvActive := false, pasvSockfd := 0, pasvPort := 0,
        currentdir := textBytes "/a/b" } :=
  (cdup_parent_iff emptyDisk 3 _ (by decide)).2 (by decide)

/-- From `/a/b/`, `CDUP` leads to `/a/b`. The law would have it lead to `/a`, which is one component
less. -/
theorem cdup_trailing_slash :
    ¬ ∀ (v : FatFs.Volume) (sockfd : Nat) (es : List Event),
      ∀ c ∈ (run step (World.start v sockfd) es).conns,
        ParentLaw (run step (World.start v sockfd) es) c := by
  intro h
  have hlaw := h emptyDisk 3
    [.accept (some 4) 0 (some { pasvActive := false, pasvSockfd := 0, pasvPort := 0 }),
      .serve 0 (some (textBytes "CWD /a/b/\r\n")) {}]
    { id := 0, sockfd := 4, remote := 0, pasvActive := false, pasvSockfd := 0, pasvPort := 0,
      currentdir := textBytes "/a/b/" } (by decide)
  obtain ⟨up, hup, hparent⟩ := hlaw.once (.serve 0 (some (textBytes "CDUP\r\n")) {})
    ⟨rfl, by decide, rfl⟩
  -- the slash at the end is all that goes
  have hstay : (step (run step (World.start emptyDisk 3)
      [.accept (some 4) 0 (some { pasvActive := false, pasvSockfd := 0, pasvPort := 0 }),
        .serve 0 (some (textBytes "CWD /a/b/\r\n")) {}])
      (.serve 0 (some (textBytes "CDUP\r\n")) {})).dir? 0 = some (textBytes "/a/b") := by
    decide
  have heq : some (textBytes "/a/b") = some up := hstay.symm.trans hup
  exact absurd (Option.some.inj heq ▸ hparent) (by decide)

end NucleoH743.Ftp
