import NucleoH743.Proofs.Tftp.Effects
import NucleoH743.Proofs.Tftp.Isolation
import Mathlib.Data.Finset.Range
import Mathlib.Data.Finset.Card

/-!
# `Proofs.Tftp.Conservation`: control blocks and pbufs

Every control block belongs to a session, apart from the one of port 69, and every pbuf that a
callback gets is freed once. Three paths break this: the early returns of
`process_tftp_request` after `udp_new` (`RequestLeaks`), the early return of
`wrq_recv_callback` for a chained pbuf, and its second cleanup after a rejected short write.

What is owed is stated for one step (`Conserves`): the control blocks in use are those of the
sessions and the one of port 69, a pbuf that was handed to a callback is freed once, and nothing is
removed or freed twice.

By the invariant `Owned` a control block is in use exactly if it has a receive callback, that is, a
session. A step either serves a datagram for a session or a request. For the first, the session
gives back its block and its arguments where it ends, and nothing where it goes on. For the second,
the request ends with a session, with its block released behind an error message, or with neither.
The last is the leak, on the branches that return between `udp_new` and the start of the session.

- `conserves_iff`: a step conserves the resources exactly if it takes none of the three paths.
- `resources_conserved_iff`: the same along runs.
-/

set_option autoImplicit false

namespace NucleoH743.Proofs.Tftp

open NucleoH743.FatFs
open NucleoH743.Tftp
open EventRun (run Along along_congr)

/-! ### The property and its condition -/

/-- The allocated control blocks, with the one of port 69. -/
def allocatedPcbs (w : World) : Nat :=
  ((Finset.range w.nextPcb).filter fun n => (w.pcbs n).isSome = true).card + 1

/-- The sessions. -/
def activeSessions (w : World) : Nat :=
  ((Finset.range w.nextPcb).filter fun n => hasSession w n = true).card

/-- The event hands a pbuf to a callback of the server. -/
def Delivered (w : World) : SharedEvent → Prop
  | .server (.request _ _) => True
  | .server (.datagram upcb _ _) => hasSession w upcb = true
  | .disk _ => False

/-- What a step owes the allocators. -/
structure Conserves (w : World) (ev : SharedEvent) : Prop where
  /-- a request ends with a session on its control block, or gives the control block back -/
  request : ∀ o d, ev = .server (.request o d) → o.udpNew = true →
    (∃ recv, (sharedStep w ev).pcbs w.nextPcb = some (some recv)) ∨
      ((sharedStep w ev).pcbs w.nextPcb = none ∧ .udpRemove w.nextPcb ∈ effects w ev)
  /-- a session that ends gives back its control block and its arguments -/
  ended : ∀ n recv, w.pcbs n = some (some recv) → (sharedStep w ev).pcbs n = none →
    .udpRemove n ∈ effects w ev ∧ .memFree n ∈ effects w ev
  freed : Delivered w ev → (effects w ev).count .pbufFree = 1
  once : ∀ n, (effects w ev).count (.udpRemove n) ≤ 1 ∧ (effects w ev).count (.memFree n) ≤ 1
  owned : ∀ n, (sharedStep w ev).pcbs n ≠ some none
  counts : allocatedPcbs (sharedStep w ev) = activeSessions (sharedStep w ev) + 1

/-- The next block of the session has bytes that `f_write` does not take: `file_CR` is not open for
writing, or the disk is full. -/
def RefusesWrite (w : World) (args : Args) (p : Pbuf) (o : Outcome) : Prop :=
  WrqTakes args p ∧ ¬ ((w.file .fileCR).valid w.vol = true ∧ (w.file .fileCR).faWrite = true ∧
    0 < o.room)

instance (w : World) (args : Args) (p : Pbuf) (o : Outcome) : Decidable (RefusesWrite w args p o) :=
  inferInstanceAs (Decidable (_ ∧ _))

/-- The step takes none of the paths that lose or release a resource twice. -/
def NoLeak (w : World) : SharedEvent → Prop
  | .server (.request o d) => ¬ RequestLeaks w o d
  | .server (.datagram upcb o d) => ∀ args ∈ wrqArgs w upcb,
      d.p.len = d.p.totLen ∧ ¬ (d.p.len < tftpDataPktLenMax ∧ RefusesWrite w args d.p o)
  | .disk _ => True

instance (w : World) (ev : SharedEvent) : Decidable (NoLeak w ev) :=
  match ev with
  | .server (.request o d) => inferInstanceAs (Decidable (¬ RequestLeaks w o d))
  | .server (.datagram upcb o d) => inferInstanceAs (Decidable (∀ args ∈ wrqArgs w upcb,
      d.p.len = d.p.totLen ∧ ¬ (d.p.len < tftpDataPktLenMax ∧ RefusesWrite w args d.p o)))
  | .disk _ => isTrue trivial

/-- Every allocated control block has a receive callback, and those that have not been handed out
are free. -/
structure Owned (w : World) : Prop where
  fresh : Fresh w
  session : ∀ n, w.pcbs n ≠ some none

/-! ### Counting -/

/-- The test for a session, by the control block. -/
theorem hasSession_iff {w : World} {n : Nat} :
    hasSession w n = true ↔ ∃ recv, w.pcbs n = some (some recv) := by
  unfold hasSession
  split
  · rename_i recv hs
    exact ⟨fun _ => ⟨recv, hs⟩, fun _ => rfl⟩
  · rename_i hs
    exact ⟨fun h => (nomatch h), fun ⟨recv, h⟩ => absurd h (hs recv)⟩

/-- Where every control block has a callback, the allocated ones are the sessions. -/
theorem counts_of_owned {w : World} (h : ∀ n, w.pcbs n ≠ some none) :
    allocatedPcbs w = activeSessions w + 1 := by
  have hsame : ∀ n, (w.pcbs n).isSome = true ↔ hasSession w n = true := by
    intro n
    rw [hasSession_iff]
    match hs : w.pcbs n with
    | none => simp
    | some none => exact absurd hs (h n)
    | some (some recv) => simp
  rw [allocatedPcbs, activeSessions, Finset.filter_congr fun n _ => hsame n]

/-! ### One step -/

section Step
variable {w : World} {args : Args} {upcb : Nat} {o : Outcome} {d : Datagram}

/-- When `f_write` takes no byte. -/
theorem writeRejected_iff : WriteRejected w args d.p o ↔ RefusesWrite w args d.p o := by
  refine and_congr_right fun htake => ?_
  have hpos : 0 < (d.p.payload.drop tftpDataPktHdrLen).length := by
    have hlong : tftpDataPktHdrLen < d.p.payload.length := htake.1
    rw [List.length_drop]
    omega
  rw [wrqWritten, fWrite]
  split_ifs with hv hw
  · simp only [hv, hw, true_and, List.length_take]
    omega
  · simp [hw]
  · simp [hv]

/-- What a datagram owes for the session it is addressed to. -/
structure SessionConserves (w : World) (upcb : Nat) (o : Outcome) (d : Datagram) : Prop where
  ended : (sharedStep w (.server (.datagram upcb o d))).pcbs upcb = none →
    .udpRemove upcb ∈ effects w (.server (.datagram upcb o d)) ∧
      .memFree upcb ∈ effects w (.server (.datagram upcb o d))
  freed : (effects w (.server (.datagram upcb o d))).count .pbufFree = 1
  once : (effects w (.server (.datagram upcb o d))).count (.udpRemove upcb) ≤ 1 ∧
    (effects w (.server (.datagram upcb o d))).count (.memFree upcb) ≤ 1
  owned : (sharedStep w (.server (.datagram upcb o d))).pcbs upcb ≠ some none

/-- A read session gives back what it took where it ends, and nothing before. By whether the block
in the buffer is short. On both ways the pbuf is freed once. -/
theorem sessionConserves_rrq (hs : w.pcbs upcb = some (some (.rrqRecvCallback args))) :
    SessionConserves w upcb o d := by
  by_cases hlast : args.dataLen < tftpDataLenMax
  · obtain ⟨heff, hpcb⟩ := rrq_effects_last (o := o) (d := d) hs hlast
    constructor
    · intro _
      simp [heff]
    · rw [heff]
      rfl
    · simp [heff]
    · rw [hpcb]
      exact fun h => nomatch h
  · obtain ⟨data, heff, hpcb⟩ := rrq_effects_next (o := o) (d := d) hs hlast
    constructor
    · rw [hpcb]
      exact fun h => nomatch h
    · rw [heff]
      rfl
    · simp [heff]
    · rw [hpcb]
      exact fun h => nomatch h

/-- A datagram for a write session in one pbuf releases the session twice if it is short and its
write is rejected. -/
theorem sessionConserves_wrq_iff (hs : w.pcbs upcb = some (some (.wrqRecvCallback args)))
    (hone : d.p.len = d.p.totLen) : SessionConserves w upcb o d ↔
      ¬ (d.p.len < tftpDataPktLenMax ∧ WriteRejected w args d.p o) := by
  have heff := wrq_effects (o := o) hs hone
  obtain ⟨args', -, hpcb⟩ := wrq_pcb (o := o) hs hone
  constructor
  · rintro ⟨-, -, ⟨honce, -⟩, -⟩ ⟨hshort, hrej⟩
    rw [heff, if_pos hrej, if_pos hshort] at honce
    simp [rejectEffects] at honce
  · intro h
    constructor
    · rw [hpcb, heff]
      intro hend
      by_cases hshort : d.p.len < tftpDataPktLenMax
      · simp [hshort]
      · by_cases hrej : WriteRejected w args d.p o
        · simp [hrej, rejectEffects]
        · simp [hshort, hrej] at hend
    · rw [heff]
      split_ifs <;> rfl
    · rw [heff]
      by_cases hshort : d.p.len < tftpDataPktLenMax
      · have hkeep : ¬ WriteRejected w args d.p o := fun hrej => h ⟨hshort, hrej⟩
        simp [hshort, hkeep]
      · by_cases hrej : WriteRejected w args d.p o <;> simp [hshort, hrej, rejectEffects]
    · rw [hpcb]
      split_ifs <;> simp

/-- What a datagram owes for its session is all it owes. The other sessions are not touched, and the
pbuf is counted once. -/
theorem conserves_of_session (hw : Owned w)
    (h : SessionConserves w upcb o d) : Conserves w (.server (.datagram upcb o d)) := by
  have hother : ∀ n, n ≠ upcb →
      (sharedStep w (.server (.datagram upcb o d))).pcbs n = w.pcbs n ∧
        ∀ e ∈ effects w (.server (.datagram upcb o d)), e.pcb ≠ some n :=
    fun n hn => sharedStep_other fun heq => hn (Option.some.inj heq).symm
  have howned : ∀ n, (sharedStep w (.server (.datagram upcb o d))).pcbs n ≠ some none := by
    intro n
    by_cases hn : n = upcb
    · exact hn ▸ h.owned
    · rw [(hother n hn).1]
      exact hw.session n
  exact {
    request := fun _ _ hev => nomatch hev
    ended := by
      intro n recv hn hend
      by_cases heq : n = upcb
      · exact heq ▸ h.ended (heq ▸ hend)
      · rw [(hother n heq).1, hn] at hend
        cases hend
    freed := fun _ => h.freed
    once := by
      intro n
      by_cases hn : n = upcb
      · exact hn ▸ h.once
      · have hcount : ∀ e : Effect, e.pcb = some n →
            (effects w (.server (.datagram upcb o d))).count e = 0 :=
          fun e he => List.count_eq_zero.mpr fun hmem => (hother n hn).2 e hmem he
        rw [hcount _ rfl, hcount _ rfl]
        exact ⟨Nat.zero_le _, Nat.zero_le _⟩
    owned := howned
    counts := counts_of_owned howned }

/-- A step that does nothing for nobody. No block and no pbuf changes hands in it. -/
theorem conserves_idle {ev : SharedEvent} (hw : Owned w) (hpcbs : (sharedStep w ev).pcbs = w.pcbs)
    (heff : effects w ev = []) (hreq : ∀ o d, ev ≠ .server (.request o d))
    (hdel : ¬ Delivered w ev) : Conserves w ev where
  request := fun o d hev => absurd hev (hreq o d)
  ended := by
    intro n recv hn hend
    rw [hpcbs, hn] at hend
    cases hend
  freed := fun h => absurd h hdel
  once := by
    rw [heff]
    exact fun n => ⟨Nat.zero_le _, Nat.zero_le _⟩
  owned := by
    rw [hpcbs]
    exact hw.session
  counts := by
    refine counts_of_owned ?_
    rw [hpcbs]
    exact hw.session

/-- A request that does not leak ends with a session, or gives its control block back. By how it
ends (`request_ends`). A leak is excluded by the condition. -/
theorem conserves_request (hw : Owned w) (hkeep : ¬ RequestLeaks w o d) :
    Conserves w (.server (.request o d)) := by
  have hold : ∀ n, n ≠ w.nextPcb →
      (sharedStep w (.server (.request o d))).pcbs n = w.pcbs n :=
    fun n hn => request_pcbs_of_ne hn
  have hnew : ((∃ recv, (sharedStep w (.server (.request o d))).pcbs w.nextPcb = some (some recv)) ∨
      ((sharedStep w (.server (.request o d))).pcbs w.nextPcb = none ∧
        (o.udpNew = true → .udpRemove w.nextPcb ∈ effects w (.server (.request o d))))) := by
    -- the new control block carries a session, or it has been removed again
    rcases request_ends o w d with ⟨hoff, hstep⟩ | ⟨hleak, -⟩ | ⟨-, -, w₁, hends, hstep⟩
    · refine .inr ⟨?_, fun hon => absurd hon (by simp [hoff])⟩
      rw [hstep, World.emit_pcbs]
      exact hw.fresh _ (Nat.le_refl _)
    · exact absurd hleak hkeep
    · rcases hends with ⟨err, hpcbs, htrace⟩ | ⟨recv, msg, hpcbs, -⟩
      · refine .inr ⟨by rw [hstep, World.emit_pcbs, hpcbs, Function.update_self], fun _ => ?_⟩
        have heff : effects w (.server (.request o d)) = [.sendto w.nextPcb d.addr d.port
            (tftpErrorPacket err), .udpRemove w.nextPcb, .pbufFree] :=
          effects_eq (by rw [hstep, World.emit_trace, htrace]; simp)
        simp [heff]
      · exact .inl ⟨recv, by rw [hstep, World.emit_pcbs, hpcbs, Function.update_self]⟩
  have howned : ∀ n, (sharedStep w (.server (.request o d))).pcbs n ≠ some none := by
    intro n
    by_cases hn : n = w.nextPcb
    · subst hn
      rcases hnew with ⟨recv, h⟩ | ⟨h, -⟩
      · rw [h]
        exact fun h => nomatch h
      · rw [h]
        exact fun h => nomatch h
    · rw [hold n hn]
      exact hw.session n
  exact {
    request := by
      rintro o' d' hev hon
      obtain ⟨rfl, rfl⟩ : o = o' ∧ d = d' := by simpa using hev
      exact hnew.imp_right fun h => ⟨h.1, h.2 hon⟩
    ended := by
      intro n recv hn hend
      -- a session that was there before is not the one of the request
      have hlt := hw.fresh.lt hn
      rw [hold n (by omega), hn] at hend
      cases hend
    freed := by
      intro _
      rcases request_effects o w d with heff | ⟨err, heff⟩ | ⟨block, data, heff⟩ | heff
      all_goals
        rw [heff]
        rfl
    once := by
      intro n
      rcases request_effects o w d with heff | ⟨err, heff⟩ | ⟨block, data, heff⟩ | heff
      · simp [heff]
      · by_cases hn : w.nextPcb = n <;> simp [heff, hn]
      · simp [heff]
      · simp [heff]
    owned := howned
    counts := counts_of_owned howned }

/-- A step conserves what it takes iff it takes none of the paths that lose or release twice. By the
invariant, a block in use is that of a session. -/
theorem conserves_iff (hw : Owned w) (ev : SharedEvent) : NoLeak w ev ↔ Conserves w ev := by
  match ev with
  | .disk vol =>
    refine ⟨fun _ => ?_, fun _ => trivial⟩
    exact conserves_idle hw rfl (effects_disk w vol) (fun _ _ h => nomatch h) id
  | .server (.request o d) =>
    refine ⟨conserves_request hw, fun h hleak => ?_⟩
    -- the leaked control block has no callback
    rcases request_ends o w d with ⟨hoff, -⟩ | ⟨-, hpcbs, -⟩ | ⟨-, hkeep, -⟩
    · exact absurd hleak.1 (by simp [hoff])
    · refine h.owned w.nextPcb ?_
      rw [hpcbs, Function.update_self]
    · exact hkeep hleak
  | .server (.datagram upcb o d) =>
    rcases session_cases w upcb with hnone | ⟨args, hs⟩ | ⟨args, hs⟩
    · have hno : ¬ hasSession w upcb = true := fun h => by
        obtain ⟨recv, hrecv⟩ := hasSession_iff.mp h
        exact hnone recv hrecv
      have hargs : ∀ args, wrqArgs w upcb ≠ some args :=
        fun args h => hnone _ (wrqArgs_eq_some.mp h)
      refine ⟨fun _ => ?_, fun _ args h => absurd h (hargs args)⟩
      exact conserves_idle hw (by rw [noSession_step hnone]) (noSession_effects hnone o d)
        (fun _ _ h => nomatch h) hno
    · refine ⟨fun _ => conserves_of_session hw (sessionConserves_rrq hs), fun _ args' h => ?_⟩
      have hwrq := wrqArgs_eq_some.mp h
      rw [hs] at hwrq
      cases hwrq
    · have hsess : hasSession w upcb = true := hasSession_iff.mpr ⟨_, hs⟩
      have hargs : wrqArgs w upcb = some args := wrqArgs_eq_some.mpr hs
      by_cases hone : d.p.len = d.p.totLen
      · constructor
        · intro h
          have hleak := (h args hargs).2
          rw [← writeRejected_iff, ← sessionConserves_wrq_iff hs hone] at hleak
          exact conserves_of_session hw hleak
        · intro h args' hargs'
          obtain rfl : args = args' := Option.some.inj (hargs.symm.trans hargs')
          rw [← writeRejected_iff, ← sessionConserves_wrq_iff hs hone]
          exact ⟨hone, fun hend => h.ended upcb _ hs hend, h.freed hsess, h.once upcb, h.owned upcb⟩
      · -- the early return keeps the pbuf
        refine ⟨fun h => absurd (h args hargs).1 hone, fun h => ?_⟩
        have hfreed := h.freed hsess
        rw [wrq_chained_effects hs hone] at hfreed
        cases hfreed

end Step

/-! ### Runs -/

/-- At the start nothing is in use. -/
theorem owned_init (vol : Volume) : Owned (World.init vol) where
  fresh := fresh_init vol
  session := fun _ h => nomatch h

/-- Along every run the control blocks and the pbufs are conserved exactly if no step takes one of
the leaking paths. The run starts with nothing in use but the block of port 69. `NoLeak` names the
three paths by what leads to them: the outcome of the calls in front of a session, a chained pbuf
for a write session, and a short block whose write is rejected. -/
theorem resources_conserved_iff (vol : Volume) (es : List SharedEvent) :
    Along sharedStep Conserves (World.init vol) es ↔
      Along sharedStep NoLeak (World.init vol) es := by
  have hstep : ∀ w ev, Owned w → NoLeak w ev → Owned (sharedStep w ev) := by
    intro w ev hw hkeep
    exact ⟨fresh_sharedStep hw.fresh ev, ((conserves_iff hw ev).mp hkeep).owned⟩
  exact (along_congr hstep (fun _ ev hw => conserves_iff hw ev) (owned_init vol) es).symm

/-- A read request finds no port to bind to. -/
theorem failed_bind_leaks :
    ¬ ∀ (vol : Volume) (es : List SharedEvent), Along sharedStep Conserves (World.init vol) es := by
  intro h
  obtain ⟨hconserves, -⟩ := h emptyVol [.server (.request { udpBind := false } readA)]
  exact absurd ((conserves_iff (owned_init emptyVol) _).mpr hconserves) (by decide)

end NucleoH743.Proofs.Tftp
