import Mathlib.Tactic.SplitIfs
import NucleoH743.Eth.Link
import NucleoH743.Lib.Run
import NucleoH743.Proofs.Eth.Transmit

/-!
# `Proofs.Eth.Link`: what the link thread does over a history of PHY states

The thread is meant to start the MAC with the speed and duplex that the PHY has negotiated, and to
keep the interface up exactly while the MAC runs. Two things come in between.

It never resets `linkchanged`, so from the second link on a state without a result, such as
`AUTONEGO_NOTDONE`, starts the MAC with the values of the link before. And it does not read what
`HAL_ETH_Start_IT` returns. The HAL refuses the call when the handle is in the state `ERROR`,
which a frame that was given up is enough for, and the thread sets the interface up over a MAC
that is off. `low_level_init` does the same when `HAL_ETH_Init` has failed.

The theorem is about a history of two kinds of events: a state that the PHY reports to the thread,
and an error of the HAL in between, which a frame can cause at any time. What the thread owes to the
link after each poll is `PollSupervises`. The invariant connects the flag of the interface with the
state of the HAL, so that the three ways to be misled are conditions on the state before the poll.

- `getLinkState_cases`: the PHY driver reports a link that is down, a state without a result, or a
  resolved one.
- `linkIteration_cases`: an iteration stops the MAC, starts it with a result of the PHY or without
  one, or does nothing.
- `InStep.linkStep`: the invariant of the run. The two flags agree, a MAC that runs is reported,
  and a handle that is ready takes a configuration while the MAC is stopped.
- `link_supervised_iff`: along a history every iteration supervises the link iff none of them
  starts the MAC without a result, is refused the start, or finds the interface up over a MAC that
  `low_level_init` could not start.
- `transmit_events`: what `HAL_ETH_Transmit` does to the handle's state is an event of the run, or
  none.
-/

set_option autoImplicit false

namespace NucleoH743.Eth

open EventRun (Along along_congr run)

/-- What one iteration owes to the link. -/
structure PollSupervises (s : LinkState) (phy : Int) : Prop where
  /-- the MAC is started in a resolved state, with its speed and duplex -/
  started : (.startIT, .ok) ∈ (linkIteration s phy).2 →
    macConf phy = some (linkIteration s phy).1.mac
  /-- it stops where the link is down or the PHY reports an error -/
  stopped : phy ≤ lan8742StatusLinkDown → (linkIteration s phy).1.running = false ∧
    (s.running = true → (.stopIT, .ok) ∈ (linkIteration s phy).2)
  /-- the interface is up with its link up exactly while the MAC runs -/
  agrees : ((linkIteration s phy).1.netifUp = true ∧ (linkIteration s phy).1.linkUp = true) ↔
    (linkIteration s phy).1.running = true

/-- What an event owes to the link. An error of the HAL is not an iteration. -/
def Supervises (s : LinkState) : LinkEvent → Prop
  | .halError => True
  | .poll phy => PollSupervises s phy

/-- The iteration would start the MAC without a result of the PHY. -/
def StartsStale (s : LinkState) (phy : Int) : Prop :=
  s.linkUp = false ∧ phy > lan8742StatusLinkDown ∧ macConf phy = none ∧ s.linkchanged = true

/-- The iteration would start the MAC, and the HAL would refuse. -/
def StartRefused (s : LinkState) (phy : Int) : Prop :=
  s.linkUp = false ∧ (switchPhy s phy).linkchanged = true ∧ phy > lan8742StatusLinkDown ∧
    s.gState ≠ halEthStateReady

/-- The iteration would leave the interface up over a MAC that is off. -/
def UpUnstarted (s : LinkState) (phy : Int) : Prop :=
  s.linkUp = true ∧ s.running = false ∧ phy > lan8742StatusLinkDown

/-- The thread is not misled: it has a result where it starts the MAC, the HAL takes the start,
and an interface that stays up has its MAC running. -/
def NotMisled (s : LinkState) : LinkEvent → Prop
  | .halError => True
  | .poll phy => ¬ StartsStale s phy ∧ ¬ StartRefused s phy ∧ ¬ UpUnstarted s phy

/-- The invariant of the thread and the HAL. -/
structure InStep (s : LinkState) : Prop where
  /-- the flags of the interface are set together -/
  flags : s.netifUp = s.linkUp
  /-- a MAC that runs is reported -/
  reported : s.running = true → s.linkUp = true
  /-- a handle that is ready takes a configuration while the MAC is stopped -/
  configurable : s.gState = halEthStateReady → s.running = false → s.rxState = halEthStateReady
  /-- `HAL_ETH_Init` has been called -/
  initialised : s.gState ≠ halEthStateReset

/-! ### The states of the PHY -/

/-- A `BCR` is a resolved state. -/
theorem macConf_bcrState (readval : UInt32) : ∃ c, macConf (bcrState readval) = some c := by
  unfold bcrState
  split_ifs
  all_goals exact ⟨_, rfl⟩

/-- `PHYSCSR` is a resolved state where auto-negotiation is done. -/
theorem macConf_physcsrState (readval : UInt32) :
    physcsrState readval = lan8742StatusAutonegoNotdone ∨
      ∃ c, macConf (physcsrState readval) = some c := by
  unfold physcsrState
  split_ifs
  · exact .inl rfl
  all_goals exact .inr ⟨_, rfl⟩

/-- `LAN8742_GetLinkState` returns a read error or a link that is down, a state without a result,
or a resolved state. -/
theorem getLinkState_cases (bsr bsr' bcr physcsr : Option UInt32) :
    lan8742GetLinkState bsr bsr' bcr physcsr ≤ lan8742StatusLinkDown ∨
      lan8742GetLinkState bsr bsr' bcr physcsr = lan8742StatusAutonegoNotdone ∨
      ∃ c, macConf (lan8742GetLinkState bsr bsr' bcr physcsr) = some c := by
  unfold lan8742GetLinkState
  split
  · split
    · exact .inl (Int.le_refl _)
    · split
      · exact .inl (by decide)
      · split
        · exact .inr (.inr (macConf_bcrState _))
        · split
          · exact .inl (by decide)
          · exact .inr (macConf_physcsrState _)
  · exact .inl (by decide)

/-! ### Starting and stopping -/

/-- The codes of the states differ: ready is not reset. -/
theorem ready_ne_reset : halEthStateReady ≠ halEthStateReset := by decide

/-- A handle that has met an error is not reset either. -/
theorem error_ne_reset : halEthStateError ≠ halEthStateReset := by decide

/-- Nor is it ready, and this is what `HAL_ETH_Start_IT` tests. -/
theorem error_ne_ready : halEthStateError ≠ halEthStateReady := by decide

section Calls
variable {s : LinkState} (c : MacConf)

/-- A handle that is ready and takes a configuration starts the MAC with it. The configuration is
accepted, and the handle is ready for the start. -/
theorem startLink_ready (hready : s.gState = halEthStateReady)
    (hrx : s.rxState = halEthStateReady) :
    startLink s c =
      ({ s with
          gState := halEthStateReady
          rxState := halEthStateBusyRx
          running := true
          mac := c
          netifUp := true
          linkUp := true },
        [(.setMacConfig c, .ok), (.startIT, .ok)]) := by
  have hset : s.halEthSetMacConfig c = (.ok, { s with mac := c }) := if_pos hrx
  have hstart : LinkState.halEthStartIT { s with mac := c } =
      (.ok, { s with
        mac := c, running := true, gState := halEthStateReady, rxState := halEthStateBusyRx }) :=
    if_pos hready
  rw [startLink, hset, hstart]
  rfl

/-- The configuration does not change the state of the handle, the MAC's run, or the flags. -/
theorem halEthSetMacConfig_frame (s : LinkState) (c : MacConf) :
    ∃ m, (s.halEthSetMacConfig c).2 = { s with mac := m } := by
  unfold LinkState.halEthSetMacConfig
  split
  · exact ⟨c, rfl⟩
  · exact ⟨s.mac, rfl⟩

/-- A start that the HAL refuses changes nothing but the flags, and the configuration if that was
taken. -/
theorem startLink_refused (hstate : s.gState ≠ halEthStateReady) :
    ∃ m r, startLink s c = ({ s with mac := m, netifUp := true, linkUp := true },
      [(.setMacConfig c, r), (.startIT, .error)]) := by
  obtain ⟨m, hm⟩ := halEthSetMacConfig_frame s c
  have hrefused : LinkState.halEthStartIT { s with mac := m } = (.error, { s with mac := m }) :=
    if_neg hstate
  refine ⟨m, (s.halEthSetMacConfig c).1, ?_⟩
  rw [startLink, hm, hrefused]
  rfl

/-- Once the handle is initialised it can be stopped, whatever its state. -/
theorem stopLink_initialised (hinit : s.gState ≠ halEthStateReset) :
    stopLink s =
      ({ s with
          gState := halEthStateReady
          rxState := halEthStateReady
          running := false
          netifUp := false
          linkUp := false },
        [(.stopIT, .ok)]) := by
  rw [stopLink, LinkState.halEthStopIT, if_pos hinit]
  rfl

end Calls

/-! ### One iteration -/

section Iteration
variable (s : LinkState) (phy : Int)

/-- An iteration stops the MAC, starts it with the result of the PHY, starts it without one, or does
nothing. By the flag of the interface and the state of the PHY, and for a link that comes up by what
the `switch` finds. -/
theorem linkIteration_cases :
    (s.linkUp = true ∧ phy ≤ lan8742StatusLinkDown ∧ linkIteration s phy = stopLink s) ∨
    (∃ c, s.linkUp = false ∧ phy > lan8742StatusLinkDown ∧ macConf phy = some c ∧
      linkIteration s phy = startLink { s with conf := c, linkchanged := true } c) ∨
    (StartsStale s phy ∧ linkIteration s phy = startLink s s.conf) ∨
    (¬ StartsStale s phy ∧ ¬ StartRefused s phy ∧
      (phy ≤ lan8742StatusLinkDown → s.linkUp = false) ∧ linkIteration s phy = (s, [])) := by
  by_cases hup : s.linkUp = true
  · by_cases hphy : phy ≤ lan8742StatusLinkDown
    · exact .inl ⟨hup, hphy, if_pos ⟨hup, hphy⟩⟩
    · have hstale : ¬ StartsStale s phy := fun h => by simp [h.1] at hup
      have hrefused : ¬ StartRefused s phy := fun h => by simp [h.1] at hup
      refine .inr (.inr (.inr ⟨hstale, hrefused, fun h => absurd h hphy, ?_⟩))
      rw [linkIteration, if_neg (fun h => hphy h.2), if_neg (fun h => h.1 hup)]
  · have hdown : s.linkUp = false := by simpa using hup
    have hnot : ¬ (s.linkUp = true ∧ phy ≤ lan8742StatusLinkDown) := fun h => hup h.1
    by_cases hphy : phy ≤ lan8742StatusLinkDown
    · have hlow : ¬ phy > lan8742StatusLinkDown := Int.not_lt.2 hphy
      refine .inr (.inr (.inr ⟨fun h => hlow h.2.1, fun h => hlow h.2.2.1, fun _ => hdown, ?_⟩))
      rw [linkIteration, if_neg hnot, if_neg (fun h => hlow h.2)]
    have hhigh : phy > lan8742StatusLinkDown := Int.not_le.1 hphy
    -- the `switch` decides what the flag and the configuration are
    cases hconf : macConf phy with
    | some c =>
      refine .inr (.inl ⟨c, hdown, hhigh, rfl, ?_⟩)
      rw [linkIteration, if_neg hnot, if_pos ⟨hup, hhigh⟩, switchPhy, hconf]
      rfl
    | none =>
      have hswitch : switchPhy s phy = s := by rw [switchPhy, hconf]
      by_cases hchanged : s.linkchanged = true
      · refine .inr (.inr (.inl ⟨⟨hdown, hhigh, hconf, hchanged⟩, ?_⟩))
        rw [linkIteration, if_neg hnot, if_pos ⟨hup, hhigh⟩, hswitch]
        exact if_pos hchanged
      · refine .inr (.inr (.inr ⟨fun h => hchanged h.2.2.2, fun h => ?_, fun _ => hdown, ?_⟩))
        · exact hchanged (hswitch ▸ h.2.1)
        · rw [linkIteration, if_neg hnot, if_pos ⟨hup, hhigh⟩, hswitch]
          exact if_neg hchanged

end Iteration

/-! ### The invariant -/

namespace InStep
variable {s : LinkState}

/-- With the link reported down the MAC is stopped. -/
theorem stopped (h : InStep s) (hdown : s.linkUp = false) : s.running = false := by
  cases hrun : s.running with
  | false => rfl
  | true => exact absurd (h.reported hrun) (by simp [hdown])

/-- A start from a link that is down keeps the invariant, whether the HAL takes it or not. -/
theorem startLink (h : InStep s) (hdown : s.linkUp = false) (c : MacConf) :
    InStep (startLink s c).1 := by
  by_cases hready : s.gState = halEthStateReady
  · rw [startLink_ready c hready (h.configurable hready (h.stopped hdown))]
    exact ⟨rfl, fun _ => rfl, fun _ hrun => absurd hrun Bool.noConfusion, ready_ne_reset⟩
  · obtain ⟨m, r, heq⟩ := startLink_refused c hready
    rw [heq]
    exact ⟨rfl, fun _ => rfl, fun hstate => absurd hstate hready, h.initialised⟩

/-- A stop keeps the invariant. -/
theorem stopLink (h : InStep s) : InStep (stopLink s).1 := by
  rw [stopLink_initialised h.initialised]
  exact ⟨rfl, fun hrun => absurd hrun Bool.false_ne_true, fun _ _ => rfl, ready_ne_reset⟩

/-- The invariant holds through every event, also one that misleads the thread. By what the
iteration does; an error of the HAL changes the state of the handle only. -/
theorem linkStep (h : InStep s) (e : LinkEvent) : InStep (linkStep s e) := by
  cases e with
  | halError =>
    exact ⟨h.flags, h.reported, fun heq => absurd heq error_ne_ready, error_ne_reset⟩
  | poll phy =>
    show InStep (linkIteration s phy).1
    obtain ⟨-, -, heq⟩ | ⟨c, hdown, -, -, heq⟩ | ⟨hstale, heq⟩ | ⟨-, -, -, heq⟩ :=
      linkIteration_cases s phy
    · rw [heq]
      exact h.stopLink
    · rw [heq]
      have hswitch : InStep { s with conf := c, linkchanged := true } :=
        ⟨h.flags, h.reported, h.configurable, h.initialised⟩
      exact hswitch.startLink hdown c
    · rw [heq]
      exact h.startLink hstale.1 s.conf
    · rw [heq]
      exact h

end InStep

/-- The invariant holds from `low_level_init` on, whatever `HAL_ETH_Init` returned. By the result of
`HAL_ETH_Init`. -/
theorem inStep_lowLevelInit (mac : MacConf) (init : HalStatus) (phy : Int) :
    InStep (lowLevelInit mac init phy) := by
  have hinit : InStep (LinkState.halEthInit mac init) := by
    cases init with
    | ok => exact ⟨rfl, fun h => absurd h Bool.false_ne_true, fun _ _ => rfl, ready_ne_reset⟩
    | error =>
      exact ⟨rfl, fun h => absurd h Bool.false_ne_true, fun h => absurd h error_ne_ready,
        error_ne_reset⟩
  have hdown : (LinkState.halEthInit mac init).linkUp = false := by
    cases init with
    | ok => rfl
    | error => rfl
  unfold lowLevelInit
  split
  · exact ⟨rfl, fun h => absurd (hinit.reported h) (by simp [hdown]), hinit.configurable,
      hinit.initialised⟩
  · exact hinit.startLink hdown _

/-! ### The condition -/

section Condition
variable {s : LinkState} {phy : Int}

/-- An iteration that starts the MAC with the configuration `c` supervises the link iff `c` is what
the PHY has and the HAL takes the start. The MAC runs with `c` afterwards iff the HAL takes the
start, and the PHY has negotiated `c` iff its state says so. -/
theorem startLink_supervises (hs : InStep s) (hdown : s.linkUp = false)
    (hhigh : phy > lan8742StatusLinkDown) {s' : LinkState} {c : MacConf}
    (heq : linkIteration s' phy = startLink s c) :
    PollSupervises s' phy ↔ macConf phy = some c ∧ s.gState = halEthStateReady := by
  have hlow : ¬ phy ≤ lan8742StatusLinkDown := Int.not_le.2 hhigh
  have hstopped := hs.stopped hdown
  by_cases hready : s.gState = halEthStateReady
  · have hstart := heq.trans (startLink_ready c hready (hs.configurable hready hstopped))
    constructor
    · intro hsup
      have hconf := hsup.started (by rw [hstart]; simp)
      rw [hstart] at hconf
      exact ⟨hconf, hready⟩
    · intro ⟨hconf, _⟩
      refine ⟨fun _ => ?_, fun h => absurd h hlow, ?_⟩
      · rw [hstart]
        exact hconf
      · rw [hstart]
        exact iff_of_true ⟨rfl, rfl⟩ rfl
  · -- the interface is up, and the MAC is as it was
    obtain ⟨m, r, hrefused⟩ := startLink_refused (s := s) c hready
    refine iff_of_false (fun hsup => ?_) fun h => hready h.2
    have hagrees := hsup.agrees
    rw [heq, hrefused] at hagrees
    exact absurd (hagrees.1 ⟨rfl, rfl⟩) (by simp [hstopped])

/-- An iteration that does nothing supervises the link iff it does not find the interface up over a
MAC that is off. The state after the iteration is the one before it, and the invariant connects the
flag with the MAC. -/
theorem idle_supervises (hs : InStep s) (hidle : phy ≤ lan8742StatusLinkDown → s.linkUp = false)
    (heq : linkIteration s phy = (s, [])) : PollSupervises s phy ↔ ¬ UpUnstarted s phy := by
  constructor
  · rintro hsup ⟨hup, hoff, -⟩
    have hagrees := hsup.agrees
    rw [heq] at hagrees
    exact absurd (hagrees.1 ⟨hs.flags.trans hup, hup⟩) (by simp [hoff])
  · intro hnot
    refine ⟨fun hstart => ?_, fun hphy => ?_, ?_⟩
    · rw [heq] at hstart
      cases hstart
    · rw [heq]
      have hoff := hs.stopped (hidle hphy)
      exact ⟨hoff, fun hrun => absurd hrun (by simp [hoff])⟩
    · rw [heq]
      refine ⟨fun hup => ?_, fun hrun => ⟨hs.flags.trans (hs.reported hrun), hs.reported hrun⟩⟩
      -- an interface that is up was found up, with the PHY above `LINK_DOWN`
      have hhigh : phy > lan8742StatusLinkDown := by
        refine Int.not_le.1 fun hphy => ?_
        exact absurd hup.2 (by simp [hidle hphy])
      cases hrun : s.running with
      | true => rfl
      | false => exact absurd ⟨hup.2, hrun, hhigh⟩ hnot

/-- An iteration that stops the MAC supervises the link. -/
theorem stopLink_supervises (hs : InStep s) (heq : linkIteration s phy = stopLink s) :
    PollSupervises s phy := by
  have hstop := heq.trans (stopLink_initialised hs.initialised)
  refine ⟨fun hstart => ?_, fun _ => ?_, ?_⟩
  · rw [hstop] at hstart
    simp at hstart
  · rw [hstop]
    exact ⟨rfl, fun _ => List.mem_singleton_self _⟩
  · rw [hstop]
    exact iff_of_false (fun h => absurd h.1 Bool.false_ne_true) Bool.false_ne_true

/-- An event supervises the link iff it does not mislead the thread. By what the iteration does. -/
theorem supervises_iff (hs : InStep s) (e : LinkEvent) : Supervises s e ↔ NotMisled s e := by
  cases e with
  | halError => exact Iff.rfl
  | poll phy =>
    show PollSupervises s phy ↔ ¬ StartsStale s phy ∧ ¬ StartRefused s phy ∧ ¬ UpUnstarted s phy
    -- the link is lost, is up with a new configuration, is up with an old one, or has not changed
    obtain ⟨hup, hphy, heq⟩ | ⟨c, hdown, hhigh, hconf, heq⟩ | ⟨hstale, heq⟩ |
      ⟨hstale, hrefused, hidle, heq⟩ := linkIteration_cases s phy
    · have hlow : ¬ phy > lan8742StatusLinkDown := Int.not_lt.2 hphy
      refine iff_of_true (stopLink_supervises hs heq) ⟨fun h => ?_, fun h => ?_, fun h => ?_⟩
      · exact hlow h.2.1
      · exact hlow h.2.2.1
      · exact hlow h.2.2
    · have hswitch : InStep { s with conf := c, linkchanged := true } :=
        ⟨hs.flags, hs.reported, hs.configurable, hs.initialised⟩
      have hstale : ¬ StartsStale s phy := fun h => by simp [h.2.2.1] at hconf
      have hnot : ¬ UpUnstarted s phy := fun h => by simp [h.1] at hdown
      have hchanged : (switchPhy s phy).linkchanged = true := by rw [switchPhy, hconf]
      rw [startLink_supervises hswitch hdown hhigh heq]
      constructor
      · intro ⟨_, hready⟩
        exact ⟨hstale, fun h => h.2.2.2 hready, hnot⟩
      · intro ⟨_, hrefused, _⟩
        exact ⟨hconf, Decidable.not_not.1 fun h => hrefused ⟨hdown, hchanged, hhigh, h⟩⟩
    · rw [startLink_supervises hs hstale.1 hstale.2.1 heq, hstale.2.2.1]
      exact iff_of_false (fun h => by cases h.1) fun h => h.1 hstale
    · rw [idle_supervises hs hidle heq]
      exact ⟨fun hnot => ⟨hstale, hrefused, hnot⟩, fun h => h.2.2⟩

end Condition

/-- Along a history of polls and HAL errors every iteration supervises the link iff none of them
finds one of three things: a link that is down with a state above `LINK_DOWN` without a result and
`linkchanged` set; a link to be started with the handle not ready; or an interface that is up over
a MAC that is off. The history starts behind `low_level_init`, whatever its `HAL_ETH_Init`
returned. -/
theorem link_supervised_iff (mac : MacConf) (init : HalStatus) (phy : Int)
    (es : List LinkEvent) :
    Along linkStep Supervises (lowLevelInit mac init phy) es ↔
      Along linkStep NotMisled (lowLevelInit mac init phy) es := by
  have hstep : ∀ s e, InStep s → Supervises s e → InStep (linkStep s e) :=
    fun s e hs _ => hs.linkStep e
  have hiff : ∀ s e, InStep s → (Supervises s e ↔ NotMisled s e) := fun s e hs =>
    supervises_iff hs e
  exact along_congr hstep hiff (inStep_lowLevelInit mac init phy) es

/-- A frame that is given up while the link is down: the interface comes up again over a MAC that
is off. -/
example :
    let s := run linkStep (lowLevelInit ⟨0, 0⟩ .ok lan8742Status100MbitsFullduplex)
      [.poll lan8742StatusLinkDown, .halError, .poll lan8742Status100MbitsFullduplex]
    s.netifUp = true ∧ s.linkUp = true ∧ s.running = false := by
  decide

/-- 10 Mbit/s, a link down, and auto-negotiation: the MAC starts at 10 Mbit/s before there is a
result. -/
theorem link_started_stale :
    ¬ ∀ (mac : MacConf) (init : HalStatus) (phy : Int) (es : List LinkEvent),
      Along linkStep Supervises (lowLevelInit mac init phy) es := by
  intro h
  have hall := h ⟨0, 0⟩ .ok lan8742StatusLinkDown [.poll lan8742Status10MbitsHalfduplex,
    .poll lan8742StatusLinkDown, .poll lan8742StatusAutonegoNotdone]
  have hlast : PollSupervises _ lan8742StatusAutonegoNotdone := hall.2.2.1
  exact absurd (hlast.started (by decide)) (by decide)

/-! ### The frames in between -/

/-- What a transmission does to the state of the handle is an event of the run, or none: it leaves
the state as it was or sets it to `ERROR`. The state afterwards is the old one or `ERROR`, by
`halEthTransmit_gState`. -/
theorem transmit_events {heth heth' : EthHandle} {cfg : Option EthTxPacketConfig}
    {timeout : UInt32} {w : TxWait} {fuel : Nat} {status : HalStatus}
    (heq : halEthTransmit heth cfg timeout w fuel = some (status, heth')) (s : LinkState)
    (hs : s.gState = heth.gState) :
    ∃ es : List LinkEvent, (∀ e ∈ es, e = .halError) ∧
      run linkStep s es = { s with gState := heth'.gState } := by
  obtain hkept | herror := halEthTransmit_gState heq
  · refine ⟨[], by simp, ?_⟩
    rw [hkept, ← hs]
    rfl
  · refine ⟨[.halError], by simp, ?_⟩
    rw [herror]
    rfl

end NucleoH743.Eth
