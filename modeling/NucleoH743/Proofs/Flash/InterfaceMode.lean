import NucleoH743.Flash.MemoryMapped
import NucleoH743.Proofs.Flash.Device

/-!
# `Proofs.Flash.InterfaceMode`: the interface mode of the driver and of the chip

`pqspi.InterfaceMode` says on which lines the driver talks to the chip. It is SPI when the
program starts and after `BSP_QSPI_DeInit`, whatever mode the chip is in. `BSP_QSPI_Init`
resets the chip, but `BSP_QSPI_ConfigFlash` and `BSP_QSPI_EnableMemoryMappedMode` work without
it: they take the SPI mode for granted.

The invariant says that an initialised driver knows the mode of the chip, and that the variable is
at its default before the initialisation. Each function keeps it, whatever the HAL answers: a
command that fails does not reach the chip, and the driver then leaves its variable as it is.

The two functions that take the SPI mode for granted are right if the chip is in it. If it is not,
their commands go out on the wrong lines, the chip ignores them, and the driver counts as
initialised for a mode that the chip is not in.

- `interface_mode_iff`: the driver knows the mode of the chip throughout a run iff no call
  takes the SPI mode for granted while the chip is in QPI mode.
-/

set_option autoImplicit false

namespace NucleoH743.Flash

open EventRun (run Along run_inv along_congr)
open Prog (always_bind always_mono always_seq always_interp always_runWith)

/-- An initialised driver knows the mode of the chip. -/
def Agrees (d : Device) : Prop :=
  d.pqspi.isInitialized ≠ .none → d.pqspi.interfaceMode = d.mode

instance : DecidablePred Agrees := fun _ => inferInstanceAs (Decidable (_ → _))

/-- The call takes it for granted that the chip is in SPI mode, and it is not. The first
operation of both functions reads `pqspi`, and the second one is the HAL call. -/
def AssumesSpi (d : Device) (e : QspiEvent) : Prop :=
  d.pqspi.isInitialized = .none ∧ d.mode = .qpi ∧ (e.answers 1).ok = true ∧
    (e.fn = .configFlash .spi ∨ e.fn = .enableMemoryMappedMode)

/-- The invariant: before the initialisation `pqspi` has its default mode. -/
structure ModeInv (d : Device) : Prop where
  idle : d.chip.busyBy = none
  default : d.pqspi.isInitialized = .none → d.pqspi.interfaceMode = .spi
  agrees : Agrees d

/-- A failed command does not reach the chip. -/
def FailsSilent (x : Answer) : Prop := x.reaches = false

/-- The function ends with `Q`, whatever the answers are. -/
abbrev EndsQspi {α : Type} (p : Qspi α) (Q : α → Device → Prop) (d : Device) : Prop :=
  p.Always Device.handleQspi FailsSilent Q d

section Rules
variable {α : Type} {Q : α → Device → Prop} {d d' : Device}

/-- A driver function does the same among the others. -/
theorem ends_qspi {p : Drv α} (h : Ends FailsSilent p Q d) : EndsQspi p.qspi Q d :=
  always_interp (f := fun o => Prog.call (QspiOp.hal o)) (fun _ _ _ ho x hx => ho x hx) h

/-- A chip that is idle stays idle in a quiet call. -/
theorem quiet_idle (h : Quiet d d') (hidle : d.chip.busyBy = none) : d'.chip.busyBy = none := by
  rcases h.chip with hc | hc
  · rw [hc, hidle]
  · rw [hc, Chip.done_idle]

/-- A quiet call keeps the invariant: it touches neither the driver's variable nor the mode of the
chip. -/
theorem ModeInv.quiet (h : ModeInv d) (hd : Quiet d d') : ModeInv d' := by
  constructor
  · exact quiet_idle hd h.idle
  · rw [hd.pqspi]
    exact h.default
  · rw [Agrees, hd.pqspi, hd.mode]
    exact h.agrees

end Rules

/-! ### The commands of the interface -/

section Interface
variable {d : Device} {x : Answer}

/-- The commands of the interface start no program or erase. -/
theorem accept_interface {c : QspiCommand}
    (hc : c.instruction ∈ [resetEnableCmd, enterQuadCmd, exitQuadCmd, resetMemoryCmd])
    (chip : Chip) (data : List UInt8) : chip.accept 0 c data = chip := by
  simp only [List.mem_cons, List.not_mem_nil, or_false] at hc
  rcases hc with hc | hc | hc | hc <;>
    simp [Chip.accept, hc, resetEnableCmd, enterQuadCmd, exitQuadCmd, resetMemoryCmd,
      writeEnableCmd, pageProgCmd, subsectorEraseCmd4K, subsectorEraseCmd32K,
      subsectorEraseCmd64K, chipEraseCmd]

/-- A command to the interface starts no work, and does not touch the variable. -/
theorem interface_idle (h : d.chip.busyBy = none) (i : UInt8) :
    (d.interface i).chip.busyBy = none ∧ (d.interface i).pqspi = d.pqspi := by
  unfold Device.interface
  split_ifs <;> exact ⟨h, rfl⟩

/-- The device after a command of the interface on the lines of `mode`. -/
def Device.told (d : Device) (mode : Interface) (i : UInt8) : Device :=
  if mode = d.mode then d.interface i else d

/-- Nor does one that is sent on the lines of either mode. -/
theorem told_idle (h : d.chip.busyBy = none) (mode : Interface) (i : UInt8) :
    (d.told mode i).chip.busyBy = none ∧ (d.told mode i).pqspi = d.pqspi := by
  unfold Device.told
  split
  · exact interface_idle h i
  · exact ⟨h, rfl⟩

/-- The four commands for the mode carry no address and no data, and an idle chip takes them. -/
theorem send_told {mode : Interface} {i : UInt8} (hidle : d.chip.busyBy = none)
    (hi : i ∈ [resetEnableCmd, enterQuadCmd, exitQuadCmd, resetMemoryCmd]) :
    d.send x { mode, instruction := i } [] = d.told mode i := by
  have hacc := accept_interface (c := { mode, instruction := i }) hi (d.interface i).chip []
  unfold Device.send Device.told
  by_cases hmode : mode = d.mode
  · rw [if_pos ⟨hmode, hidle⟩, if_pos hmode]
    dsimp only
    rw [hacc]
    exact if_pos (interface_idle hidle i).1
  · rw [if_neg fun h => hmode h.1, if_neg hmode]

/-- A command of the interface fails, or the chip is told. -/
theorem ends_simpleCommand {mode : Interface} {i : UInt8} (hidle : d.chip.busyBy = none)
    (hi : i ∈ [resetEnableCmd, enterQuadCmd, exitQuadCmd, resetMemoryCmd]) :
    Ends FailsSilent (simpleCommand mode i)
      (fun status d' => d' = if status = .ok then d.told mode i else d) d := by
  refine ends_command rfl fun x hx => ?_
  cases hxok : x.ok with
  | true => exact send_told hidle hi
  | false =>
    have hlost : x.reaches = false := hx
    rw [hlost]
    rfl

/-- The two commands of a reset leave the chip in SPI mode if they go out on its lines. -/
theorem told_reset (d : Device) (mode : Interface) :
    ((d.told mode resetEnableCmd).told mode resetMemoryCmd).mode =
      if mode = d.mode then .spi else d.mode := by
  by_cases hmode : mode = d.mode
  · have hfirst : d.told mode resetEnableCmd = { d with resetEnabled := true } := by
      rw [Device.told, if_pos hmode]
      rfl
    rw [hfirst, if_pos hmode, Device.told, if_pos hmode]
    rfl
  · have hfirst : d.told mode resetEnableCmd = d := if_neg hmode
    rw [hfirst, if_neg hmode, Device.told, if_neg hmode]

/-- The command to enter QPI mode reaches a chip in either mode: in SPI mode it changes it. -/
theorem told_enterQuad (d : Device) : (d.told .spi enterQuadCmd).mode = .qpi := by
  unfold Device.told
  cases hmode : d.mode with
  | spi => rfl
  | qpi => exact hmode

/-- The command to leave it changes it back. -/
theorem told_exitQuad (d : Device) : (d.told .qpi exitQuadCmd).mode = .spi := by
  unfold Device.told
  cases hmode : d.mode with
  | spi => exact hmode
  | qpi => rfl

end Interface

/-! ### The functions -/

section Functions
variable {d : Device}

/-- RESET ENABLE and RESET on the lines of `mode`. In the mode of the chip they reset it, which
takes it to SPI mode. In the other one it does not understand them. -/
theorem ends_resetPair {α : Type} {mode : Interface} {e : α} {k : Drv α}
    {Q : α → Device → Prop} (hidle : d.chip.busyBy = none)
    (hok : ∀ d', d'.chip.busyBy = none → d'.pqspi = d.pqspi →
      d'.mode = (if mode = d.mode then .spi else d.mode) → Ends FailsSilent k Q d')
    (hfail : ∀ d', d'.chip.busyBy = none → d'.pqspi = d.pqspi → Q e d') :
    Ends FailsSilent (do
      if (← resetEnable mode) ≠ .ok then pure e
      else if (← resetMemory mode) ≠ .ok then pure e
      else k) Q d := by
  have hfirst := told_idle hidle mode resetEnableCmd
  have hsecond := told_idle hfirst.1 mode resetMemoryCmd
  refine ends_guard (ends_simpleCommand hidle (by decide)) ?_ ?_
  · rintro d' rfl
    refine ends_guard (ends_simpleCommand hfirst.1 (by decide)) ?_ ?_
    · rintro d' rfl
      exact hok _ hsecond.1 (hsecond.2.trans hfirst.2) (told_reset d mode)
    · intro status d' hst hd
      rw [if_neg hst] at hd
      exact hd ▸ hfail _ hfirst.1 hfirst.2
  · intro status d' hst hd
    rw [if_neg hst] at hd
    exact hd ▸ hfail _ hidle rfl

/-- `QSPI_ResetMemory` finds the chip in one mode or the other, and leaves it in SPI mode. The pair
goes out on four lines and then on one, so one of the two is understood. What follows is the first
poll in SPI mode. -/
theorem ends_qspiResetMemory (hidle : d.chip.busyBy = none) :
    Ends FailsSilent qspiResetMemory
      (fun _ d' => d'.chip.busyBy = none ∧
        (d'.pqspi = d.pqspi ∨ (d'.pqspi = ⟨.indirect, .spi⟩ ∧ d'.mode = .spi))) d := by
  unfold qspiResetMemory
  refine ends_resetPair hidle ?_ fun d' hidle' hpqspi => ⟨hidle', .inl hpqspi⟩
  intro d₁ hidle₁ hpqspi₁ hmode₁
  -- whatever the mode was
  have hspi : d₁.mode = .spi := by
    rw [hmode₁]
    cases d.mode <;> rfl
  refine ends_guard (ends_checkBusy d₁) ?_ ?_
  · intro d₂ hpoll
    have hidle₂ := quiet_idle hpoll.1 hidle₁
    have hpqspi₂ := hpoll.1.pqspi.trans hpqspi₁
    refine ends_resetPair hidle₂ ?_
      fun d' hidle' hpqspi => ⟨hidle', .inl (hpqspi.trans hpqspi₂)⟩
    intro d₃ hidle₃ _ hmode₃
    rw [hpoll.1.mode, hspi, if_pos rfl] at hmode₃
    exact fun _ _ => ⟨hidle₃, .inr ⟨rfl, hmode₃⟩⟩
  · intro status d' _ hpoll
    exact ⟨quiet_idle hpoll.1 hidle₁, .inl (hpoll.1.pqspi.trans hpqspi₁)⟩

/-- A call that has reset the variable and the chip, or has left the variable alone, keeps the
invariant. -/
theorem ModeInv.of_reset (h : ModeInv d) {d' : Device} (hidle : d'.chip.busyBy = none)
    (hnone : d.pqspi.isInitialized = .none)
    (hreset : d'.pqspi = d.pqspi ∨ (d'.pqspi = ⟨.indirect, .spi⟩ ∧ d'.mode = .spi)) :
    ModeInv d' := by
  refine ⟨hidle, fun hn => ?_, fun hinit => ?_⟩
  · rcases hreset with hp | ⟨hp, -⟩
    · rw [hp]
      exact h.default hnone
    · rw [hp]
  · rcases hreset with hp | ⟨hp, hmode⟩
    · exact absurd (hp ▸ hnone) hinit
    · rw [hp, hmode]

/-- `BSP_QSPI_Init` Where the reset fails the driver stays uninitialised, with SPI mode noted; and
behind the reset the chip is in SPI mode. -/
theorem ends_bspQspiInit (h : ModeInv d) :
    Ends FailsSilent bspQspiInit (fun _ d' => ModeInv d') d := by
  intro x _
  show Prog.Always _ _ _ (if d.pqspi.isInitialized = .none then _ else _) d
  split
  · rename_i hnone
    intro y _
    show Prog.Always _ _ _ (if ¬ y.ok = true then _ else _) d
    split
    · exact h
    · refine always_seq (ends_qspiResetMemory h.idle) fun status d₁ h₁ => ?_
      have hinv := h.of_reset h₁.1 hnone h₁.2
      split
      · exact hinv
      · refine ends_guard (ends_checkBusy d₁) ?_ ?_
        · exact fun d₂ hpoll => hinv.quiet hpoll.1
        · exact fun _ d₂ _ hpoll => hinv.quiet hpoll.1
  · exact h

/-- The switch of `BSP_QSPI_ConfigFlash` sends no command if the driver is in the wanted mode.
Otherwise it sends the command that changes the mode. If that fails nothing has changed, and the
driver keeps the mode that it knows. -/
theorem ends_switchMode (hidle : d.chip.busyBy = none) (current mode : Interface) :
    Ends FailsSilent (switchMode current mode)
      (fun status d' => d'.chip.busyBy = none ∧ d'.pqspi = d.pqspi ∧
        (status ≠ .ok → d' = d) ∧
        (status = .ok → d'.mode = if current = mode then d.mode else mode)) d := by
  unfold switchMode
  -- nothing is sent in the mode wanted
  by_cases hsame : current = mode
  · rw [if_pos hsame]
    exact ⟨hidle, rfl, fun _ => rfl, fun _ => (if_pos hsame).symm⟩
  · rw [if_neg hsame]
    have hsent : ∀ (lines : Interface) (i : UInt8), (d.told lines i).mode = mode →
        ∀ (status : Status) (d' : Device), d' = (if status = .ok then d.told lines i else d) →
        d'.chip.busyBy = none ∧ d'.pqspi = d.pqspi ∧ (status ≠ .ok → d' = d) ∧
          (status = .ok → d'.mode = if current = mode then d.mode else mode) := by
      rintro lines i hmode status d' rfl
      by_cases hst : status = .ok
      · rw [if_pos hst, if_neg hsame]
        exact ⟨(told_idle hidle lines i).1, (told_idle hidle lines i).2,
          fun hne => absurd hst hne, fun _ => hmode⟩
      · rw [if_neg hst]
        exact ⟨hidle, rfl, fun _ => rfl, fun h => absurd h hst⟩
    -- each direction has its own command, sent on the lines of the mode that is left
    cases current with
    | spi =>
      obtain rfl : mode = .qpi := by
        cases mode with
        | spi => exact absurd rfl hsame
        | qpi => rfl
      exact always_mono (hsent .spi enterQuadCmd (told_enterQuad d))
        (ends_simpleCommand hidle (by decide))
    | qpi =>
      obtain rfl : mode = .spi := by
        cases mode with
        | spi => rfl
        | qpi => exact absurd rfl hsame
      exact always_mono (hsent .qpi exitQuadCmd (told_exitQuad d))
        (ends_simpleCommand hidle (by decide))

/-- `BSP_QSPI_ConfigFlash`, unless it takes the SPI mode for granted. A driver that is not
initialised assumes SPI mode and sends nothing for it, so the chip has to be in this mode. By the
two modes and the result of the switch. -/
theorem ends_bspQspiConfigFlash (h : ModeInv d) {mode : Interface}
    (hknown : d.pqspi.isInitialized = .none → mode = .spi → d.mode = .spi) :
    Ends FailsSilent (bspQspiConfigFlash mode) (fun _ d' => ModeInv d') d := by
  intro x _
  show Prog.Always _ _ _ (if d.pqspi.isInitialized = .mmp then _ else _) d
  split
  · exact h
  · intro y _
    show Prog.Always _ _ _ (if ¬ y.ok = true then _ else _) d
    split
    · exact h
    · intro _ _
      refine ends_guard (ends_switchMode h.idle d.pqspi.interfaceMode mode) ?_ ?_
      · rintro d' ⟨hidle, -, -, hmode⟩ _ _
        refine ⟨hidle, fun hn => (nomatch hn), fun _ => ?_⟩
        show mode = d'.mode
        rw [hmode rfl]
        split
        · -- no command was sent
          rename_i hsame
          by_cases hnone : d.pqspi.isInitialized = .none
          · rw [h.default hnone] at hsame
            rw [hknown hnone hsame.symm, hsame]
          · rw [← h.agrees hnone, hsame]
        · rfl
      · rintro status d' hst ⟨-, -, hfail, -⟩
        rw [hfail hst]
        exact h

/-- Reads of `pqspi`. -/
theorem endsQspi_isInitialized {α : Type} {f : Access → Qspi α} {Q : α → Device → Prop}
    (h : EndsQspi (f d.pqspi.isInitialized) Q d) : EndsQspi (isInitialized.qspi >>= f) Q d :=
  fun _ _ => h

/-- `BSP_QSPI_EnableMemoryMappedMode`, unless it takes the SPI mode for granted. -/
theorem ends_enableMemoryMapped (h : ModeInv d)
    (hknown : d.pqspi.isInitialized = .none → d.mode = .spi) :
    EndsQspi bspQspiEnableMemoryMappedMode (fun _ d' => ModeInv d') d := by
  intro _ _ x _
  show Prog.Always _ _ _ ((if x.ok = true then _ else _) >>= _) d
  split
  · intro _ _ _ _
    refine ⟨h.idle, fun hn => (nomatch hn), fun _ => ?_⟩
    show d.pqspi.interfaceMode = d.mode
    by_cases hnone : d.pqspi.isInitialized = .none
    · rw [h.default hnone, hknown hnone]
    · exact h.agrees hnone
  · exact h

/-- The read that the driver makes for its delay changes nothing. -/
theorem ends_dummyRead : Ends FailsSilent dummyRead (fun _ d' => Quiet d d') d := by
  refine always_seq (P := fun _ d' => Quiet d d') (ends_inMode ?_) fun _ _ hd => hd
  refine ends_read rfl (.inr rfl) (.inr rfl) ?_ ?_ ?_
  · exact fun _ d' _ hstill => hstill.quiet
  · exact fun _ d' hstill => hstill.quiet
  · exact fun _ => (Still.refl d).quiet

/-- `BSP_QSPI_DisableMemoryMappedMode` It changes the controller and the field for the access, not
the mode of the chip. -/
theorem ends_disableMemoryMapped (h : ModeInv d) :
    EndsQspi bspQspiDisableMemoryMappedMode (fun _ d' => ModeInv d') d := by
  refine endsQspi_isInitialized ?_
  split
  · exact h
  · rename_i hmmp
    have hinit : d.pqspi.isInitialized ≠ .none := by
      rw [not_not.mp hmmp]
      decide
    intro x _
    show Prog.Always _ _ _ (if ¬ x.ok = true then _ else _) d
    split
    · exact h
    · intro y _
      show Prog.Always _ _ _ (if ¬ y.ok = true then _ else _) d
      split
      · exact h
      · refine always_seq (ends_qspi ends_dummyRead) fun status d' hd => ?_
        split
        · exact h.quiet hd
        · intro _ _ _ _
          have h' := h.quiet hd
          refine ⟨h'.idle, fun hn => (nomatch hn), fun _ => ?_⟩
          show d'.pqspi.interfaceMode = d'.mode
          rw [hd.pqspi, hd.mode]
          exact h.agrees hinit

/-- `BSP_QSPI_DeInit` -/
theorem ends_bspQspiDeInit (h : ModeInv d) :
    EndsQspi bspQspiDeInit (fun _ d' => ModeInv d') d := by
  have hleave : EndsQspi leaveMemoryMapped (fun _ d' => ModeInv d') d := by
    refine endsQspi_isInitialized ?_
    split
    · refine always_seq (ends_disableMemoryMapped h) fun status d' h' => ?_
      split
      · exact h'
      · exact h'
    · exact h
  refine always_seq hleave fun ret d' h' => ?_
  split
  · intro _ _ y _
    have hdefault : ModeInv { d' with pqspi := ⟨.none, .spi⟩ } :=
      ⟨h'.idle, fun _ => rfl, fun hn => absurd rfl hn⟩
    show Prog.Always _ _ _ (if ¬ y.ok = true then _ else _) _
    split
    · exact hdefault
    · exact hdefault
  · exact h'

end Functions

/-! ### Runs -/

section Runs
variable {d : Device} {e : QspiEvent}

/-- Without the initialisation, the two functions set the access mode if their HAL call
succeeds, and send no command. -/
theorem assumes_step (hp : d.pqspi = ⟨.none, .spi⟩)
    (hfn : e.fn = .configFlash .spi ∨ e.fn = .enableMemoryMappedMode) :
    ∃ access, access ≠ .none ∧ qspiStep d e =
      if (e.answers 1).ok = true then { d with pqspi := ⟨access, .spi⟩ } else d := by
  obtain ⟨fn, answers⟩ := e
  obtain ⟨chip, busyMs, mode, resetEnabled, ccr, pqspi, programs⟩ := d
  obtain rfl : pqspi = ⟨.none, .spi⟩ := hp
  rcases hfn with rfl | rfl
  · refine ⟨.indirect, by decide, ?_⟩
    show (Prog.runWith _ (Prog.interp _ (if ¬ (answers 1).ok = true then _ else _)) _ _).2 = _
    by_cases hok : (answers 1).ok = true
    · simp only [hok, not_true_eq_false, if_true]
      rfl
    · simp only [hok]
      rfl
  · refine ⟨.mmp, by decide, ?_⟩
    show (Prog.runWith _ ((if (answers 1).ok = true then _ else _) >>= _) _ _).2 = _
    by_cases hok : (answers 1).ok = true
    · simp only [hok, if_true]
      rfl
    · simp only [hok]
      rfl

/-- Before the initialisation the variable is as the linker has set it. -/
theorem ModeInv.pqspi_eq (h : ModeInv d) (hnone : d.pqspi.isInitialized = .none) :
    d.pqspi = ⟨.none, .spi⟩ := by
  have hmode := h.default hnone
  cases hp : d.pqspi with
  | mk access mode =>
    rw [hp] at hnone hmode
    rw [← show access = .none from hnone, ← show mode = .spi from hmode]

/-- The chip in QPI mode is not noticed. -/
theorem not_agrees_of_assumes (h : ModeInv d) (he : AssumesSpi d e) : ¬ Agrees (qspiStep d e) := by
  obtain ⟨hnone, hqpi, hok, hfn⟩ := he
  obtain ⟨access, haccess, hstep⟩ := assumes_step (h.pqspi_eq hnone) hfn
  rw [hstep, if_pos hok]
  intro hagrees
  have hmode : Interface.spi = d.mode := hagrees haccess
  rw [hqpi] at hmode
  cases hmode

/-- A function that ends with the invariant under all answers keeps it in each run. -/
theorem qspiStep_of_ends (h : EndsQspi e.fn.body (fun _ d' => ModeInv d') d) :
    ModeInv (qspiStep d e) :=
  always_runWith h fun _ => rfl

/-- Every call keeps the invariant unless it takes the SPI mode for granted. By the call, with the
lemma on its program. Where a HAL call fails the driver keeps what it knew. -/
theorem modeInv_step (h : ModeInv d) (he : ¬ AssumesSpi d e) : ModeInv (qspiStep d e) := by
  by_cases hunknown : d.pqspi.isInitialized = .none ∧ d.mode = .qpi ∧
      (e.fn = .configFlash .spi ∨ e.fn = .enableMemoryMappedMode)
  · -- the HAL call fails
    obtain ⟨hnone, hqpi, hfn⟩ := hunknown
    obtain ⟨access, -, hstep⟩ := assumes_step (h.pqspi_eq hnone) hfn
    rw [hstep, if_neg fun hok => he ⟨hnone, hqpi, hok, hfn⟩]
    exact h
  · have hspi : d.pqspi.isInitialized = .none →
        (e.fn = .configFlash .spi ∨ e.fn = .enableMemoryMappedMode) → d.mode = .spi := by
      intro hnone hfn
      cases hmode : d.mode with
      | spi => rfl
      | qpi => exact absurd ⟨hnone, hmode, hfn⟩ hunknown
    apply qspiStep_of_ends
    cases hfn : e.fn with
    | init => exact ends_qspi (ends_bspQspiInit h)
    | deInit => exact ends_bspQspiDeInit h
    | configFlash mode =>
      refine ends_qspi (ends_bspQspiConfigFlash h fun hnone hmode => hspi hnone (.inl ?_))
      rw [hfn, hmode]
    | enableMemoryMappedMode =>
      exact ends_enableMemoryMapped h fun hnone => hspi hnone (.inr hfn)
    | disableMemoryMappedMode => exact ends_disableMemoryMapped h

end Runs

/-- From the start of the program, with the chip in any mode: the initialised driver always knows
the mode of the chip iff no call takes the SPI mode for granted while the chip is in QPI mode. The
calls may fail at any HAL call, and the chip may be in QPI mode when the program starts, as a reset
of the processor does not reach it. -/
theorem interface_mode_iff (mode : Interface) (resetEnabled wel : Bool) (mem : Nat → UInt8)
    (es : List QspiEvent) :
    Along qspiStep (fun d e => Agrees (qspiStep d e)) (.boot mode resetEnabled wel mem) es ↔
      Along qspiStep (fun d e => ¬ AssumesSpi d e) (.boot mode resetEnabled wel mem) es := by
  have hstart : ModeInv (.boot mode resetEnabled wel mem) :=
    ⟨rfl, fun _ => rfl, fun h => absurd rfl h⟩
  have hstep : ∀ d e, ModeInv d → Agrees (qspiStep d e) → ModeInv (qspiStep d e) :=
    fun d e h ha => modeInv_step h fun he => not_agrees_of_assumes h he ha
  have hiff : ∀ d e, ModeInv d → (Agrees (qspiStep d e) ↔ ¬ AssumesSpi d e) :=
    fun d e h => ⟨fun ha he => not_agrees_of_assumes h he ha, fun he => (modeInv_step h he).agrees⟩
  exact along_congr hstep hiff hstart es

/-- A chip that starts in QPI mode is configured for SPI, and so is one that
`BSP_QSPI_DeInit` has left in QPI mode. -/
theorem interface_mode_lost :
    ¬ Along qspiStep (fun d e => Agrees (qspiStep d e)) (.boot .qpi false false fun _ => 0xFF)
      [{ fn := .configFlash .spi }] ∧
    ¬ Along qspiStep (fun d e => Agrees (qspiStep d e)) (.boot .spi false false fun _ => 0xFF)
      [{ fn := .configFlash .qpi }, { fn := .deInit }, { fn := .configFlash .spi }] := by
  decide

end NucleoH743.Flash
