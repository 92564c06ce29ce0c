import NucleoH743.CmdTrmnl.Registry
import NucleoH743.Lib.Run

/-!
# `Proofs.CmdTrmnl.Registry`: registering commands

A registration that is refused sets `max_num_cmd` to the size of the table. While the table is full
this changes nothing. A `NULL` that is refused while there is room makes slots that hold no command
part of the table, and the next loop over them follows a null pointer.

The refused call is meant to say that the table is full, and says so by the counter that all loops
use. So there are two kinds of tables: those whose slots in use all hold a command, on which both
readers do what they should (`readers_eq`), and those with an empty slot in use, which stay so for
ever, as no call ever lowers the counter.

- `slots_addTerminalCmd`, `addTerminalCmd_full`: what the calls do to the table.
- `registry_refines`: without such a `NULL` the table is the list of registered commands.
- `registrations_right_iff`: every call of a history is right iff none registers `NULL` while there
  is room.
-/

set_option autoImplicit false

namespace NucleoH743.CmdTrmnl.Registry

open EventRun (Along along_congr run)

variable {r : Registry}

/-! ### One call -/

/-- The table shows as many slots as are registered. -/
@[simp] theorem length_slots (r : Registry) : r.slots.length = r.maxNumCmd := by
  rw [slots, List.length_take, List.length_ofFn]
  exact Nat.min_eq_left r.le

/-- Slot `i` shows the command that is registered there. -/
theorem getElem_slots {i : Nat} (h : i < r.slots.length) :
    r.slots[i] = r.arrayCmd ⟨i, by rw [length_slots] at h; exact Nat.lt_of_lt_of_le h r.le⟩ := by
  simp [slots]

/-- A command that is accepted comes behind the others. The slot behind the last one in use is
filled, and the others are not touched. -/
theorem slots_addTerminalCmd (hroom : r.maxNumCmd < maxSizeNumCmd) (cmd : Cmd) :
    (r.addTerminalCmd (some cmd)).1 = false ∧
      (r.addTerminalCmd (some cmd)).2.slots = r.slots ++ [some cmd] := by
  unfold addTerminalCmd
  rw [dif_pos hroom]
  refine ⟨rfl, List.ext_getElem ?_ ?_⟩
  · rw [length_slots, List.length_append, length_slots, List.length_singleton]
  · intro i hi hi'
    rw [getElem_slots]
    rw [length_slots] at hi
    have hle : i < r.maxNumCmd + 1 := hi
    show Function.update r.arrayCmd ⟨r.maxNumCmd, hroom⟩ (some cmd) ⟨i, _⟩ = _
    by_cases hlast : i = r.maxNumCmd
    · subst hlast
      rw [Function.update_self, List.getElem_append_right (by rw [length_slots])]
      simp
    · -- the earlier slots stay as they are
      have hne : (⟨i, Nat.lt_of_lt_of_le hle hroom⟩ : Fin maxSizeNumCmd) ≠ ⟨r.maxNumCmd, hroom⟩ :=
        fun heq => hlast (congrArg Fin.val heq)
      have hlt : i < r.slots.length := by
        rw [length_slots]
        omega
      rw [Function.update_of_ne hne, List.getElem_append_left hlt, getElem_slots]

/-- A full table refuses every call, and does not change. -/
theorem addTerminalCmd_full (hfull : r.maxNumCmd = maxSizeNumCmd) (pCmp : Option Cmd) :
    r.addTerminalCmd pCmp = (true, r) := by
  unfold addTerminalCmd
  rw [dif_neg (by omega)]
  obtain ⟨arrayCmd, maxNumCmd, le⟩ := r
  cases hfull
  rfl

/-- A `NULL` that is refused while there is room changes the counter. -/
theorem addTerminalCmd_null (hroom : r.maxNumCmd < maxSizeNumCmd) :
    (r.addTerminalCmd none).1 = true ∧
      (r.addTerminalCmd none).2.maxNumCmd = maxSizeNumCmd := by
  unfold addTerminalCmd
  rw [dif_pos hroom]
  exact ⟨rfl, rfl⟩

/-! ### The readers -/

/-- Every slot in use holds a command. -/
def NonNull (r : Registry) : Prop := ∀ slot ∈ r.slots, slot ≠ none

/-- The slots are those of a list of commands. This is the shape that the table has as long as
nobody registers a null pointer. -/
theorem nonNull_iff (r : Registry) : NonNull r ↔ ∃ cmds : List Cmd, r.slots = cmds.map some := by
  unfold NonNull
  generalize r.slots = slots
  constructor
  · intro h
    induction slots with
    | nil => exact ⟨[], rfl⟩
    | cons slot slots ih =>
      obtain ⟨cmds, rfl⟩ := ih fun s hs => h s (List.mem_cons_of_mem _ hs)
      cases slot with
      | none => exact absurd rfl (h none List.mem_cons_self)
      | some cmd => exact ⟨cmd :: cmds, rfl⟩
  · rintro ⟨cmds, rfl⟩ slot hslot
    obtain ⟨cmd, -, rfl⟩ := List.mem_map.1 hslot
    exact Option.some_ne_none cmd

/-- On commands the loop of `scan_cmd` finds the first one with the name. By induction on the
slots. -/
theorem scanLoop_map (name : List UInt8) (cmds : List Cmd) (i : Nat) :
    scanLoop name (cmds.map some) i =
      some ((CmdTrmnl.scanCmd (cmds.map Cmd.toCmdText) name).map (· + i)) := by
  induction cmds generalizing i with
  | nil => rfl
  | cons cmd cmds ih =>
    rw [List.map_cons, scanLoop, CmdTrmnl.scanCmd, List.map_cons, List.findIdx?_cons]
    by_cases hname : name = CStr.textBytes cmd.cmdName
    · simp [hname]
    · have hstep : ∀ o : Option Nat, (o.map (· + 1)).map (· + i) = o.map (· + (i + 1)) := by
        intro o
        rw [Option.map_map]
        exact congrArg (fun f => o.map f) (funext fun n => by simp only [Function.comp]; omega)
      rw [if_neg hname, ih, if_neg (by simpa using hname), hstep]
      rfl

/-- The listing follows no null pointer iff every slot holds a command. -/
theorem printDescripCmdAll_map (cmds : List Cmd) :
    ((cmds.map some).mapM fun slot => slot.map fun cmd => printDescripCmd cmd.toCmdText) =
      some (cmds.map fun cmd => printDescripCmd cmd.toCmdText) := by
  induction cmds with
  | nil => rfl
  | cons cmd cmds ih =>
    rw [List.map_cons, List.mapM_cons, ih]
    rfl

/-- On commands neither reader follows a null pointer. -/
theorem readers_eq {cmds : List Cmd} (h : r.slots = cmds.map some) :
    (∀ name, r.scanCmd name = some (CmdTrmnl.scanCmd (cmds.map Cmd.toCmdText) name)) ∧
      r.printDescripCmdAll = some (cmds.map fun cmd => printDescripCmd cmd.toCmdText) := by
  constructor
  · intro name
    rw [scanCmd, h, scanLoop_map]
    simp
  · rw [printDescripCmdAll, h, printDescripCmdAll_map]

/-- A slot without a command stops the listing. The empty slot is reached, as the commands before it
are followed without harm. -/
theorem printDescripCmdAll_null (h : ¬ NonNull r) : r.printDescripCmdAll = none := by
  have hnull : none ∈ r.slots := by
    simpa [NonNull] using h
  rw [printDescripCmdAll]
  generalize r.slots = slots at hnull
  induction slots with
  | nil => cases hnull
  | cons slot slots ih =>
    rw [List.mapM_cons]
    cases slot with
    | none => rfl
    | some cmd =>
      have htail : none ∈ slots := by simpa using hnull
      rw [ih htail]
      rfl

/-! ### The list of commands -/

/-- The table and the list of registered commands. -/
def Refines (r : Registry) (table : CmdTable) : Prop := r.slots = table.cmds.map some

/-- At power-up both tables are empty. -/
theorem refines_init : Refines init { cmds := [], le := length_noCmds_le } := rfl

/-- A registration of a command does the same to both. By whether there is room: both append, or
both stay. -/
theorem registry_refines {table : CmdTable} (h : Refines r table) (cmd : Cmd) :
    (r.addTerminalCmd (some cmd)).1 = (CmdTrmnl.addTerminalCmd table cmd).2 ∧
      Refines (r.addTerminalCmd (some cmd)).2 (CmdTrmnl.addTerminalCmd table cmd).1 := by
  have hlen : r.maxNumCmd = table.cmds.length := by
    rw [← length_slots, h, List.length_map]
  unfold CmdTrmnl.addTerminalCmd
  by_cases hroom : table.cmds.length < maxSizeNumCmd
  · obtain ⟨hres, hslots⟩ := slots_addTerminalCmd (by rw [hlen]; exact hroom) cmd
    rw [dif_pos hroom]
    refine ⟨hres, ?_⟩
    show (r.addTerminalCmd (some cmd)).2.slots = (table.cmds ++ [cmd]).map some
    rw [hslots, h, List.map_append, List.map_singleton]
  · have hfull : r.maxNumCmd = maxSizeNumCmd := by
      have hle := r.le
      omega
    rw [dif_neg hroom, addTerminalCmd_full hfull]
    exact ⟨rfl, h⟩

/-! ### Histories -/

/-- What a call of `add_terminal_cmd` should do. -/
structure RegistersRight (r : Registry) (pCmp : Option Cmd) : Prop where
  accepted : (r.addTerminalCmd pCmp).1 = false →
    ∃ cmd, pCmp = some cmd ∧ (r.step pCmp).slots = r.slots ++ [some cmd]
  refused : (r.addTerminalCmd pCmp).1 = true → r.step pCmp = r
  nonNull : NonNull (r.step pCmp)
  scans : ∀ name, (r.step pCmp).scanCmd name ≠ none
  lists : (r.step pCmp).printDescripCmdAll ≠ none

/-- The call passes a command, or finds the table full. -/
def Registrable (r : Registry) (pCmp : Option Cmd) : Prop :=
  pCmp ≠ none ∨ r.maxNumCmd = maxSizeNumCmd

/-- What the readers need is that no slot is empty. -/
theorem registersRight_of_nonNull {pCmp : Option Cmd} (hnonNull : NonNull (r.step pCmp))
    (haccepted : (r.addTerminalCmd pCmp).1 = false →
      ∃ cmd, pCmp = some cmd ∧ (r.step pCmp).slots = r.slots ++ [some cmd])
    (hrefused : (r.addTerminalCmd pCmp).1 = true → r.step pCmp = r) : RegistersRight r pCmp := by
  obtain ⟨cmds, hcmds⟩ := (nonNull_iff _).1 hnonNull
  obtain ⟨hscan, hlist⟩ := readers_eq hcmds
  exact
    { accepted := haccepted
      refused := hrefused
      nonNull := hnonNull
      scans := fun name => by rw [hscan]; exact Option.some_ne_none _
      lists := by rw [hlist]; exact Option.some_ne_none _ }

/-- A call on a table without an empty slot is right iff it passes a command or finds the table
full. A full table changes in no call, a command is appended, and a `NULL` with room left brings an
empty slot into use. -/
theorem registersRight_iff (h : NonNull r) (pCmp : Option Cmd) :
    RegistersRight r pCmp ↔ Registrable r pCmp := by
  by_cases hfull : r.maxNumCmd = maxSizeNumCmd
  · have hcall := addTerminalCmd_full hfull pCmp
    have hstep : r.step pCmp = r := congrArg Prod.snd hcall
    have hnonNull : NonNull (r.step pCmp) := by
      rw [hstep]
      exact h
    refine iff_of_true (registersRight_of_nonNull hnonNull ?_ fun _ => hstep) (.inr hfull)
    intro hfalse
    rw [hcall] at hfalse
    cases hfalse
  · have hroom : r.maxNumCmd < maxSizeNumCmd := Nat.lt_of_le_of_ne r.le hfull
    cases pCmp with
    | some cmd =>
      obtain ⟨hres, hslots⟩ := slots_addTerminalCmd hroom cmd
      have hstep : (r.step (some cmd)).slots = r.slots ++ [some cmd] := hslots
      have hnonNull : NonNull (r.step (some cmd)) := by
        intro slot hslot
        rw [hstep, List.mem_append, List.mem_singleton] at hslot
        rcases hslot with hold | rfl
        · exact h slot hold
        · exact Option.some_ne_none cmd
      refine iff_of_true (registersRight_of_nonNull hnonNull (fun _ => ⟨cmd, rfl, hstep⟩) ?_)
        (.inl (Option.some_ne_none cmd))
      intro htrue
      rw [hres] at htrue
      cases htrue
    | none =>
      -- the refused call has changed the counter
      obtain ⟨hres, hmax⟩ := addTerminalCmd_null hroom
      refine iff_of_false ?_ ?_
      · intro hright
        have hsame := congrArg Registry.maxNumCmd (hright.refused hres)
        exact hfull (hsame.symm.trans hmax)
      · rintro (hne | hfull')
        · exact hne rfl
        · exact hfull hfull'

/-- For every sequence of calls from power-up: each call appends its command or leaves the table as
it is, and no reader of the table ever follows a null pointer, iff each call passes a command or
finds the table full. -/
theorem registrations_right_iff (calls : List (Option Cmd)) :
    Along step RegistersRight init calls ↔ Along step Registrable init calls := by
  have hinit : NonNull init := fun slot hslot => nomatch hslot
  have hstep : ∀ r pCmp, NonNull r → RegistersRight r pCmp → NonNull (step r pCmp) :=
    fun _ _ _ hright => hright.nonNull
  have hiff : ∀ r pCmp, NonNull r → (RegistersRight r pCmp ↔ Registrable r pCmp) :=
    fun _ pCmp h => registersRight_iff h pCmp
  exact along_congr hstep hiff hinit calls

/-- A `NULL` as the first registration: the table has twenty empty slots afterwards, and the listing
follows the first of them. -/
theorem registration_null :
    ¬ Along step RegistersRight init [none] ∧ (init.step none).maxNumCmd = 20 ∧
      (init.step none).printDescripCmdAll = none := by
  refine ⟨?_, rfl, rfl⟩
  rintro ⟨hright, -⟩
  have hsame := congrArg Registry.maxNumCmd (hright.refused rfl)
  cases hsame

end NucleoH743.CmdTrmnl.Registry
