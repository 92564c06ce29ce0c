import NucleoH743.CmdTrmnl.Handlers

/-!
# `CmdTrmnl.Registry`: the slots of the command table

`array_cmd` as the code has it: pointers, of which the first `max_num_cmd` are in use. The functions
that read the table are `none` where they follow a null pointer.

`CmdTrmnl.Process` has the table as a list of commands, without a slot that is null. That is what
the functions are meant for, and here is what they work on: `add_terminal_cmd` may be called with a
null pointer, and may be called when the table is full, and in both cases it sets the counter
`max_num_cmd` to the number of slots.

The loops over the table read the slots below the counter. A slot that was never written is a null
pointer, as the array is static.
-/

set_option autoImplicit false

namespace NucleoH743.CmdTrmnl

/-- `array_cmd` and `max_num_cmd`. -/
structure Registry where
  /-- `none` is `NULL` -/
  arrayCmd : Fin maxSizeNumCmd → Option Cmd
  maxNumCmd : Nat
  le : maxNumCmd ≤ maxSizeNumCmd

namespace Registry

/-- After power-up. -/
def init : Registry where
  arrayCmd := fun _ => none
  maxNumCmd := 0
  le := Nat.zero_le _

/-- `add_terminal_cmd(p_cmp)`: the result and the table. A refused call sets the counter, too. -/
def addTerminalCmd (r : Registry) (pCmp : Option Cmd) : Bool × Registry :=
  if h : r.maxNumCmd < maxSizeNumCmd then
    match pCmp with
    | some cmd =>
      (false, { arrayCmd := Function.update r.arrayCmd ⟨r.maxNumCmd, h⟩ (some cmd)
                maxNumCmd := r.maxNumCmd + 1
                le := h })
    | none => (true, { r with maxNumCmd := maxSizeNumCmd, le := Nat.le_refl _ })
  else (true, { r with maxNumCmd := maxSizeNumCmd, le := Nat.le_refl _ })

/-- The slots that the loops over the table visit. -/
def slots (r : Registry) : List (Option Cmd) := (List.ofFn r.arrayCmd).take r.maxNumCmd

/-- The loop of `scan_cmd` from slot `i` on. -/
def scanLoop (name : List UInt8) : List (Option Cmd) → Nat → Option (Option Nat)
  | [], _ => some none
  | none :: _, _ => none
  | some cmd :: rest, i =>
    if name = CStr.textBytes cmd.cmdName then some (some i) else scanLoop name rest (i + 1)

/-- `scan_cmd`, where `name` is the string in `data_prm_cmd`. -/
def scanCmd (r : Registry) (name : List UInt8) : Option (Option Nat) := scanLoop name r.slots 0

/-- `print_descrip_cmd_all` -/
def printDescripCmdAll (r : Registry) : Option (List Effect) :=
  r.slots.mapM fun slot => slot.map fun cmd => printDescripCmd cmd.toCmdText

/-- The table after one more call. -/
def step (r : Registry) (pCmp : Option Cmd) : Registry := (r.addTerminalCmd pCmp).2

end Registry

end NucleoH743.CmdTrmnl
