import Mathlib.Logic.Function.Basic
import NucleoH743.Flash.Task

/-!
# `Flash.Damp`: filling the damp buffer

`fill_damp` and `cmd_damp_hndlr` of `test_qspi_flash.c`. A call is the list of its stores. The
counter of the loops has 16 bits and wraps, and the limits are computed in an `int`, so a loop may
not end: it runs with fuel. What is printed is left out.

`srand` and `rand` of the C library are a parameter.

A store of `fill_damp` is an index and a byte. The index comes from the counter, and nothing
compares it with the size of the buffer, so the list of stores may leave the buffer; `applyStores`
says what a buffer holds afterwards.

The byte is random, stays what it is or counts down, by the mode of the call; the modes `INC` and
`DEC` have one expression in the code, `temp_fill--`.
-/

set_option autoImplicit false

namespace NucleoH743.Flash

open CmdTrmnl (IdMode)

/-- `srand` and `rand` -/
structure Random where
  State : Type
  srand : Nat → State
  rand : State → Nat × State

/-- A store in the buffer: the index and the byte. -/
abbrev Store := Nat × UInt8

/-- `for (damp_cnt = ..; damp_cnt < limit; damp_cnt++) pdamp[damp_cnt] = ..`, where `next` gives
the byte and changes what the byte comes from. -/
def fillLoop {σ : Type} (next : σ → UInt8 × σ) (limit : Nat) :
    (fuel : Nat) → (dampCnt : UInt16) → σ → Option (List Store)
  | 0, _, _ => none
  | fuel + 1, dampCnt, s =>
    if dampCnt.toNat < limit then
      (fillLoop next limit fuel (dampCnt + 1) (next s).2).map ((dampCnt.toNat, (next s).1) :: ·)
    else some []

/-- `(uint8_t)rand()` -/
def Random.next (r : Random) (s : r.State) : UInt8 × r.State :=
  ((r.rand s).1.toUInt8, (r.rand s).2)

/-- `temp_fill--` -/
def postDecrement (tempFill : UInt8) : UInt8 × UInt8 := (tempFill, tempFill - 1)

/-- `temp_fill` -/
def constant (tempFill : UInt8) : UInt8 × UInt8 := (tempFill, tempFill)

/-- `fill_damp` -/
def fillDamp (r : Random) (fuel : Nat) (modeFill : IdMode) (offsetDamp sizeDamp : UInt16)
    (codeFill : UInt8) : Option (List Store) :=
  match modeFill with
  | .rnd =>
    fillLoop r.next (sizeDamp.toNat + offsetDamp.toNat) fuel offsetDamp (r.srand codeFill.toNat)
  | .inc => fillLoop postDecrement sizeDamp.toNat fuel offsetDamp codeFill
  | .dec => fillLoop postDecrement sizeDamp.toNat fuel offsetDamp codeFill
  | _ => fillLoop constant sizeDamp.toNat fuel offsetDamp codeFill

/-- `W25Q128FV_SECTOR_SIZE` -/
def w25q128fvSectorSize : UInt16 := 0x1000

/-- The stores of `cmd_damp_hndlr`, which `parsing_cmd_box` calls for the box of a `damp`
command. -/
def cmdDampStores (r : Random) (fuel : Nat) (idMode : IdMode) (codeFill : UInt8) :
    Option (List Store) :=
  match parsingCmdBox (.damp idMode codeFill) with
  | some (.fillDamp modeFill) => fillDamp r fuel modeFill 0 w25q128fvSectorSize 0xFF
  | _ => some []

/-- A buffer after stores, oldest first. -/
def applyStores (buf : Nat → UInt8) (stores : List Store) : Nat → UInt8 :=
  stores.foldl (fun buf store => Function.update buf store.1 store.2) buf

end NucleoH743.Flash
