import Mathlib.Logic.Function.Iterate

/-!
# `Core.Uptime`: the uptime and its display

`SysWorkTime`, the function of `main.c` that counts it once a second, and the handler of
`httpd_cgi_ssi.c` that writes it in a page. The unsigned types of the fields wrap. A `char` has
eight bits and no sign, as the compiler for the controller has it.

The seconds, minutes and hours are a `uint8_t` each, and the days are a `uint16_t`. The function
carries from one field to the next when a field is at its last value, and tests the last value by a
comparison with the one before it. `TimeWork` has these types, so a field that got too large would
wrap as it does in the code.

`Time_Handler` takes the digits of `all_second` from the left, each from what is left of the number
after the digits before it. The first digit is not reduced modulo 10.
-/

set_option autoImplicit false

namespace NucleoH743.Core

/-- `TimeWorkTypeDef` -/
structure TimeWork where
  allSecond : UInt32
  day : UInt16
  hour : UInt8
  minute : UInt8
  second : UInt8
  deriving DecidableEq, Repr

/-- The zeroed structure. -/
def TimeWork.zero : TimeWork where
  allSecond := 0
  day := 0
  hour := 0
  minute := 0
  second := 0

/-- `update_time_work` -/
def updateTimeWork (sysWorkTime : TimeWork) : TimeWork :=
  let t := { sysWorkTime with allSecond := sysWorkTime.allSecond + 1 }
  if t.second > 58 then
    let t := { t with second := 0 }
    if t.minute > 58 then
      let t := { t with minute := 0 }
      if t.hour > 22 then { t with hour := 0, day := t.day + 1 }
      else { t with hour := t.hour + 1 }
    else { t with minute := t.minute + 1 }
  else { t with second := t.second + 1 }

/-- `SysWorkTime` after `n` calls. -/
def sysWorkTime (n : Nat) : TimeWork := updateTimeWork^[n] TimeWork.zero

/-- `Time_Handler`: the characters that it inserts. It returns their number. -/
def timeHandler (iIndex : Int) (sysWorkTime : TimeWork) : List UInt8 :=
  if iIndex = 0 then
    let timeVal := sysWorkTime.allSecond
    let digit1 := (timeVal / 1000).toUInt8
    let digit2 := ((timeVal - digit1.toUInt32 * 1000) / 100).toUInt8
    let digit3 := ((timeVal - (digit1.toUInt32 * 1000 + digit2.toUInt32 * 100)) / 10).toUInt8
    let digit4 :=
      (timeVal - (digit1.toUInt32 * 1000 + digit2.toUInt32 * 100 + digit3.toUInt32 * 10)).toUInt8
    [digit1 + 0x30, digit2 + 0x30, digit3 + 0x30, digit4 + 0x30]
  else []

end NucleoH743.Core
