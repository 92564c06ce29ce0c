import NucleoH743.Flash.Damp
import NucleoH743.Proofs.Flash.CommandQueue

/-!
# `Proofs.Flash.Damp`: filling the damp buffer

The four loops of `fill_damp` are one loop with a different source of bytes and a different
limit. `fillLoop_eq` gives its stores, for every source, if the counter can reach the limit, and
`fillLoop_endless` says that it does not end otherwise.

Only the loop for random bytes adds the offset to its limit. The loop of `MODE_INC` counts down,
and `cmd_damp_hndlr` fills with 0xFF whatever the box asks for.

That a loop does not end is a fact about its counter: it has 16 bits, so it stays below any limit
from 65536 on. Such a limit is a sum of offset and size, which the loop for random bytes alone has.

The theorem has three parts with a condition of their own, as the code misses three things
independently: where the bytes go, whether the call returns, and which code it works with.

- `fillDamp_exact_iff`, `fillDamp_returns_iff`: which bytes a call stores, and when it returns.
- `damp_right_iff`: these two, and when the command leaves the pattern that was asked for.
-/

set_option autoImplicit false

namespace NucleoH743.Flash

open CmdTrmnl

/-! ### The loop -/

section Loop
variable {σ : Type} (next : σ → UInt8 × σ) {limit : Nat}

/-- Byte `i` of a source. -/
def draw (i : Nat) (s : σ) : UInt8 := (next ((fun s => (next s).2)^[i] s)).1

/-- A later draw comes from the state behind the first. -/
theorem draw_succ (i : Nat) (s : σ) : draw next (i + 1) s = draw next i (next s).2 := rfl

/-- With enough fuel the loop stores one byte after the other from the counter up to the limit. The
counter has 16 bits, and the limit is below their range, so it comes to the limit without a wrap. By
induction on the fuel. -/
theorem fillLoop_eq (hlimit : limit < 2 ^ 16) (fuel : Nat) (dampCnt : UInt16) (s : σ) :
    fillLoop next limit fuel dampCnt s =
      if limit - dampCnt.toNat < fuel then
        some ((List.range (limit - dampCnt.toNat)).map fun i =>
          (dampCnt.toNat + i, draw next i s))
      else none := by
  induction fuel generalizing dampCnt s with
  | zero => rfl
  | succ fuel ih =>
    unfold fillLoop
    by_cases hlt : dampCnt.toNat < limit
    · have hsucc : (dampCnt + 1).toNat = dampCnt.toNat + 1 := by
        rw [UInt16.toNat_add]
        exact Nat.mod_eq_of_lt (show dampCnt.toNat + 1 < 2 ^ 16 by omega)
      have hlen : limit - dampCnt.toNat = limit - (dampCnt + 1).toNat + 1 := by omega
      rw [if_pos hlt, ih, hlen]
      by_cases hfuel : limit - (dampCnt + 1).toNat < fuel
      · rw [if_pos hfuel, if_pos (Nat.succ_lt_succ hfuel), List.range_succ_eq_map, List.map_cons,
          List.map_map]
        -- the first byte, and those of the source behind it
        simp only [Option.map_some, Option.some.injEq, List.cons.injEq]
        refine ⟨rfl, List.map_congr_left fun i _ => ?_⟩
        show ((dampCnt + 1).toNat + i, _) = (dampCnt.toNat + (i + 1), _)
        rw [hsucc, Nat.add_right_comm, Nat.add_assoc]
        rfl
      · rw [if_neg hfuel, if_neg fun h => hfuel (Nat.lt_of_succ_lt_succ h)]
        rfl
    · rw [if_neg hlt, Nat.sub_eq_zero_of_le (Nat.not_lt.mp hlt), if_pos (Nat.succ_pos fuel)]
      rfl

/-- A counter of 16 bits never reaches a larger limit. -/
theorem fillLoop_endless (hlimit : 2 ^ 16 ≤ limit) (fuel : Nat) (dampCnt : UInt16) (s : σ) :
    fillLoop next limit fuel dampCnt s = none := by
  induction fuel generalizing dampCnt s with
  | zero => rfl
  | succ fuel ih =>
    have hlt : dampCnt.toNat < limit := lt_of_lt_of_le dampCnt.toNat_lt hlimit
    unfold fillLoop
    rw [if_pos hlt, ih]
    rfl

/-- The decrementing source gives the code, one less each time, modulo 256. -/
theorem draw_postDecrement (i : Nat) (tempFill : UInt8) :
    draw postDecrement i tempFill = tempFill - i.toUInt8 := by
  induction i generalizing tempFill with
  | zero => exact (UInt8.sub_zero tempFill).symm
  | succ i ih =>
    rw [draw_succ, ih]
    show tempFill - 1 - UInt8.ofNat i = tempFill - UInt8.ofNat (i + 1)
    rw [UInt8.ofNat_add]
    grind

/-- The constant source gives the code each time. -/
theorem draw_constant (i : Nat) (tempFill : UInt8) : draw constant i tempFill = tempFill := by
  induction i generalizing tempFill with
  | zero => rfl
  | succ i ih => exact ih tempFill

end Loop

/-! ### A call of `fill_damp` -/

section Call
variable (r : Random) (modeFill : IdMode) (offsetDamp sizeDamp : UInt16) (codeFill : UInt8)

/-- The limit of the loop: only one of the four adds the offset. -/
def fillLimit : Nat :=
  if modeFill = .rnd then sizeDamp.toNat + offsetDamp.toNat else sizeDamp.toNat

/-- The bytes that the loop stores. -/
def fillByte (i : Nat) : UInt8 :=
  match modeFill with
  | .rnd => draw r.next i (r.srand codeFill.toNat)
  | .inc | .dec => codeFill - i.toUInt8
  | _ => codeFill

/-- The loop that fills the damp stores one byte at each index up to its limit, if it gets so many
rounds. Below 2^16 its counter does not wrap. -/
theorem fillDamp_eq (hlimit : fillLimit modeFill offsetDamp sizeDamp < 2 ^ 16) (fuel : Nat) :
    fillDamp r fuel modeFill offsetDamp sizeDamp codeFill =
      if fillLimit modeFill offsetDamp sizeDamp - offsetDamp.toNat < fuel then
        some ((List.range (fillLimit modeFill offsetDamp sizeDamp - offsetDamp.toNat)).map fun i =>
          (offsetDamp.toNat + i, fillByte r modeFill codeFill i))
      else none := by
  cases modeFill with
  | rnd => exact fillLoop_eq r.next hlimit fuel offsetDamp _
  | inc | dec =>
    refine (fillLoop_eq postDecrement hlimit fuel offsetDamp codeFill).trans ?_
    simp only [draw_postDecrement]
    rfl
  | status | param | format | mount | write | read | view | compare | fill | erase =>
    refine (fillLoop_eq constant hlimit fuel offsetDamp codeFill).trans ?_
    simp only [draw_constant]
    rfl

/-- The call returns. -/
def FillReturns : Prop := ∃ fuel, fillDamp r fuel modeFill offsetDamp sizeDamp codeFill ≠ none

/-- The call returns, and stores at the bytes from the offset on, as many as the size says. -/
def StoresExactly : Prop :=
  ∃ fuel stores, fillDamp r fuel modeFill offsetDamp sizeDamp codeFill = some stores ∧
    ∀ i, i ∈ stores.map Prod.fst ↔
      offsetDamp.toNat ≤ i ∧ i < offsetDamp.toNat + sizeDamp.toNat

/-- A call ends unless its limit is beyond the counter, which only random bytes can have. For the
other modes the limit is a `uint16_t` itself. -/
theorem fillDamp_returns_iff :
    FillReturns r modeFill offsetDamp sizeDamp codeFill ↔
      modeFill ≠ .rnd ∨ offsetDamp.toNat + sizeDamp.toNat < 2 ^ 16 := by
  have hsize := sizeDamp.toNat_lt
  by_cases hlimit : fillLimit modeFill offsetDamp sizeDamp < 2 ^ 16
  · refine iff_of_true ⟨fillLimit modeFill offsetDamp sizeDamp + 1, ?_⟩ ?_
    · rw [fillDamp_eq r _ _ _ _ hlimit, if_pos (by omega)]
      exact Option.some_ne_none _
    · by_cases hrnd : modeFill = .rnd
      · rw [fillLimit, if_pos hrnd] at hlimit
        exact .inr (by omega)
      · exact .inl hrnd
  · have hrnd : modeFill = .rnd := by
      by_contra hne
      rw [fillLimit, if_neg hne] at hlimit
      exact hlimit hsize
    subst hrnd
    have hsum : ¬ offsetDamp.toNat + sizeDamp.toNat < 2 ^ 16 := by
      rw [fillLimit, if_pos rfl] at hlimit
      omega
    refine iff_of_false ?_ ?_
    · rintro ⟨fuel, hne⟩
      exact hne (fillLoop_endless r.next (Nat.not_lt.mp hlimit) fuel offsetDamp _)
    · rintro (hne | hlt)
      · exact hne rfl
      · exact hsum hlt

/-- A call in range stores at the right bytes if its limit counts from the offset, or there is
nothing to count. For random bytes the limit is offset and size together. For the others it is the
size alone, and the loop starts at the offset, so it stores too few or no bytes. -/
theorem fillDamp_exact_iff (hrange : offsetDamp.toNat + sizeDamp.toNat ≤ 4096) :
    StoresExactly r modeFill offsetDamp sizeDamp codeFill ↔
      modeFill = .rnd ∨ offsetDamp.toNat = 0 ∨ sizeDamp.toNat = 0 := by
  have hlimit : fillLimit modeFill offsetDamp sizeDamp < 2 ^ 16 := by
    unfold fillLimit
    split_ifs <;> omega
  have hindices : ∀ i, i ∈ ((List.range (fillLimit modeFill offsetDamp sizeDamp -
      offsetDamp.toNat)).map fun i =>
        (offsetDamp.toNat + i, fillByte r modeFill codeFill i)).map Prod.fst ↔
      offsetDamp.toNat ≤ i ∧ i < fillLimit modeFill offsetDamp sizeDamp := by
    intro i
    simp only [List.map_map, List.mem_map, List.mem_range, Function.comp]
    constructor
    · rintro ⟨k, hk, rfl⟩
      omega
    · rintro ⟨hle, hlt⟩
      exact ⟨i - offsetDamp.toNat, by omega, by omega⟩
  have hexact : StoresExactly r modeFill offsetDamp sizeDamp codeFill ↔
      ∀ i, (offsetDamp.toNat ≤ i ∧ i < fillLimit modeFill offsetDamp sizeDamp) ↔
        (offsetDamp.toNat ≤ i ∧ i < offsetDamp.toNat + sizeDamp.toNat) := by
    constructor
    · rintro ⟨fuel, stores, hstores, hall⟩ i
      rw [fillDamp_eq r _ _ _ _ hlimit] at hstores
      split_ifs at hstores with hfuel
      rw [← hall, ← Option.some.inj hstores, hindices]
    · intro hall
      refine ⟨fillLimit modeFill offsetDamp sizeDamp + 1, _, ?_,
        fun i => (hindices i).trans (hall i)⟩
      rw [fillDamp_eq r _ _ _ _ hlimit, if_pos (by omega)]
  rw [hexact, fillLimit]
  by_cases hrnd : modeFill = .rnd
  · rw [if_pos hrnd, Nat.add_comm]
    exact iff_of_true (fun _ => Iff.rfl) (.inl hrnd)
  · rw [if_neg hrnd]
    constructor
    · intro hall
      -- the last byte that should be stored
      have hlast := hall (offsetDamp.toNat + sizeDamp.toNat - 1)
      exact .inr (by omega)
    · rintro (heq | hzero)
      · exact absurd heq hrnd
      · intro i
        omega

end Call

/-! ### The command -/

/-- The texts of the modes that fill. -/
def fillModes : List (String × IdMode) :=
  [("fill", .fill), ("rnd", .rnd), ("inc", .inc), ("dec", .dec)]

/-- Byte `i` of the pattern of a mode from a code on. -/
def pattern (r : Random) (mode : IdMode) (code : UInt8) (i : Nat) : UInt8 :=
  match mode with
  | .rnd => draw r.next i (r.srand code.toNat)
  | .inc => code + i.toUInt8
  | .dec => code - i.toUInt8
  | _ => code

/-- The `damp` command with the parameters in `d` sends one box, and when the flash task has
executed it, the buffer follows the pattern of `mode` from the code of the command on. -/
def CommandFollows (c : Console) (r : Random) (d : Terminal) (mode : IdMode)
    (dampa : Nat → UInt8) : Prop :=
  ∃ idMode codeFill fuel stores,
    dampHandler.eval (d.read c) = [.sendCmdBox (.damp idMode codeFill)] ∧
    cmdDampStores r fuel idMode codeFill = some stores ∧
    ∀ i < w25q128fvSectorSize.toNat,
      applyStores dampa stores i = pattern r mode ((d.arPrm 1).raw 0) i

/-- A code that the constant in `cmd_damp_hndlr` does not change. No code does for the mode that
counts the wrong way. -/
def CodeKept (r : Random) (mode : IdMode) (code : UInt8) : Prop :=
  match mode with
  | .inc => False
  | .rnd => ∀ i < w25q128fvSectorSize.toNat, pattern r .rnd code i = pattern r .rnd 0xFF i
  | _ => code = 0xFF

/-- The buffer after the stores of a loop. By induction on their number. No two of them go to one
byte. -/
theorem applyStores_range (buf : Nat → UInt8) (v : Nat → UInt8) (offset n j : Nat) :
    applyStores buf ((List.range n).map fun i => (offset + i, v i)) j =
      if offset ≤ j ∧ j < offset + n then v (j - offset) else buf j := by
  induction n with
  | zero =>
    rw [if_neg (by omega)]
    rfl
  | succ n ih =>
    rw [List.range_succ, List.map_append, applyStores, List.foldl_append]
    show Function.update (applyStores buf _) (offset + n) (v n) j = _
    by_cases hlast : j = offset + n
    · subst hlast
      rw [Function.update_self, if_pos (by omega), Nat.add_sub_cancel_left]
    · rw [Function.update_of_ne hlast, ih]
      by_cases hin : offset ≤ j ∧ j < offset + n
      · rw [if_pos hin, if_pos (by omega)]
      · rw [if_neg hin, if_neg (by omega)]

section Command
variable {c : Console} {r : Random} {d : Terminal} {text : String} {mode : IdMode}

/-- The handler sends the mode of its text, with the code. -/
theorem dampHandler_eval (hmode : (text, mode) ∈ fillModes)
    (htext : unionStr (d.arPrm 0) = CStr.textBytes text) :
    dampHandler.eval (d.read c) = [.sendCmdBox (.damp mode ((d.arPrm 1).raw 0))] := by
  have heval : dampHandler.eval (d.read c) =
      (selectMode ((fillModes ++ [("view", IdMode.view)]).map fun m =>
        (m.1, [.sendCmdBox (.damp m.2 ((d.arPrm 1).raw 0))]))).eval (d.read c) := rfl
  have hlookup :
      lookupMode (fillModes ++ [("view", IdMode.view)]) (CStr.textBytes text) = some mode := by
    simp only [fillModes, List.mem_cons, Prod.mk.injEq, List.not_mem_nil, or_false] at hmode
    rcases hmode with ⟨rfl, rfl⟩ | ⟨rfl, rfl⟩ | ⟨rfl, rfl⟩ | ⟨rfl, rfl⟩ <;> decide
  rw [heval, selectMode_eval c d _ (by simp [fillModes]; decide), htext,
    lookupMode_map fun m => [Effect.sendCmdBox (.damp m ((d.arPrm 1).raw 0))], hlookup]
  rfl

/-- The stores of the command do not depend on its code. -/
theorem cmdDampStores_eq (hmode : (text, mode) ∈ fillModes) (codeFill : UInt8) (fuel : Nat) :
    cmdDampStores r fuel mode codeFill = fillDamp r fuel mode 0 w25q128fvSectorSize 0xFF := by
  simp only [fillModes, List.mem_cons, Prod.mk.injEq, List.not_mem_nil, or_false] at hmode
  rcases hmode with ⟨-, rfl⟩ | ⟨-, rfl⟩ | ⟨-, rfl⟩ | ⟨-, rfl⟩ <;> rfl

/-- What the command leaves in the buffer. The handler hands the code 0xFF to `fill_damp` where it
should hand on the one that was given. -/
theorem commandFollows_iff (hmode : (text, mode) ∈ fillModes)
    (htext : unionStr (d.arPrm 0) = CStr.textBytes text) (dampa : Nat → UInt8) :
    CommandFollows c r d mode dampa ↔
      ∀ i < w25q128fvSectorSize.toNat,
        fillByte r mode 0xFF i = pattern r mode ((d.arPrm 1).raw 0) i := by
  have hlimit : fillLimit mode 0 w25q128fvSectorSize = 4096 := by
    unfold fillLimit
    split_ifs <;> rfl
  have hstores : ∀ fuel stores, fillDamp r fuel mode 0 w25q128fvSectorSize 0xFF = some stores →
      ∀ i < w25q128fvSectorSize.toNat, applyStores dampa stores i = fillByte r mode 0xFF i := by
    intro fuel stores h i hi
    rw [fillDamp_eq r mode 0 _ _ (by rw [hlimit]; decide)] at h
    split_ifs at h with hfuel
    rw [← Option.some.inj h, hlimit]
    have hrange := applyStores_range dampa (fillByte r mode 0xFF) 0 4096 i
    rw [if_pos ⟨Nat.zero_le i, hi⟩] at hrange
    exact hrange
  constructor
  · rintro ⟨idMode, codeFill, fuel, stores, hsend, hcmd, hfollow⟩ i hi
    rw [dampHandler_eval hmode htext] at hsend
    obtain ⟨rfl, rfl⟩ : mode = idMode ∧ (d.arPrm 1).raw 0 = codeFill := by simpa using hsend
    rw [cmdDampStores_eq hmode] at hcmd
    rw [← hstores fuel stores hcmd i hi]
    exact hfollow i hi
  · intro hall
    have hsome := fillDamp_eq r mode 0 w25q128fvSectorSize 0xFF (by rw [hlimit]; decide) 4097
    rw [if_pos (by rw [hlimit]; decide)] at hsome
    refine ⟨mode, _, 4097, _, dampHandler_eval hmode htext,
      (cmdDampStores_eq hmode _ _).trans hsome, fun i hi => ?_⟩
    rw [hstores 4097 _ hsome i hi]
    exact hall i hi

/-- The pattern is that of the constant iff the constant does not change it. By the mode. The one
that should count upwards counts downwards, so no code makes it right. -/
theorem fillByte_eq_pattern_iff (hmode : (text, mode) ∈ fillModes) (code : UInt8) :
    (∀ i < w25q128fvSectorSize.toNat, fillByte r mode 0xFF i = pattern r mode code i) ↔
      CodeKept r mode code := by
  simp only [fillModes, List.mem_cons, Prod.mk.injEq, List.not_mem_nil, or_false] at hmode
  rcases hmode with ⟨-, rfl⟩ | ⟨-, rfl⟩ | ⟨-, rfl⟩ | ⟨-, rfl⟩
  · exact ⟨fun h => (h 0 (by decide)).symm, fun h i _ => h.symm⟩
  · exact ⟨fun h i hi => (h i hi).symm, fun h i hi => (h i hi).symm⟩
  · refine iff_of_false (fun h => ?_) id
    -- the first byte needs the code 0xFF, and then the second one is wrong
    have h0 : 0xFF - 0 = code + 0 := h 0 (by decide)
    have h1 : 0xFF - 1 = code + 1 := h 1 (by decide)
    rw [UInt8.add_zero] at h0
    rw [← h0] at h1
    exact absurd h1 (by decide)
  · constructor
    · intro h
      have h0 : 0xFF - 0 = code - 0 := h 0 (by decide)
      rw [UInt8.sub_zero code] at h0
      exact h0.symm
    · rintro rfl i -
      rfl

end Command

/-- For every console, every random generator and every `damp` command with a mode that fills: the
buffer follows the pattern from the code on iff the constant 0xFF does not change it. For every
mode, offset, size and code of a call of `fill_damp` in the range of the buffer: it stores at
exactly the bytes that the offset and the size name iff the bytes are random, the offset is zero or
there are none. For every such call at all: it returns iff the bytes are not random or offset and
size come to less than 2^16. -/
theorem damp_right_iff {c : Console} {d : Terminal} {text : String} {mode : IdMode}
    (hmode : (text, mode) ∈ fillModes) (htext : unionStr (d.arPrm 0) = CStr.textBytes text)
    (r : Random) (dampa : Nat → UInt8) (modeFill : IdMode) (offsetDamp sizeDamp : UInt16)
    (codeFill : UInt8) :
    (CommandFollows c r d mode dampa ↔ CodeKept r mode ((d.arPrm 1).raw 0)) ∧
    (offsetDamp.toNat + sizeDamp.toNat ≤ 4096 →
      (StoresExactly r modeFill offsetDamp sizeDamp codeFill ↔
        modeFill = .rnd ∨ offsetDamp.toNat = 0 ∨ sizeDamp.toNat = 0)) ∧
    (FillReturns r modeFill offsetDamp sizeDamp codeFill ↔
      modeFill ≠ .rnd ∨ offsetDamp.toNat + sizeDamp.toNat < 2 ^ 16) := by
  refine ⟨?_, fillDamp_exact_iff r _ _ _ _, fillDamp_returns_iff r _ _ _ _⟩
  rw [commandFollows_iff hmode htext]
  exact fillByte_eq_pattern_iff hmode _

/-! ### A command with a code -/

/-- A generator that multiplies its state of 64 bits. -/
def congruential : Random where
  State := UInt64
  srand := fun seed => seed.toUInt64
  rand := fun s =>
    let s := s * 6364136223846793005 + 1
    (((s >>> 32) &&& 0x7FFFFFFF).toNat, s)

/-- The terminal after the line `>damp fill 5`. -/
def afterDampFill : Terminal :=
  EventRun.run (terminalDataProcessing console) Terminal.init (CStr.textBytes ">damp fill 5\r")

/-- The mode of that line is the word that was typed. -/
theorem afterDampFill_text : unionStr (afterDampFill.arPrm 0) = CStr.textBytes "fill" := by decide

/-- The command `damp fill`, and a fill that decrements. -/
theorem damp_right_iff_fill :
    (CommandFollows console congruential afterDampFill .fill (fun _ => 0) ↔
      CodeKept congruential .fill ((afterDampFill.arPrm 1).raw 0)) ∧
    ((0 : UInt16).toNat + (16 : UInt16).toNat ≤ 4096 →
      (StoresExactly congruential .inc 0 16 5 ↔
        IdMode.inc = .rnd ∨ (0 : UInt16).toNat = 0 ∨ (16 : UInt16).toNat = 0)) ∧
    (FillReturns congruential .inc 0 16 5 ↔
      IdMode.inc ≠ .rnd ∨ (0 : UInt16).toNat + (16 : UInt16).toNat < 2 ^ 16) :=
  damp_right_iff (List.mem_cons_self : ("fill", IdMode.fill) ∈ fillModes) afterDampFill_text
    congruential _ .inc 0 16 5

/-- `>damp fill 5` leaves 0xFF in the buffer, a fill of 16 bytes from 16 on stores nothing, and a
random fill up to the end of 64 KiB does not end. -/
theorem damp_fill_wrong :
    ¬ CommandFollows console congruential afterDampFill .fill (fun _ => 0) ∧
    ¬ StoresExactly congruential .fill 16 16 5 ∧ ¬ FillReturns congruential .rnd 1 0xFFFF 5 := by
  have hmode : ("fill", IdMode.fill) ∈ fillModes := List.mem_cons_self
  refine ⟨?_, ?_, ?_⟩
  · rw [commandFollows_iff hmode afterDampFill_text, fillByte_eq_pattern_iff hmode]
    show ¬ (afterDampFill.arPrm 1).raw 0 = 0xFF
    decide
  · rw [fillDamp_exact_iff _ _ _ _ _ (by decide)]
    decide
  · rw [fillDamp_returns_iff]
    decide

end NucleoH743.Flash
