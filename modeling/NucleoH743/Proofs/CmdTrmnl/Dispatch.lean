import NucleoH743.CmdTrmnl.Process
import NucleoH743.Lib.Run

/-!
# `Proofs.CmdTrmnl.Dispatch`: handler calls per line

The state machine calls `command_processing` at seven places. `dispatch?` gives the terminal
with which it does so on a byte, and what follows the call; `quiet` is the step on a byte that
calls nothing. `terminalDataProcessing_eq` puts the step together from the two.

Six of the seven places leave the terminal in the search for a line, or at the start of the
line that a `>` opens. The seventh is the space after the name of a command without
parameters: the terminal stays in `PRC_CMD` with the same word loaded, and the next separator
calls the handler again. `Repeats` says that a step takes this branch.

The other modules on the terminal use this split: a property of the outputs is one of the
dispatches, and a property of what is loaded is one of the quiet steps. What follows a dispatch is
one of three things (`Follow`), which the state machine does whatever the handler has printed,
unless the handler has reset the microcontroller.

The invariant of a line is `AtMostOne`: as many calls as before the line, or one more and the
machine is no longer in a line. A step of the seventh kind breaks it, since the machine is still in
the line.

- `one_dispatch_per_line`: in a line whose steps do not take it, at most one handler is called.
- `space_dispatches_twice`: a line on which a handler is called twice.
-/

set_option autoImplicit false

namespace NucleoH743.CmdTrmnl

open EventRun

/-! ### The step in two parts -/

/-- What follows a call of `command_processing`. -/
inductive Follow where
  | findCmd | startCmd
  /-- nothing: the state machine stays where it is -/
  | stay
  deriving DecidableEq, Repr

/-- The rest of the step. -/
def Follow.apply : Follow → Terminal → Terminal
  | .findCmd => CmdTrmnl.findCmd
  | .startCmd => CmdTrmnl.startCmd
  | .stay => id

section Step
variable (c : Console) (t : Terminal) (ch : UInt8)

/-- The terminal with which the step on `ch` calls `command_processing`, and what follows. -/
def dispatch? : Option (Terminal × Follow) :=
  match t.fsmDatPrc with
  | .findCmd => none
  | .prcCmd =>
    let l := lookupCmd c t
    if ch = 0x3E then some (rejectUnknown l, .startCmd)
    else if isEol ch then some (rejectUnknown l, .findCmd)
    else if ch = 0x20 then
      if l.indexCmd ≠ none then
        if l.numCmdParam > 0 then none else some ({ l with statusCmdParam := .norm }, .stay)
      else some ({ l with statusCmdParam := .incorrectCmd }, .findCmd)
    else none
  | .findPrm =>
    if ch = 0x3E then some (t, .startCmd)
    else if isEol ch then some (t, .findCmd)
    else none
  | .prcPrm =>
    let p := procParametr c t.terminate
    if ch = 0x3E then some (p, .startCmd)
    else if isEol ch then some (p, .findCmd)
    else if ch = 0x20 then
      if p.indexParam.val < maxParam - 1 ∧ p.statusCmdParam = .norm then none
      else some (p, .findCmd)
    else none

/-- The step on a byte that dispatches nothing. -/
def quiet : Terminal :=
  match t.fsmDatPrc with
  | .findCmd => if ch = 0x3E then startCmd t else t
  | .prcCmd =>
    if ch = 0x20 then { lookupCmd c t with indexParam := 0, fsmDatPrc := .findPrm }
    else t.load ch
  | .findPrm =>
    if ch = 0x20 then t
    else { t with
      dataPrmCmd := Function.update t.dataPrmCmd 0 ch
      indexDat := 1
      fsmDatPrc := .prcPrm }
  | .prcPrm =>
    if ch = 0x20 then
      let p := procParametr c t.terminate
      { p with
        indexParam := if h : p.indexParam.val < maxParam - 1 then ⟨p.indexParam + 1, by omega⟩
          else p.indexParam
        fsmDatPrc := .findPrm }
    else t.load ch

/-- Each step either dispatches or is quiet. By the state of the machine and the class of the byte.
This is the only place where the cases of the `switch` are gone through; the proofs on lines use
what it says. -/
theorem terminalDataProcessing_eq :
    terminalDataProcessing c t ch =
      match dispatch? c t ch with
      | some (d, next) => commandProcessing c d next.apply
      | none => quiet c t ch := by
  have hsp : isEol 0x20 = false := rfl
  have hgt : isEol 0x3E = false := rfl
  -- one case for each state of the machine, and in it one for each character that the state looks
  -- at
  cases hf : t.fsmDatPrc with
  | findCmd => simp [terminalDataProcessing, dispatch?, quiet, hf]
  | prcCmd =>
    simp only [terminalDataProcessing, prcCmd, dispatch?, quiet, hf]
    by_cases h3 : ch = 0x3E
    · simp [h3, Follow.apply]
    by_cases he : isEol ch = true
    · simp [h3, he, Follow.apply]
    by_cases h2 : ch = 0x20
    · subst h2
      -- a space ends the name of the command; an unknown one, or one without parameters, is
      -- dispatched
      by_cases hi : (lookupCmd c t).indexCmd = none
      · simp [hi, hsp, Follow.apply]
      by_cases hn : (lookupCmd c t).numCmdParam > 0
      · simp [hi, hn, hsp]
      · simp [hi, hn, hsp, Follow.apply]
    · simp [h3, he, h2]
  | findPrm =>
    simp only [terminalDataProcessing, findPrm, dispatch?, quiet, hf]
    by_cases h3 : ch = 0x3E
    · simp [h3, hgt, Follow.apply]
    by_cases he : isEol ch = true
    · have h2 : ch ≠ 0x20 := by
        rintro rfl
        simp [hsp] at he
      simp [h3, he, h2, Follow.apply]
    · simp [h3, he]
  | prcPrm =>
    simp only [terminalDataProcessing, prcPrm, dispatch?, quiet, hf]
    by_cases h3 : ch = 0x3E
    · simp [h3, hgt, Follow.apply]
    by_cases he : isEol ch = true
    · have h2 : ch ≠ 0x20 := by
        rintro rfl
        simp [hsp] at he
      simp [h3, he, h2, Follow.apply]
    by_cases h2 : ch = 0x20
    · subst h2
      by_cases hp : (procParametr c t.terminate).indexParam.val < 4 ∧
          (procParametr c t.terminate).statusCmdParam = .norm
      · simp [hp, hsp]
      · simp [hp, hsp, Follow.apply]
    · simp [h3, he, h2]

end Step

/-! ### What a dispatch does -/

/-- The output of `command_processing`. -/
def commandOutput (c : Console) (d : Terminal) : Option Output :=
  match d.statusCmdParam with
  | .norm =>
    match d.indexCmd, d.cmd? c with
    | some i, some cmd => some (.call i (cmd.cmdHandlerCb.eval (d.read c)))
    | _, _ => none
  | .incorrectParam => some (.printf "Неккоректные данные  \r\n\r\n")
  | .overflow => some (.printf "Переполнение  \r\n\r\n")
  | .dataIsEmpty => some (.printf "Данные отсутствуют  \r\n\r\n")
  | .cmdNotLoaded => some (.printf "Команда не загружена  \r\n\r\n")
  | .incorrectCmd => some (.printf "Неккоректная команда  \r\n\r\n")

/-- The output ends in a reset. -/
def Output.Resets : Output → Prop
  | .call _ effects => .systemReset ∈ effects
  | .printf _ => False

instance : DecidablePred Output.Resets
  | .call _ effects => inferInstanceAs (Decidable (.systemReset ∈ effects))
  | .printf _ => inferInstanceAs (Decidable False)

/-- The terminal after the output `o`, with `next` to follow. -/
def afterOutput (d : Terminal) (next : Follow) : Option Output → Terminal
  | none => next.apply d
  | some o =>
    if o.Resets then { Terminal.init with output := d.output ++ [o] } else next.apply (d.emit o)

/-- `command_processing` emits its output. Then the caller goes on, unless the handler has reset the
microcontroller. By the status, and for `STAT_NORM` by whether there is a command. -/
theorem commandProcessing_eq (c : Console) (d : Terminal) (next : Follow) :
    commandProcessing c d next.apply = afterOutput d next (commandOutput c d) := by
  cases hs : d.statusCmdParam with
  | norm =>
    cases hi : d.indexCmd with
    | none => simp only [commandProcessing, commandOutput, hs, hi, afterOutput]
    | some i =>
      cases hc : d.cmd? c with
      | none => simp only [commandProcessing, commandOutput, hs, hi, hc, afterOutput]
      | some cmd =>
        simp only [commandProcessing, commandOutput, hs, hi, hc, afterOutput]
        rfl
  | incorrectParam | overflow | dataIsEmpty | cmdNotLoaded | incorrectCmd =>
    simp only [commandProcessing, commandOutput, hs]
    rfl

/-- What follows a dispatch prints nothing. -/
@[simp] theorem Follow.apply_output (next : Follow) (t : Terminal) :
    (next.apply t).output = t.output := by
  cases next <;> rfl

section Frames
variable (c : Console) (t : Terminal)

/-- The search for the command prints nothing. -/
@[simp] theorem lookupCmd_output : (lookupCmd c t).output = t.output := by
  dsimp only [lookupCmd]; split <;> rfl

/-- It stays in its state. -/
@[simp] theorem lookupCmd_fsmDatPrc : (lookupCmd c t).fsmDatPrc = t.fsmDatPrc := by
  dsimp only [lookupCmd]; split <;> rfl

/-- It leaves the index in the buffer alone. -/
@[simp] theorem lookupCmd_indexDat : (lookupCmd c t).indexDat = t.indexDat := by
  dsimp only [lookupCmd]; split <;> rfl

/-- It leaves the parameters alone. -/
@[simp] theorem lookupCmd_arPrm : (lookupCmd c t).arPrm = t.arPrm := by
  dsimp only [lookupCmd]; split <;> rfl

/-- It puts a NUL behind the word, and changes no other byte of the buffer. -/
@[simp] theorem lookupCmd_dataPrmCmd : (lookupCmd c t).dataPrmCmd = t.terminate.dataPrmCmd := by
  dsimp only [lookupCmd]; split <;> rfl

/-- The conversion of a parameter prints nothing. -/
@[simp] theorem procParametr_output : (procParametr c t).output = t.output := by
  unfold procParametr; split <;> rfl

/-- It leaves the index of the parameter alone. -/
@[simp] theorem procParametr_indexParam : (procParametr c t).indexParam = t.indexParam := by
  unfold procParametr; split <;> rfl

/-- It leaves the buffer alone. -/
@[simp] theorem procParametr_dataPrmCmd : (procParametr c t).dataPrmCmd = t.dataPrmCmd := by
  unfold procParametr; split <;> rfl

end Frames

/-- An unknown name is noted in the status, and reported by `command_processing` later. -/
@[simp] theorem rejectUnknown_output (t : Terminal) : (rejectUnknown t).output = t.output := by
  unfold rejectUnknown
  split_ifs <;> rfl

/-- A quiet step has no output. By the state of the machine. -/
@[simp] theorem quiet_output (c : Console) (t : Terminal) (ch : UInt8) :
    (quiet c t ch).output = t.output := by
  unfold quiet
  cases t.fsmDatPrc with
  | findCmd => dsimp only; split_ifs <;> rfl
  | prcCmd =>
    dsimp only
    split_ifs
    · exact lookupCmd_output c t
    · rfl
  | findPrm => dsimp only; split_ifs <;> rfl
  | prcPrm =>
    dsimp only
    split_ifs
    all_goals first
      | rfl
      | exact procParametr_output c t.terminate

/-- The terminal that dispatches has the output of the terminal before the step. -/
theorem dispatch?_output {c : Console} {t d : Terminal} {ch : UInt8} {next : Follow}
    (h : dispatch? c t ch = some (d, next)) : d.output = t.output := by
  unfold dispatch? at h
  cases hf : t.fsmDatPrc with
  | findCmd => simp [hf] at h
  | prcCmd =>
    simp only [hf] at h
    split_ifs at h <;> cases h <;> simp
  | findPrm =>
    simp only [hf] at h
    split_ifs at h <;> cases h <;> rfl
  | prcPrm =>
    simp only [hf] at h
    split_ifs at h <;> cases h <;> exact procParametr_output c t.terminate

/-! ### Handler calls -/

/-- The output is the call of a handler. -/
def Output.isCall : Output → Bool
  | .call _ _ => true
  | .printf _ => false

/-- How many handlers the terminal has called. -/
def handlerCalls (t : Terminal) : Nat := t.output.countP Output.isCall

/-- The step leaves the terminal in `PRC_CMD` after the call of a handler: the byte is the
space after the name of a command without parameters, and the handler returns. -/
def Repeats (c : Console) (t : Terminal) (ch : UInt8) : Prop :=
  t.fsmDatPrc = .prcCmd ∧ ch = 0x20 ∧
    ∃ cmd ∈ (lookupCmd c t).cmd? c, getNumCmdParam cmd = 0 ∧
      Effect.systemReset ∉ cmd.cmdHandlerCb.eval ((lookupCmd c t).read c)

instance (c : Console) (t : Terminal) (ch : UInt8) : Decidable (Repeats c t ch) := by
  unfold Repeats
  infer_instance

/-- The calls of handlers are read off the output. -/
theorem handlerCalls_congr {t u : Terminal} (h : t.output = u.output) :
    handlerCalls t = handlerCalls u := by
  unfold handlerCalls
  rw [h]

/-- An output is at most one call. -/
theorem countP_concat_le (out : List Output) (o : Output) :
    (out ++ [o]).countP Output.isCall ≤ out.countP Output.isCall + 1 := by
  rw [List.countP_append]
  have hone : [o].countP Output.isCall ≤ 1 := List.countP_le_length
  omega

/-- After a dispatch at most one more handler has been called. What follows an output does not
call. -/
theorem handlerCalls_afterOutput_le (d : Terminal) (next : Follow) (o : Option Output) :
    handlerCalls (afterOutput d next o) ≤ handlerCalls d + 1 := by
  cases o with
  | none =>
    have heq : handlerCalls (afterOutput d next none) = handlerCalls d :=
      handlerCalls_congr (next.apply_output d)
    omega
  | some o =>
    have hout : (afterOutput d next (some o)).output = d.output ++ [o] := by
      unfold afterOutput
      dsimp only
      split_ifs
      · rfl
      · exact next.apply_output (d.emit o)
    show (afterOutput d next (some o)).output.countP Output.isCall ≤ _
    rw [hout]
    exact countP_concat_le d.output o

/-- A dispatch after which the state machine stays is that of a command without parameters. One case
for each of the seven places. -/
theorem dispatch?_stay {c : Console} {t d : Terminal} {ch : UInt8}
    (h : dispatch? c t ch = some (d, .stay)) :
    t.fsmDatPrc = .prcCmd ∧ ch = 0x20 ∧ (lookupCmd c t).numCmdParam = 0 ∧
      d = { lookupCmd c t with statusCmdParam := .norm } := by
  unfold dispatch? at h
  cases hf : t.fsmDatPrc with
  | findCmd => simp [hf] at h
  | prcCmd =>
    simp only [hf] at h
    split_ifs at h with h3 he h2 hi hn
    all_goals cases h
    exact ⟨rfl, h2, by omega, rfl⟩
  | findPrm =>
    simp only [hf] at h
    split_ifs at h <;> cases h
  | prcPrm =>
    simp only [hf] at h
    split_ifs at h <;> cases h

/-- Only a `>` starts a line. -/
theorem dispatch?_startCmd {c : Console} {t d : Terminal} {ch : UInt8}
    (h : dispatch? c t ch = some (d, .startCmd)) : ch = 0x3E := by
  unfold dispatch? at h
  cases hf : t.fsmDatPrc with
  | findCmd => simp [hf] at h
  | prcCmd =>
    simp only [hf] at h
    split_ifs at h <;> first | assumption | cases h
  | findPrm =>
    simp only [hf] at h
    split_ifs at h <;> first | assumption | cases h
  | prcPrm =>
    simp only [hf] at h
    split_ifs at h <;> first | assumption | cases h

/-- A call in the output is that of the current command. By the status, since only `STAT_NORM`
calls. -/
theorem commandOutput_call {c : Console} {d : Terminal} {o : Output}
    (ho : commandOutput c d = some o) (hcall : o.isCall = true) :
    ∃ i cmd, d.indexCmd = some i ∧ d.cmd? c = some cmd ∧
      o = .call i (cmd.cmdHandlerCb.eval (d.read c)) := by
  unfold commandOutput at ho
  cases hs : d.statusCmdParam with
  | norm =>
    simp only [hs] at ho
    split at ho
    · rename_i i cmd hi hc
      cases ho
      exact ⟨i, cmd, hi, hc, rfl⟩
    · cases ho
  | incorrectParam | overflow | dataIsEmpty | cmdNotLoaded | incorrectCmd =>
    simp only [hs, Option.some.injEq] at ho
    subst ho
    cases hcall

/-- The number of parameters after the lookup of a command. -/
theorem lookupCmd_numCmdParam {c : Console} {t : Terminal} {cmd : Cmd}
    (h : (lookupCmd c t).cmd? c = some cmd) :
    (lookupCmd c t).numCmdParam = getNumCmdParam cmd := by
  dsimp only [lookupCmd] at h ⊢
  split at h
  · rename_i i hscan
    have hi : c.table.cmds[i]? = some cmd := h
    simp [hi]
  · cases h

/-- Where a handler is called and returns, and the state machine stays, the step repeats. -/
theorem repeats_of_stay {c : Console} {t d : Terminal} {ch : UInt8} {o : Output}
    (h : dispatch? c t ch = some (d, .stay)) (ho : commandOutput c d = some o)
    (hcall : o.isCall = true) (hreturn : ¬ o.Resets) : Repeats c t ch := by
  obtain ⟨hf, hch, hn, rfl⟩ := dispatch?_stay h
  obtain ⟨i, cmd, hi, hc, rfl⟩ := commandOutput_call ho hcall
  refine ⟨hf, hch, cmd, hc, ?_, hreturn⟩
  -- the number of parameters that the step has looked up is that of `cmd`
  rw [← hn, lookupCmd_numCmdParam hc]

/-- After `n` calls: at most `n` so far, or one more and the line is over. -/
def AtMostOne (n : Nat) (t : Terminal) : Prop :=
  handlerCalls t ≤ n ∨ handlerCalls t ≤ n + 1 ∧ t.fsmDatPrc = .findCmd

/-- A step inside a line keeps the bound unless it repeats. A quiet step calls nothing, and a
dispatch that calls ends the line unless it repeats. -/
theorem atMostOne_step {c : Console} {n : Nat} {t : Terminal} {ch : UInt8}
    (ht : AtMostOne n t) (hch : ch ≠ 0x3E) (hrep : ¬ Repeats c t ch) :
    AtMostOne n (terminalDataProcessing c t ch) := by
  rw [terminalDataProcessing_eq]
  cases hd : dispatch? c t ch with
  | none =>
    show AtMostOne n (quiet c t ch)
    have hcalls : handlerCalls (quiet c t ch) = handlerCalls t :=
      handlerCalls_congr (quiet_output c t ch)
    rcases ht with hle | ⟨hle, hf⟩
    · exact .inl (by omega)
    · -- between lines only a `>` changes the state
      have hstay : quiet c t ch = t := by simp [quiet, hf, hch]
      rw [hstay]
      exact .inr ⟨hle, hf⟩
  | some dn =>
    obtain ⟨d, next⟩ := dn
    show AtMostOne n (commandProcessing c d next.apply)
    have hcalls : handlerCalls d = handlerCalls t := handlerCalls_congr (dispatch?_output hd)
    have hle : handlerCalls d ≤ n := by
      rcases ht with hle | ⟨-, hf⟩
      · omega
      · simp [dispatch?, hf] at hd
    rw [commandProcessing_eq]
    have hone := handlerCalls_afterOutput_le d next (commandOutput c d)
    cases ho : commandOutput c d with
    | none =>
      left
      have heq : handlerCalls (afterOutput d next none) = handlerCalls d :=
        handlerCalls_congr (next.apply_output d)
      omega
    | some o =>
      rw [ho] at hone
      by_cases hreset : o.Resets
      · right
        refine ⟨by omega, ?_⟩
        simp [afterOutput, hreset, Terminal.init]
      · cases next with
        | findCmd =>
          right
          refine ⟨by omega, ?_⟩
          simp [afterOutput, hreset, Follow.apply, findCmd]
        | startCmd => exact absurd (dispatch?_startCmd hd) hch
        | stay =>
          left
          -- this call would repeat, so the output is a message
          have hmsg : o.isCall ≠ true := fun hcall => hrep (repeats_of_stay hd ho hcall hreset)
          have heq : handlerCalls (afterOutput d .stay (some o)) = handlerCalls d := by
            simp [afterOutput, hreset, Follow.apply, handlerCalls, Terminal.emit, hmsg]
          omega

/-- So does a line. -/
theorem atMostOne_run {c : Console} {n : Nat} {t : Terminal} {body : List UInt8}
    (ht : AtMostOne n t) (hbody : 0x3E ∉ body)
    (hrep : Along (terminalDataProcessing c) (fun t ch => ¬ Repeats c t ch) t body) :
    AtMostOne n (run (terminalDataProcessing c) t body) := by
  induction body generalizing t with
  | nil => exact ht
  | cons ch body ih =>
    have hch : ch ≠ 0x3E := fun h => hbody (h ▸ List.mem_cons_self)
    have hrest : 0x3E ∉ body := fun h => hbody (List.mem_cons_of_mem ch h)
    exact ih (atMostOne_step ht hch hrep.1) hrest hrep.2

/-- The `>` that closes the line adds at most the call for that line. The line that ends with it has
at most one call, and what is called for the `>` itself is the second. -/
theorem atMostOne_close {c : Console} {n : Nat} {t : Terminal} (ht : AtMostOne n t) :
    handlerCalls (terminalDataProcessing c t 0x3E) ≤ n + 1 := by
  rw [terminalDataProcessing_eq]
  cases hd : dispatch? c t 0x3E with
  | none =>
    show handlerCalls (quiet c t 0x3E) ≤ n + 1
    have hcalls : handlerCalls (quiet c t 0x3E) = handlerCalls t :=
      handlerCalls_congr (quiet_output c t 0x3E)
    rcases ht with hle | ⟨hle, -⟩ <;> omega
  | some dn =>
    obtain ⟨d, next⟩ := dn
    show handlerCalls (commandProcessing c d next.apply) ≤ n + 1
    have hcalls : handlerCalls d = handlerCalls t := handlerCalls_congr (dispatch?_output hd)
    have hone := handlerCalls_afterOutput_le d next (commandOutput c d)
    rw [commandProcessing_eq]
    rcases ht with hle | ⟨-, hf⟩
    · omega
    · simp [dispatch?, hf] at hd

/-! ### One line -/

/-- The terminal at the `>` that follows the bytes `history` since power-up. -/
def lineStart (c : Console) (history : List UInt8) : Terminal :=
  run (terminalDataProcessing c) Terminal.init (history ++ [0x3E])

/-- For every table and everything received before: from a `>` up to the next one, which may
still dispatch for the line, at most one handler is called, if no step of the line leaves the
state machine in `PRC_CMD` after a call. -/
theorem one_dispatch_per_line (c : Console) (history body close : List UInt8)
    (hbody : 0x3E ∉ body) (hclose : close = [] ∨ close = [0x3E])
    (hrep : Along (terminalDataProcessing c) (fun t ch => ¬ Repeats c t ch)
      (lineStart c history) body) :
    handlerCalls (run (terminalDataProcessing c) (lineStart c history) (body ++ close)) ≤
      handlerCalls (lineStart c history) + 1 := by
  have hstart : AtMostOne (handlerCalls (lineStart c history)) (lineStart c history) :=
    .inl (Nat.le_refl _)
  have hline := atMostOne_run hstart hbody hrep
  rw [run_append]
  rcases hclose with rfl | rfl
  · rcases hline with hle | ⟨hle, -⟩
    · exact Nat.le_succ_of_le hle
    · exact hle
  · exact atMostOne_close hline

/-! ### A command without parameters -/

/-- A command without parameters that prints a text. -/
def verCmd : Cmd where
  cmdName := "ver"
  cmdTypeParametr := ![.none, .none, .none, .none, .none]
  cmdDescrip := "firmware version"
  cmdInform := "firmware version"
  cmdHandlerCb := return [.printf "V1.0.0\r\n"]

/-- A terminal with this command alone. -/
def verConsole : Console where
  table := (addTerminalCmd { cmds := [], le := length_noCmds_le } verCmd).1
  sscanfLa := fun _ => none

/-- The line `ver` with bytes behind it: its handler is called once. -/
theorem one_dispatch_per_line_ver :
    handlerCalls (run (terminalDataProcessing verConsole) (lineStart verConsole [])
      (CStr.textBytes "ver\r x" ++ [0x3E])) ≤
        handlerCalls (lineStart verConsole []) + 1 :=
  one_dispatch_per_line verConsole [] _ _ (by decide) (.inr rfl) (by decide)

/-- The line `>ver` with a space before its end calls the handler twice. -/
theorem space_dispatches_twice :
    ¬ ∀ (c : Console) (history body close : List UInt8), 0x3E ∉ body →
      close = [] ∨ close = [0x3E] →
      handlerCalls (run (terminalDataProcessing c) (lineStart c history) (body ++ close)) ≤
        handlerCalls (lineStart c history) + 1 := by
  intro h
  have hline := h verConsole [] (CStr.textBytes "ver \r") [] (by decide) (.inl rfl)
  revert hline
  decide

end NucleoH743.CmdTrmnl
