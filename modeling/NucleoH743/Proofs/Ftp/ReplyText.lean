import NucleoH743.Ftp.Reply

/-!
# `Proofs.Ftp.ReplyText`: what a reply hands to `send`

`vsnprintf` returns the length of the text, not of what it has stored. `do_send_reply` takes it for
the number of bytes to send, so a text of 256 bytes is sent with its NUL for the last character,
and a longer one with bytes that lie behind the buffer.

The buffer of `do_send_reply` has 256 bytes, and `vsnprintf` stores at most 255 characters and a
NUL. Three cases come from this. A text that is shorter than the buffer is sent as it is. A text of
256 bytes or more has been cut, but its count has not, so that `send` reads the NUL and what lies
behind the buffer. An empty text is not sent at all.

What lies behind the buffer is a parameter of the model, the memory before the reply. So `SendsText`
asks for the right bytes, and also for a count that stays inside what `vsnprintf` has written.

- `doSendReply_effect`: the effect that a reply has in `Cmds.lean` is its call of `send` here.
- `sends_text_iff`: a reply sends its text, or the first 255 bytes of it, iff the text is shorter
  than the buffer.
-/

set_option autoImplicit false

namespace NucleoH743.Ftp.Reply

open CStr (textBytes)

variable {Fmt Args : Type*} (format : Fmt → Args → List UInt8) (mem : Mem)

/-- The calls send the text, cut to 255 bytes, and read nothing behind what was written. -/
structure SendsText (text : List UInt8) (sock : Int) (sends : List Send) : Prop where
  bytes : (sends.map Send.bytes).flatten = if text.length < strSize then text else text.take 255
  sock : ∀ s ∈ sends, s.sock = sock
  written : ∀ s ∈ sends, s.bytes.length ≤ (text.take 255).length + 1

/-- The characters in the buffer. -/
theorem vsnprintf_stored {text : List UInt8} {size n : Nat}
    (hn : n ≤ (text.take (size - 1)).length) :
    (List.range n).map (vsnprintf mem size text).1 = (text.take (size - 1)).take n := by
  -- character by character
  refine List.ext_getElem (by simpa using hn) fun i hi hi' => ?_
  have hlt : i < (text.take (size - 1)).length := by
    rw [List.length_map, List.length_range] at hi
    omega
  rw [List.getElem_map, List.getElem_range, List.getElem_take]
  show (if i < (text.take (size - 1)).length then (text.take (size - 1)).getD i 0 else _) = _
  rw [if_pos hlt, List.getD_eq_getElem?_getD, List.getElem?_eq_getElem hlt]
  rfl

/-- The call of `send` for a text that is not empty. -/
theorem doSendReply_sends {text : List UInt8} {fmt : Fmt} {args : Args}
    (htext : format fmt args = text) (h0 : text ≠ []) (hint : text.length < 2 ^ 31) (sock : Int) :
    (doSendReply format mem sock fmt args).2 =
      [{ sock, bytes := (List.range text.length).map (vsnprintf mem strSize text).1 }] := by
  have hpos : 0 < text.length := List.length_pos_iff.2 h0
  have hr : (vsnprintf mem strSize text).2 = text.length := if_pos hint
  dsimp only [doSendReply]
  rw [htext, hr, if_pos (by omega), Int.toNat_natCast]

/-- The empty text has the length 0. -/
theorem vsnprintf_nil (size : Nat) : (vsnprintf mem size []).2 = 0 := rfl

/-- Without a positive count nothing is sent. -/
theorem doSendReply_quiet {text : List UInt8} {fmt : Fmt} {args : Args}
    (htext : format fmt args = text) (hr : (vsnprintf mem strSize text).2 ≤ 0) (sock : Int) :
    (doSendReply format mem sock fmt args).2 = [] := by
  dsimp only [doSendReply]
  rw [htext]
  exact if_neg (by omega)

/-- The effect of a reply is its call of `send`: the characters that the buffer holds, and the
count. -/
theorem doSendReply_effect {text : List UInt8} {fmt : Fmt} {args : Args}
    (htext : format fmt args = text) (hint : text.length < 2 ^ 31) (q : Req) (sock : Int) :
    (Ftp.doSendReply q sock text).out =
      q.out ++ (doSendReply format mem sock fmt args).2.map fun s =>
        .send s.sock (s.bytes.take 255) s.bytes.length := by
  by_cases h0 : text = []
  · subst h0
    rw [doSendReply_quiet format mem htext (vsnprintf_nil mem strSize).le, Ftp.doSendReply,
      if_pos rfl]
    exact (List.append_nil _).symm
  -- 255 characters of the text are in the buffer, or all of them
  · have hbytes : ((List.range text.length).map (vsnprintf mem strSize text).1).take 255 =
        text.take 255 := by
      have hmin : min 255 text.length ≤ (text.take (strSize - 1)).length := by
        rw [List.length_take, strSize]
      rw [← List.map_take, List.take_range, vsnprintf_stored mem hmin, strSize,
        ← List.length_take, List.take_length]
    rw [doSendReply_sends format mem htext h0 hint, Ftp.doSendReply, if_neg h0]
    simp [Req.emit, hbytes]

/-- A reply sends its text, or the first 255 bytes of it, iff the text is shorter than the buffer.
The text is any one that a format and its arguments spell. The count of a longer one is past the
buffer, and `send` reads as much. -/
theorem sends_text_iff (sock : Int) (fmt : Fmt) (args : Args) :
    SendsText (format fmt args) sock (doSendReply format mem sock fmt args).2 ↔
      (format fmt args).length < strSize := by
  generalize htext : format fmt args = text
  constructor
  · intro h
    by_contra hlong
    have hbytes := congrArg List.length h.bytes
    rw [if_neg hlong, List.length_take] at hbytes
    have hlen : 256 ≤ text.length := Nat.not_lt.1 hlong
    have h0 : text ≠ [] := by
      rintro rfl
      exact absurd hlen (by decide)
    by_cases hint : text.length < 2 ^ 31
    · -- as many bytes are sent as the text has
      rw [doSendReply_sends format mem htext h0 hint] at hbytes
      simp only [List.map_cons, List.map_nil, List.flatten_cons, List.flatten_nil, List.append_nil,
        List.length_map, List.length_range] at hbytes
      omega
    · -- the length is no `int`, and nothing is sent
      have hr : (vsnprintf mem strSize text).2 = -1 := if_neg hint
      rw [doSendReply_quiet format mem htext (by omega)] at hbytes
      simp only [List.map_nil, List.flatten_nil, List.length_nil] at hbytes
      omega
  · intro hshort
    -- a text that fits is in the buffer, and its NUL behind it
    have hfits : text.length ≤ (text.take (strSize - 1)).length := by
      rw [List.length_take]
      omega
    have hall : text.take (strSize - 1) = text := List.take_of_length_le (by omega)
    by_cases h0 : text = []
    · subst h0
      rw [doSendReply_quiet format mem htext (vsnprintf_nil mem strSize).le]
      exact ⟨rfl, by simp, by simp⟩
    · have hint : text.length < 2 ^ 31 := Nat.lt_trans hshort (by decide)
      rw [doSendReply_sends format mem htext h0 hint, vsnprintf_stored mem hfits, hall,
        List.take_length]
      refine ⟨?_, by simp, ?_⟩
      · rw [if_pos hshort]
        simp
      · have hcut : text.take 255 = text := hall
        simp [hcut]

/-- A text of 300 letters is sent with 44 bytes from behind the buffer. -/
theorem sends_past_buffer :
    ¬ ∀ (format : List UInt8 → Unit → List UInt8) (mem : Mem) (sock : Int) (fmt : List UInt8),
      SendsText (format fmt ()) sock (doSendReply format mem sock fmt ()).2 := by
  intro h
  have hsends := h (fun fmt _ => fmt) (fun _ => 255) 4 (List.replicate 300 97)
  exact absurd (congrArg List.length hsends.bytes) (by decide +kernel)

end NucleoH743.Ftp.Reply
