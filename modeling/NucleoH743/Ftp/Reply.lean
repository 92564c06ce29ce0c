import Mathlib.Tactic.TypeStar
import NucleoH743.Ftp.Cmds

/-!
# `Ftp.Reply`: the buffer of `do_send_reply`

`Cmds.lean` keeps of a reply its text and the count that `send` gets. This is `do_send_reply` on
the memory that its static buffer `str` is part of: `vsnprintf` writes into the buffer, and `send`
reads from its address on, past its end if the count says so.

What a format and its arguments spell is the business of the C library, and a parameter here.

The question that this module puts is about memory, so it has the memory: a store past the buffer
would change the bytes behind it, and a read past it delivers them. The rest of the server needs
only the text and the count of a reply.
-/

set_option autoImplicit false

namespace NucleoH743.Ftp.Reply

/-- `sizeof(str)` -/
def strSize : Nat := 256

/-- The memory from the address of `str` on. -/
abbrev Mem : Type := Nat → UInt8

/-- `vsnprintf(str, size, fmt, p_args)` for the text that the format spells: `size - 1` of its
characters are stored, with a NUL behind them. The result is the length of the whole text, and
negative when that is no `int`. -/
def vsnprintf (mem : Mem) (size : Nat) (text : List UInt8) : Mem × Int :=
  let stored := text.take (size - 1)
  (fun i => if i < stored.length then stored.getD i 0
    else if i = stored.length then 0 else mem i,
    if text.length < 2 ^ 31 then text.length else -1)

/-- A call `send(sock, str, r, 0)`, with the `r` bytes that it reads. -/
structure Send where
  sock : Int
  bytes : List UInt8
  deriving DecidableEq, Repr

/-- `do_send_reply(sock, fmt, ...)`: the memory behind it, and its calls of `send`. -/
def doSendReply {Fmt Args : Type*} (format : Fmt → Args → List UInt8) (mem : Mem) (sock : Int)
    (fmt : Fmt) (args : Args) : Mem × List Send :=
  let (str, r) := vsnprintf mem strSize (format fmt args)
  (str, if 0 < r then [{ sock, bytes := (List.range r.toNat).map str }] else [])

end NucleoH743.Ftp.Reply
