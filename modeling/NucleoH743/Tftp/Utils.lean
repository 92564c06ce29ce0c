import Mathlib.Tactic.Common
import NucleoH743.Lib.CStr

/-!
# `Tftp.Utils`: TFTP messages

The decoding and construction of TFTP messages (`tftputils.c`, and the packet builders of
`tftpserver.c`). A received message is a `Pbuf`: the handlers index its payload without
looking at its length, so the model keeps the memory that follows the payload as well.

A session counts its blocks past 65535, and the senders cast the number to 16 bits. A number that
comes in a packet has 16 bits, so the comparisons of the code are between a counter and what may be
its low half.

- `tftpExtractBlock_dataPacket`, `tftpDecodeOp_dataPacket`: a DATA packet decodes to its
  opcode and block number.
- `tftpIsCorrectAck_iff`: what the acknowledgement test compares.
-/

set_option autoImplicit false

namespace NucleoH743.Tftp

open CStr (textBytes)

/-- `TFTP_DATA_LEN_MAX` -/
def tftpDataLenMax : Nat := 512

/-- `TFTP_DATA_PKT_HDR_LEN`, the opcode and the block number -/
def tftpDataPktHdrLen : Nat := 4

/-- `TFTP_DATA_PKT_LEN_MAX` -/
def tftpDataPktLenMax : Nat := tftpDataPktHdrLen + tftpDataLenMax

/-- The values of a `tftp_opcode`, which is read from one byte. -/
inductive TftpOpcode where
  | rrq | wrq | data | ack | error
  /-- a byte that is none of the five opcodes -/
  | other (b : UInt8)
  deriving DecidableEq, Repr

/-- The conversion of a byte to `tftp_opcode`. -/
def TftpOpcode.ofByte (b : UInt8) : TftpOpcode :=
  if b = 1 then .rrq
  else if b = 2 then .wrq
  else if b = 3 then .data
  else if b = 4 then .ack
  else if b = 5 then .error
  else .other b

/-- The conversion of an opcode to `u8_t`. -/
def TftpOpcode.toByte : TftpOpcode → UInt8
  | .rrq => 1
  | .wrq => 2
  | .data => 3
  | .ack => 4
  | .error => 5
  | .other b => b

/-- The error codes the server sends (`tftp_errorcode`). -/
inductive TftpErrorcode where
  | notDefined | fileNotFound | accessViolation
  deriving DecidableEq, Repr

/-- The error code on the wire. -/
def TftpErrorcode.toByte : TftpErrorcode → UInt8
  | .notDefined => 0
  | .fileNotFound => 1
  | .accessViolation => 2

/-- `tftp_errorcode_string` -/
def tftpErrorcodeString : TftpErrorcode → String
  | .notDefined => "not defined"
  | .fileNotFound => "file not found"
  | .accessViolation => "access violation"

/-! ### Received messages -/

/-- A received `pbuf`. `payload` are its own `len` bytes and `beyond` is the memory behind
them, up to its first NUL. `totLen` counts the bytes of the whole chain. -/
structure Pbuf where
  payload : List UInt8
  totLen : Nat
  beyond : List UInt8 := []
  deriving DecidableEq, Repr

namespace Pbuf

/-- `p->len` -/
def len (p : Pbuf) : Nat := p.payload.length

/-- `p->payload[i]`, without a length check. -/
def byte (p : Pbuf) (i : Nat) : UInt8 := (p.payload ++ p.beyond).getD i 0

/-- A pbuf that is not chained. -/
def single (payload : List UInt8) : Pbuf := { payload, totLen := payload.length }

end Pbuf

/-- `tftp_decode_op` -/
def tftpDecodeOp (p : Pbuf) : TftpOpcode := .ofByte (p.byte 1)

/-- `tftp_extract_block`: `ntohs` of the second half-word. -/
def tftpExtractBlock (p : Pbuf) : Nat := (p.byte 2).toNat * 256 + (p.byte 3).toNat

/-- `tftp_extract_filename`: the bytes `strcpy` copies from `buf + 2`. The copy has no bound;
the 30 bytes of its target are not part of the model. -/
def tftpExtractFilename (p : Pbuf) : List UInt8 :=
  CStr.ofBytes ((p.payload ++ p.beyond).drop 2)

/-- `tftp_is_correct_ack`: the opcode is ACK and the block number is `block`. -/
def tftpIsCorrectAck (p : Pbuf) (block : Nat) : Bool :=
  if tftpDecodeOp p ≠ .ack then false
  else if block ≠ tftpExtractBlock p then false
  else true

/-! ### Sent messages -/

/-- `tftp_set_opcode` and `tftp_set_block`: the four header bytes. `block` is converted to
`unsigned short` by the callers. -/
def tftpHeader (op : TftpOpcode) (block : Nat) : List UInt8 :=
  [0, op.toByte, (block % 65536 / 256).toUInt8, (block % 256).toUInt8]

/-- The packet that `tftp_send_data_packet` builds. -/
def tftpDataPacket (block : Nat) (buf : List UInt8) : List UInt8 :=
  tftpHeader .data block ++ buf

/-- The packet that `tftp_send_ack_packet` builds. -/
def tftpAckPacket (block : Nat) : List UInt8 := tftpHeader .ack block

/-- The packet that `tftp_construct_error_message` builds, with the NUL of the text. -/
def tftpErrorPacket (err : TftpErrorcode) : List UInt8 :=
  [0, TftpOpcode.error.toByte, 0, err.toByte] ++ textBytes (tftpErrorcodeString err) ++ [0]

/-! ### Decoding what was built -/

/-- The opcode of a data packet is read as it was written. -/
@[simp] theorem TftpOpcode.ofByte_toByte_data : ofByte (toByte .data) = .data := rfl

/-- So is that of an acknowledgement. -/
@[simp] theorem TftpOpcode.ofByte_toByte_ack : ofByte (toByte .ack) = .ack := rfl

/-- The bytes of a 16-bit number give the number back. -/
theorem toNat_hi_lo (n : Nat) :
    (n % 65536 / 256).toUInt8.toNat * 256 + (n % 256).toUInt8.toNat = n % 65536 := by
  have hhi : (n % 65536 / 256).toUInt8.toNat = n % 65536 / 256 := by
    rw [UInt8.toNat_ofNat']; omega
  have hlo : (n % 256).toUInt8.toNat = n % 256 := by
    rw [UInt8.toNat_ofNat']; omega
  rw [hhi, hlo]
  omega

/-- A DATA packet decodes to the opcode DATA. -/
@[simp] theorem tftpDecodeOp_dataPacket (block : Nat) (buf : List UInt8) :
    tftpDecodeOp (.single (tftpDataPacket block buf)) = .data := rfl

/-- An ACK packet decodes to the opcode ACK. -/
@[simp] theorem tftpDecodeOp_ackPacket (block : Nat) :
    tftpDecodeOp (.single (tftpAckPacket block)) = .ack := rfl

/-- An error message decodes to the opcode ERROR. -/
@[simp] theorem tftpDecodeOp_errorPacket (err : TftpErrorcode) :
    tftpDecodeOp (.single (tftpErrorPacket err)) = .error := rfl

/-- An ACK packet decodes to its block number modulo 65536. -/
@[simp] theorem tftpExtractBlock_ackPacket (block : Nat) :
    tftpExtractBlock (.single (tftpAckPacket block)) = block % 65536 :=
  toNat_hi_lo block

/-- A DATA packet decodes to its block number modulo 65536. -/
@[simp] theorem tftpExtractBlock_dataPacket (block : Nat) (buf : List UInt8) :
    tftpExtractBlock (.single (tftpDataPacket block buf)) = block % 65536 :=
  toNat_hi_lo block

/-- The acknowledgement test compares the opcode and the block number. -/
theorem tftpIsCorrectAck_iff (p : Pbuf) (block : Nat) :
    tftpIsCorrectAck p block = true ↔ tftpDecodeOp p = .ack ∧ tftpExtractBlock p = block := by
  unfold tftpIsCorrectAck
  split_ifs with hop hb
  · simp [hop]
  · simp [Ne.symm hb]
  · simp_all

/-- A block number read from a packet fits 16 bits. -/
theorem tftpExtractBlock_lt (p : Pbuf) : tftpExtractBlock p < 65536 := by
  have h2 := (p.byte 2).toNat_lt
  have h3 := (p.byte 3).toNat_lt
  unfold tftpExtractBlock
  omega

end NucleoH743.Tftp
