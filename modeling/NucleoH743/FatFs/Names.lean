import NucleoH743.FatFs.Window
import NucleoH743.Lib.CStr

/-!
# `FatFs.Names`: names in directory form

`create_name` of `ff.c`, which takes a segment from a path, and the part of `get_fileinfo` that
prints a name. FatFs is built without long names and relative paths, for the code page 850.

A path is the list of its bytes in front of the terminating 0.

A name in directory form has eleven bytes: eight for the body and three for the extension, filled up
with spaces and without a dot. `create_name` fills them from the path character by character, in
upper case. A dot or the ninth character ends the body, and only a dot may do so.

A separator ends the segment, and all separators behind it are skipped. A byte up to the space ends
the path, whatever follows it.
-/

set_option autoImplicit false

namespace NucleoH743.Ff

/-- `DDEM`, the mark of a deleted entry. -/
def ddem : UInt8 := 0xE5

/-- `RDDEM`, which stands for a character that collides with `DDEM`. -/
def rddem : UInt8 := 0x05

/-- `TBL_CT850`, the upper case of the bytes from 0x80 on. -/
def tblCt850 : List UInt8 :=
  [0x43, 0x55, 0x45, 0x41, 0x41, 0x41, 0x41, 0x43, 0x45, 0x45, 0x45, 0x49, 0x49, 0x49, 0x41, 0x41,
   0x45, 0x92, 0x92, 0x4F, 0x4F, 0x4F, 0x55, 0x55, 0x59, 0x4F, 0x55, 0x4F, 0x9C, 0x4F, 0x9E, 0x9F,
   0x41, 0x49, 0x4F, 0x55, 0xA5, 0xA5, 0xA6, 0xA7, 0xA8, 0xA9, 0xAA, 0xAB, 0xAC, 0xAD, 0xAE, 0xAF,
   0xB0, 0xB1, 0xB2, 0xB3, 0xB4, 0x41, 0x41, 0x41, 0xB8, 0xB9, 0xBA, 0xBB, 0xBC, 0xBD, 0xBE, 0xBF,
   0xC0, 0xC1, 0xC2, 0xC3, 0xC4, 0xC5, 0x41, 0x41, 0xC8, 0xC9, 0xCA, 0xCB, 0xCC, 0xCD, 0xCE, 0xCF,
   0xD1, 0xD1, 0x45, 0x45, 0x45, 0x49, 0x49, 0x49, 0x49, 0xD9, 0xDA, 0xDB, 0xDC, 0xDD, 0x49, 0xDF,
   0x4F, 0xE1, 0x4F, 0x4F, 0x4F, 0x4F, 0xE6, 0xE8, 0xE8, 0x55, 0x55, 0x55, 0x59, 0x59, 0xEE, 0xEF,
   0xF0, 0xF1, 0xF2, 0xF3, 0xF4, 0xF5, 0xF6, 0xF7, 0xF8, 0xF9, 0xFA, 0xFB, 0xFC, 0xFD, 0xFE, 0xFF]

/-- `ExCvt`, at the place of a byte from 0x80 on. -/
def exCvt (c : UInt8) : UInt8 := tblCt850.getD (c &&& 0x7F).toNat 0

/-- The characters that a name must not have. -/
def illegalSfn : List UInt8 := CStr.textBytes "\"*+,:;<=>?[]|\x7f"

/-- `'/'` and `'\\'` -/
def isSeparator (c : UInt8) : Bool := c = 0x2F || c = 0x5C

/-- `IsLower` -/
def isLower (c : UInt8) : Bool := 0x61 ≤ c && c ≤ 0x7A

/-- An extended character becomes an upper-case one. -/
def cvtChar (c : UInt8) : UInt8 := if 0x80 ≤ c then exCvt c else c

/-- To upper. -/
def upChar (c : UInt8) : UInt8 := if isLower (cvtChar c) then cvtChar c - 0x20 else cvtChar c

/-- Where the loop of `create_name` ends. -/
structure Scan where
  i : Nat
  sfn : List UInt8
  /-- at the end of the path -/
  last : Bool
  /-- the next segments -/
  rest : List UInt8
  deriving DecidableEq, Repr

/-- The loop of `create_name` on the rest of the path. -/
def nameLoop : List UInt8 → Nat → Nat → List UInt8 → Except FResult Scan
  | [], i, _, sfn => .ok ⟨i, sfn, true, []⟩
  | c :: p, i, ni, sfn =>
    if c ≤ 0x20 then .ok ⟨i, sfn, true, p⟩
    else if isSeparator c then .ok ⟨i, sfn, false, p.dropWhile isSeparator⟩
    else if c = 0x2E ∨ ni ≤ i then
      -- the end of the body, or an overflow
      if ni = 11 ∨ c ≠ 0x2E then .error .invalidName else nameLoop p 8 11 sfn
    else if cvtChar c ∈ illegalSfn then .error .invalidName
    else nameLoop p (i + 1) ni (sfn.set i (upChar c))

/-- `fn` of a directory object: a name in directory form and its flags. -/
structure Fn where
  sfn : List UInt8
  /-- `NS_LAST` -/
  last : Bool
  /-- `NS_NONAME` -/
  noname : Bool
  deriving DecidableEq, Repr

/-- `create_name`, with the rest of the path. -/
def createName (path : List UInt8) : Except FResult (Fn × List UInt8) :=
  match nameLoop path 0 8 (List.replicate 11 0x20) with
  | .error res => .error res
  | .ok s =>
    if s.i = 0 then .error .invalidName
    else
      let sfn := if s.sfn.head? = some ddem then s.sfn.set 0 rddem else s.sfn
      .ok ({ sfn, last := s.last, noname := false }, s.rest)

/-- The loop of `get_fileinfo` over the name of an entry, from byte `si` on. -/
def fnameLoop : Nat → List UInt8 → List UInt8
  | _, [] => []
  | si, c :: dir =>
    if c = 0x20 then fnameLoop (si + 1) dir
    else
      let c := if c = rddem then ddem else c
      -- the first byte of the extension
      if si + 1 = 9 then 0x2E :: c :: fnameLoop (si + 1) dir else c :: fnameLoop (si + 1) dir

/-- `fname`, of an entry with the name `sfn`. -/
def fname (sfn : List UInt8) : List UInt8 := fnameLoop 0 sfn

end NucleoH743.Ff
