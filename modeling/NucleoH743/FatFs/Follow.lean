import NucleoH743.FatFs.Names
import NucleoH743.FatFs.Volume

/-!
# `FatFs.Follow`: from a path name to a directory entry

`follow_path` of `ff.c` with what it takes from a path first: `get_ldnumber`, which strips the
drive number, and `create_name`, which takes one segment after the other. The entry that a path
denotes is named by the directory forms of its segments, 11 bytes each, from the root directory
on; so paths that differ in the case of their letters or in the number of their separators denote
the same entry.

A byte up to the space ends a path, wherever it stands: `create_name` sets `NS_LAST` there, and no
byte behind it is read. A path that names no drive of the firmware fails with `FR_INVALID_DRIVE`;
it is `invalidName` here.

A path is what a client of the servers can choose freely, so it matters what `follow_path` makes of
one that no user would type: with characters that a name must not have, with a space in it, or with
a separator at its end. The directories are a parameter: `nodes` says what stands under a sequence
of names, which is what `dir_find` finds in them.
-/

set_option autoImplicit false

namespace NucleoH743.FatFs

open Ff (createName isSeparator)

/-- `get_ldnumber`: the path without its drive number, `none` for a drive that is not there. The
firmware has drive 0 alone. -/
def getLdnumber (path : Path) : Option Path :=
  if path.find? (fun c => c ≤ 0x20 || c = 0x3A) = some 0x3A then
    -- the colon is behind a digit, and the digit is the first byte
    if path.take 2 = [0x30, 0x3A] then some (path.drop 2) else none
  else some path

/-- The loop of `follow_path` from the directory `dir` on. Every round takes at least one byte of
the path, so that `fuel` is enough when it is more than the length of the path. -/
def followLoop (nodes : Entry → Option Node) : Nat → Entry → Path → Follow
  | 0, _, _ => .invalidName
  | fuel + 1, dir, path =>
    match createName path with
    | .error _ => .invalidName
    | .ok (fn, rest) =>
      let e := dir ++ fn.sfn
      if fn.last then .entry e
      else if nodes e = some .dir then followLoop nodes fuel e rest
      else .noPath

/-- `follow_path` behind the drive number. -/
def followFrom (nodes : Entry → Option Node) (path : Path) : Follow :=
  match path.dropWhile isSeparator with
  | [] => .origin
  | c :: p => if c < 0x20 then .origin else followLoop nodes (path.length + 1) [] (c :: p)

/-- `follow_path` -/
def followPath (nodes : Entry → Option Node) (path : Path) : Follow :=
  match getLdnumber path with
  | none => .invalidName
  | some path => followFrom nodes path

end NucleoH743.FatFs
