import TrickyStore.Lib.Assignments
import TrickyStore.Lib.Text
import TrickyStore.Model.Config

/-!
# The configuration files

`target.txt` gives packages their modes, line by line.  The file observer hands a file over when it was
written or moved in, and none when it was deleted or moved out; a file that cannot be read leaves the
configuration as it is.
-/

open Lib

namespace TrickyStore

/-- What reading a file gives; `none` when it throws. -/
abbrev File := Option (List Char)

/-- `Char.isWhitespace`: the separators of Unicode and the control characters that count as space. -/
def isWhitespace (c : Char) : Bool :=
  (9 ≤ c.toNat && c.toNat ≤ 13) || (28 ≤ c.toNat && c.toNat ≤ 32)
    || c.toNat = 0xA0 || c.toNat = 0x1680 || (0x2000 ≤ c.toNat && c.toNat ≤ 0x200A)
    || c.toNat = 0x2028 || c.toNat = 0x2029 || c.toNat = 0x202F || c.toNat = 0x205F || c.toNat = 0x3000

def isNotBlank (s : List Char) : Bool := !s.all isWhitespace

def startsWith (s : List Char) (c : Char) : Bool := s.head? = some c

def endsWith (s : List Char) (c : Char) : Bool := s.getLast? = some c

def removeSuffix (s : List Char) (c : Char) : List Char := if endsWith s c then s.dropLast else s

namespace PkgConfig

/-! ## `target.txt` -/

/-- What one line of `target.txt` does to the modes. -/
def readTarget (modes : HashMap String Mode) (it : List Char) : HashMap String Mode :=
  if isNotBlank it && !startsWith it '#' then
    let n := trim isWhitespace it
    if endsWith n '!' then
      modes.insert (String.ofList (trim isWhitespace (removeSuffix n '!'))) .GENERATE
    else if endsWith n '?' then
      modes.insert (String.ofList (trim isWhitespace (removeSuffix n '?'))) .LEAF_HACK
    else modes.insert (String.ofList n) .AUTO
  else modes

def updateTargetPackages (c : PkgConfig) (f : Option File) : PkgConfig :=
  match f with
  | none => { c with packageModes := ∅ }
  | some none => c
  | some (some text) => { c with packageModes := (readLines text).foldl readTarget ∅ }

end PkgConfig

end TrickyStore
