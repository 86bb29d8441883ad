import TrickyStore.Lib.Scanf
import TrickyStore.Native.Injector

/-!
# The mappings of a process

`MapInfo::Scan` on the text of `/proc/<pid>/maps`, and the addresses that the injector looks up in the mappings.
The opened file is given by its text, and what `dlopen` and `dlsym` find in the injector by a function.
-/

open Lib.Scanf

namespace TrickyStore

namespace Native

namespace Injector

variable {a : Architecture}

def PROT_READ : BitVec 8 := 1

def PROT_WRITE : BitVec 8 := 2

def PROT_EXEC : BitVec 8 := 4

structure MapInfo (a : Architecture) where
  start : a.Word
  end_ : a.Word
  perms : BitVec 8
  isPrivate : Bool
  offset : a.Word
  dev : a.Word
  inode : a.Word
  path : List Char
deriving DecidableEq

def makedev (major minor : ℕ) : a.Word :=
  BitVec.ofNat _ ((major &&& 0xfffff000) <<< 32 ||| (major &&& 0xfff) <<< 8 |||
    (minor &&& 0xffffff00) <<< 12 ||| (minor &&& 0xff))

/-- The bits of the first three characters. -/
def permsOf (perm : List Char) : BitVec 8 :=
  (if perm[0]? = some 'r' then PROT_READ else 0) ||| (if perm[1]? = some 'w' then PROT_WRITE else 0) |||
    (if perm[2]? = some 'x' then PROT_EXEC else 0)

/-- One line as `sscanf` reads it, unless it gives less than seven values. -/
def MapInfo.ofLine (line : List Char) : Option (MapInfo a) := do
  let (start, rest) ← scanNumber 16 (8 * a.wordBytes) line
  let rest ← literal '-' rest
  let (end_, rest) ← scanNumber 16 (8 * a.wordBytes) rest
  let (perm, rest) ← scanString 4 rest
  let (off, rest) ← scanNumber 16 (8 * a.wordBytes) rest
  let (devMajor, rest) ← scanNumber 16 32 rest
  let rest ← literal ':' rest
  let (devMinor, rest) ← scanNumber 16 32 rest
  let (inode, rest) ← scanNumber 10 (8 * a.wordBytes) rest
  return {
    start := BitVec.ofNat _ start
    end_ := BitVec.ofNat _ end_
    perms := permsOf perm
    isPrivate := perm[3]? = some 'p'
    offset := BitVec.ofNat _ off
    dev := makedev devMajor devMinor
    inode := BitVec.ofNat _ inode
    -- the blank of the format, and then the loop over `path_off`
    path := skipSpace (skipSpace rest) }

/-- The lines that `getline` gives, each with its line feed. -/
def getlines : List Char → List (List Char)
  | [] => []
  | c :: cs =>
    if c = '\n' then [c] :: getlines cs
    else
      match getlines cs with
      | [] => [[c]]
      | line :: lines => (c :: line) :: lines

/-- The text up to its first zero byte. -/
def cString (line : List Char) : List Char := line.takeWhile (· ≠ '\x00')

/-- `MapInfo::Scan`, without a text when the file does not open.  A zero byte takes the place of the last
character of a line, whether it is a line feed or not. -/
def MapInfo.scan (maps : Option (List Char)) : List (MapInfo a) :=
  match maps with
  | none => []
  | some text => (getlines text).filterMap fun line => MapInfo.ofLine (cString line.dropLast)

def findModuleBase (mapInfo : List (MapInfo a)) (moduleSuffix : String) : a.Word :=
  match mapInfo.find? fun map => map.offset = 0 && moduleSuffix.toList.isSuffixOf map.path with
  | some map => map.start
  | none => 0

/-- `find_func_addr` with the address that `dlsym` gives in the injector, or zero. -/
def findFuncAddr (dlsym : String → String → a.Word) (localMap remoteMap : List (MapInfo a))
    (moduleName functionName : String) : a.Word :=
  let symbolAddr := dlsym moduleName functionName
  let localBase := findModuleBase localMap moduleName
  let remoteBase := findModuleBase remoteMap moduleName
  if symbolAddr = 0 then 0
  else if localBase = 0 then 0
  else if remoteBase = 0 then 0
  else remoteBase + (symbolAddr - localBase)

def findModuleReturnAddr (mapInfo : List (MapInfo a)) (moduleSuffix : String) : a.Word :=
  match mapInfo.find? fun map => map.perms &&& PROT_EXEC = 0 && moduleSuffix.toList.isSuffixOf map.path with
  | some map => map.start
  | none => 0

/-- The environment of an injection whose mappings are scanned from these texts. -/
def Environment.scanned (env : Environment a) (dlsym : String → String → a.Word)
    (localMaps remoteMaps : Option (List Char)) : Environment a :=
  { env with
    findModuleReturnAddr := Injector.findModuleReturnAddr (MapInfo.scan remoteMaps)
    findFuncAddr := Injector.findFuncAddr dlsym (MapInfo.scan localMaps) (MapInfo.scan remoteMaps) }

end Injector

end Native

end TrickyStore
