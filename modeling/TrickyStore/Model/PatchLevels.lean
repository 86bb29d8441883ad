import TrickyStore.Lib.Decimal
import TrickyStore.Model.ConfigFiles
import TrickyStore.Model.Daemon

/-!
# Patch levels

`security_patch.txt` sets the three patch levels, for every app and for single packages.  The file is cut
into the lines of every package header, and the lines of one header become one `CustomPatchLevel`;
`getCustomPatchLevel` looks from the package to the global block and turns the text it finds into a number.
Placeholders of the date are filled in when the level is read.
-/

open Lib

namespace TrickyStore

/-! ## Texts of Kotlin -/

/-- The zeros of the decimal digits that fit into one UTF-16 unit. -/
def zeroDigits : List ℕ :=
  [0x30, 0x660, 0x6F0, 0x7C0, 0x966, 0x9E6, 0xA66, 0xAE6, 0xB66, 0xBE6, 0xC66, 0xCE6, 0xD66, 0xDE6, 0xE50,
    0xED0, 0xF20, 0x1040, 0x1090, 0x17E0, 0x1810, 0x1946, 0x19D0, 0x1A80, 0x1A90, 0x1B50, 0x1BB0, 0x1C40,
    0x1C50, 0xA620, 0xA8D0, 0xA900, 0xA9D0, 0xA9F0, 0xAA50, 0xABF0, 0xFF10]

/-- `Character.digit(c, 10)`. -/
def digit (c : Char) : Option ℕ :=
  (zeroDigits.find? fun d => d ≤ c.toNat && c.toNat < d + 10).map fun d => c.toNat - d

/-- A nonempty sequence of digits. -/
def magnitude (s : List Char) : Option ℕ :=
  if s = [] then none else (s.mapM digit).map readDigits

/-- `String.toInt`; `none` is the `NumberFormatException`. -/
def toInt (s : List Char) : Option Int :=
  let n : Option Int :=
    match s with
    | '-' :: ds => (magnitude ds).map fun n : ℕ => -(n : Int)
    | '+' :: ds => (magnitude ds).map Int.ofNat
    | ds => (magnitude ds).map Int.ofNat
  n.filter fun n => -2147483648 ≤ n && n ≤ 2147483647

/-- `%0wd`, with the digits of a locale. -/
def format (zeroDigit w : ℕ) (n : Int) : List Char :=
  let localized (w : ℕ) : List Char := (padded w n.natAbs).map fun d => Char.ofNat (zeroDigit + d)
  if n < 0 then '-' :: localized (w - 1) else localized w

/-- What two characters have in common that are equal when case is ignored.  Outside ASCII only the two
other letters i are equal to a letter of the texts that are compared here. -/
def foldCase (c : Char) : Char := if c = 'ı' || c = 'İ' then 'i' else c.toLower

def equalsIgnoreCase (s t : List Char) : Bool := s.map foldCase = t.map foldCase

/-- `lowercase`, for ASCII: no other character becomes a letter of one of the keys. -/
def lowercase (s : List Char) : List Char := s.map Char.toLower

/-- What stands behind the first `skip` characters, with the occurrences of `old` replaced from left to
right; their case is ignored. -/
def replaceFrom (old new : List Char) : ℕ → List Char → List Char
  | _, [] => []
  | skip + 1, _ :: rest => replaceFrom old new skip rest
  | 0, c :: rest =>
    if (old.map foldCase).isPrefixOf ((c :: rest).map foldCase) then
      new ++ replaceFrom old new (old.length - 1) rest
    else c :: replaceFrom old new 0 rest

def replaceIgnoreCase (s old new : List Char) : List Char := replaceFrom old new 0 s

/-! ## `security_patch.txt` -/

structure CustomPatchLevel where
  system : Option (List Char) := none
  vendor : Option (List Char) := none
  boot : Option (List Char) := none
  all : Option (List Char) := none
deriving DecidableEq, Repr

structure PatchLevels where
  globalPatchLevel : Option CustomPatchLevel := none
  packagePatchLevels : HashMap String CustomPatchLevel := ∅

namespace PatchLevels

def isSectionChar (c : Char) : Bool :=
  c.isAlphanum || c = '_' || c = '.' || c = '-'

/-- `patchSectionRegex`; its `$` also stands in front of a final next line character. -/
def patchSection (trimmed : List Char) : Option (List Char) :=
  match removeSuffix trimmed '\u0085' with
  | '[' :: rest =>
    let name := rest.dropLast
    if rest.getLast? = some ']' && name ≠ [] && name.all isSectionChar then some name else none
  | _ => none

/-- Where the reader of the file is: the header it is under, and the lines of every header. -/
structure Contexts where
  current : String := ""
  contexts : HashMap String (List (List Char)) := ∅

def Contexts.add (s : Contexts) (trimmed : List Char) : Contexts :=
  { s with contexts :=
      s.contexts.insert s.current ((s.contexts.lookup s.current).getD [] ++ [trimmed]) }

def Contexts.readLine (s : Contexts) (line : List Char) : Contexts :=
  let trimmed := trim isWhitespace line
  if trimmed = [] || startsWith trimmed '#' then s
  else match patchSection trimmed with
    | some name => { s with current := String.ofList name }
    | none => s.add trimmed

/-- The key and the value of a line: the first `=` is between them, and not in front. -/
def assignment (line : List Char) : Option (List Char × List Char) :=
  let key := line.takeWhile (· ≠ '=')
  if '=' ∈ line && key ≠ [] then
    some (lowercase (trim isWhitespace key), trim isWhitespace ((line.dropWhile (· ≠ '=')).drop 1))
  else none

def readAssignment (map : HashMap (List Char) (List Char)) (line : List Char) :
    HashMap (List Char) (List Char) :=
  match assignment line with
  | some (key, value) => map.insert key value
  | none => map

def parsePatchContext (lines : List (List Char)) : Option CustomPatchLevel :=
  if lines = [] then none
  else if lines.length = 1 && '=' ∉ lines.headD [] then some { all := lines.headD [] }
  else
    let map := lines.foldl readAssignment ∅
    let all := map.lookup "all".toList
    some
      { system := (map.lookup "system".toList).or all
        vendor := (map.lookup "vendor".toList).or all
        boot := (map.lookup "boot".toList).or all
        all := all }

def parseContext (parsed : HashMap String CustomPatchLevel) (ctx : String) (lines : List (List Char)) :
    HashMap String CustomPatchLevel :=
  match parsePatchContext lines with
  | some level => parsed.insert ctx level
  | none => parsed

/-- What is parsed of every context. -/
def parseContexts (contexts : HashMap String (List (List Char))) : HashMap String CustomPatchLevel :=
  contexts.entries.foldl (fun parsed e => parseContext parsed e.1 e.2) ∅

/-- The file is none, or cannot be read, or has a text. -/
def updatePatchLevel (p : PatchLevels) (f : Option File) : PatchLevels :=
  match f with
  | none => {}
  | some none => p
  | some (some text) =>
    let s := (readLines text).foldl Contexts.readLine {}
    let parsed := parseContexts s.contexts
    { globalPatchLevel := parsed.lookup ""
      packagePatchLevels := parsed.removeIf fun name _ => name = "" }

end PatchLevels

/-! ## The patch levels of a uid -/

structure LocalDate where
  year : Int
  monthValue : ℕ
  dayOfMonth : ℕ
  month_range : 1 ≤ monthValue ∧ monthValue ≤ 12
  day_range : 1 ≤ dayOfMonth ∧ dayOfMonth ≤ 31

/-- What the patch levels of a uid are read from: the file, the packages of the uid, the date, the digits of
the locale, and `Build.VERSION.SECURITY_PATCH`. -/
structure AndroidUtils where
  levels : PatchLevels
  packagesForUid : Option (List String)
  now : LocalDate
  zeroDigit : ℕ
  localDigit : zeroDigit ∈ zeroDigits
  SECURITY_PATCH : List Char

inductive Component where
  | system
  | vendor
  | boot
deriving DecidableEq, Repr

def CustomPatchLevel.get (l : CustomPatchLevel) : Component → Option (List Char)
  | .system => l.system
  | .vendor => l.vendor
  | .boot => l.boot

namespace AndroidUtils

/-- Arithmetic of `Int`. -/
def wrap (n : Int) : Int := (BitVec.ofInt 32 n).toInt

def convertPatchLevel (s : List Char) (isLong : Bool) : Int :=
  let parts := s.splitOn '-'
  let part (i : ℕ) : Option Int := toInt (parts.getD i [])
  let raw : Option Int :=
    if isLong && 3 ≤ parts.length then do
      let year ← part 0
      let month ← part 1
      let day ← part 2
      return wrap (year * 10000 + month * 100 + day)
    else if 2 ≤ parts.length then do
      let year ← part 0
      let month ← part 1
      return wrap (year * 100 + month)
    else none
  raw.getD 202404

variable (u : AndroidUtils)

def packagePatchLevelForUid : Option CustomPatchLevel :=
  u.packagesForUid.bind fun packages => packages.findSome? u.levels.packagePatchLevels.lookup

/-- `LocalDate.now()` in the place of the placeholders. -/
def resolveDateValue (value : List Char) : List Char :=
  let y := format u.zeroDigit 4 u.now.year
  let m := format u.zeroDigit 2 u.now.monthValue
  let d := format u.zeroDigit 2 u.now.dayOfMonth
  let value := replaceIgnoreCase value "YYYY".toList y
  let value := replaceIgnoreCase value "MM".toList m
  replaceIgnoreCase value "DD".toList d

/-- At most eight characters are read, so nothing overflows. -/
def parsePatchLevelValue (value : List Char) (isLong : Bool) : Option Int :=
  let normalized := value.filter (· ≠ '-')
  if normalized.length = 8 then do
    let year ← toInt (normalized.take 4)
    let month ← toInt ((normalized.drop 4).take 2)
    let day ← toInt ((normalized.drop 6).take 2)
    return if isLong then year * 10000 + month * 100 + day else year * 100 + month
  else if normalized.length = 6 then do
    let year ← toInt (normalized.take 4)
    let month ← toInt ((normalized.drop 4).take 2)
    return if isLong then year * 10000 + month * 100 else year * 100 + month
  else none

def getCustomPatchLevel (component : Component) (isLong : Bool) : Option Int :=
  let pkg := u.packagePatchLevelForUid
  let global := u.levels.globalPatchLevel
  let value := (pkg.bind (·.get component)).or <| (pkg.bind (·.all)).or <|
    (global.bind (·.get component)).or (global.bind (·.all))
  match value with
  | none => some (convertPatchLevel u.SECURITY_PATCH isLong)
  | some value =>
    if equalsIgnoreCase value "prop".toList then some (convertPatchLevel u.SECURITY_PATCH isLong)
    else if equalsIgnoreCase value "no".toList then some DO_NOT_REPORT
    else if equalsIgnoreCase value "device_default".toList then none
    else parsePatchLevelValue (u.resolveDateValue value) isLong

def patchLevelOverride : Option Int := u.getCustomPatchLevel .system false

def vendorPatchLevelOverride : Option Int := u.getCustomPatchLevel .vendor true

def bootPatchLevelOverride : Option Int := u.getCustomPatchLevel .boot true

def patchLevel : Int := (u.getCustomPatchLevel .system false).getD (convertPatchLevel u.SECURITY_PATCH false)

def vendorPatchLevelLong : Int :=
  (u.getCustomPatchLevel .vendor true).getD (convertPatchLevel u.SECURITY_PATCH true)

def bootPatchLevelLong : Int :=
  (u.getCustomPatchLevel .boot true).getD (convertPatchLevel u.SECURITY_PATCH true)

/-- The patch levels that a hook reads. -/
def env (utils : Int → AndroidUtils) (env : Env) : Env :=
  { env with
    patchLevel := fun uid => (utils uid).patchLevel
    vendorPatchLevelLong := fun uid => (utils uid).vendorPatchLevelLong
    bootPatchLevelLong := fun uid => (utils uid).bootPatchLevelLong
    patchLevelOverride := fun uid => (utils uid).patchLevelOverride
    vendorPatchLevelOverride := fun uid => (utils uid).vendorPatchLevelOverride
    bootPatchLevelOverride := fun uid => (utils uid).bootPatchLevelOverride }

end AndroidUtils

end TrickyStore
