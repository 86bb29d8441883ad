import TrickyStore.Lib.Crash
import TrickyStore.Lib.Hex
import TrickyStore.Model.KeyFile
import TrickyStore.Model.Keystore2Interceptor

/-!
# The directory of the key files

What a task of the executor does to the files, one action of the file system after another.  A save
writes a temporary file and renames it; where renaming fails it is copied over instead.  `loadAll`
reads every file whose name ends in `.bin`.
-/

open Lib

namespace TrickyStore

/-! ## Strings -/

/-- The Java strings of this form are those without unpaired surrogates. -/
def javaString (s : String) : JavaString := (utf16Units s).map UInt16.ofNat

/-- UTF-8 of a code unit that is in no pair; a surrogate becomes `?`. -/
def encodeUnit (c : UInt16) : Bytes :=
  if 0xD800 ≤ c.toNat ∧ c.toNat ≤ 0xDFFF then [0x3F] else String.utf8EncodeChar (.ofNat c.toNat)

def isSurrogatePair (c d : UInt16) : Bool :=
  0xD800 ≤ c.toNat ∧ c.toNat ≤ 0xDBFF ∧ 0xDC00 ≤ d.toNat ∧ d.toNat ≤ 0xDFFF

/-- `toByteArray(Charsets.UTF_8)`. -/
def JavaString.toByteArray : JavaString → Bytes
  | [] => []
  | [c] => encodeUnit c
  | c :: d :: rest =>
    if isSurrogatePair c d then
      String.utf8EncodeChar (.ofNat (0x10000 + (c.toNat - 0xD800) * 0x400 + (d.toNat - 0xDC00))) ++
        JavaString.toByteArray rest
    else encodeUnit c ++ JavaString.toByteArray (d :: rest)

/-! ## Records -/

/-- The record that is written for a task, with the metadata marshalled. -/
def PersistedKey.keyFile (marshall : KeyMetadata → Bytes) (pk : PersistedKey) : KeyFile where
  uid := pk.uid
  keyAlias := javaString pk.keyAlias
  securityLevel := pk.securityLevel
  skipLeafHack := pk.skipLeafHack
  nspace := pk.nspace
  domain := pk.domain
  keyPair := pk.keyPair
  secretKey := pk.secretKey.map fun key => ⟨javaString key.algorithm, key.encoded⟩
  chain := pk.chain
  params := pk.params
  metadataBytes := pk.metadataBytes.map marshall

/-! ## Paths -/

/-- A file below `keys`: its directory is named by the uid. -/
structure KeyPath where
  uid : Int
  name : List Char
deriving DecidableEq, Repr

abbrev KeyDirectory := Files KeyPath UInt8

section Paths

variable (sha256 : Bytes → Bytes)

def fileFor (k : Key) : KeyPath :=
  ⟨k.uid, toHex (sha256 (JavaString.toByteArray (javaString k.keyAlias))) ++ ['.', 'b', 'i', 'n']⟩

/-- The temporary file of a save. -/
def KeyPath.tmp (file : KeyPath) : KeyPath := ⟨file.uid, file.name ++ ['.', 't', 'm', 'p']⟩

def KeyPath.isBin (file : KeyPath) : Bool := ['.', 'b', 'i', 'n'].isSuffixOf file.name

end Paths

/-! ## Tasks -/

/-- A task of the executor, with what it meets at the file system: what a save leaves in the temporary
file if writing throws, the result of `renameTo`, and the order in which a directory is walked. -/
structure FileTask where
  task : PersistTask
  flushed : Bytes := []
  renamed : Bool := true
  order : List KeyPath := []
deriving DecidableEq, Repr

namespace KeyDirectory

open Files

variable (sha256 : Bytes → Bytes) (marshall : KeyMetadata → Bytes) (F : KeyFactories)

/-- Where `renameTo` fails, `copyTo` with `overwrite` deletes the file before it copies. -/
def saveKey (t : FileTask) (pk : PersistedKey) : List (FileAction KeyPath UInt8) :=
  let file := fileFor sha256 pk.key
  match saveKeySync (pk.keyFile marshall) [] with
  | some (_, bytes) =>
    if t.renamed then replace file.tmp file bytes else overwrite file.tmp file bytes
  | none => write file.tmp t.flushed

/-- All files of the directory, in the order in which it is walked. -/
def walk (dir : KeyDirectory) (order : List KeyPath) : List KeyPath :=
  order.filter (· ∈ dir.keys) ++ dir.keys.filter (· ∉ order)

/-- What a task does, action by action. -/
def program (dir : KeyDirectory) (t : FileTask) : List (FileAction KeyPath UInt8) :=
  match t.task with
  | .saveKey pk => saveKey sha256 marshall t pk
  | .deleteKey uid keyAlias => [.delete (fileFor sha256 ⟨uid, keyAlias⟩)]
  | .clearAll => (walk dir t.order).map .delete

/-- The directory after tasks that may be cut off, by crashes or by exceptions. -/
def run (dir : KeyDirectory) (tasks : List (Attempt FileTask)) : KeyDirectory :=
  Machine.run (Attempt.run perform (program sha256 marshall)) dir tasks

def loadAll (dir : KeyDirectory) : List KeyFile :=
  dir.entries.filterMap fun e =>
    if e.1.isBin then (loadFile F e.2).map Prod.fst else none

end KeyDirectory

end TrickyStore
