import TrickyStore.Lib.Crash
import TrickyStore.Lib.Hex
import TrickyStore.Lib.Text
import TrickyStore.Model.ApplicationId
import TrickyStore.Model.ConfigFiles

/-!
# The secrets of the device

The unique id of an attestation is keyed with `hbk`, and a device without a verified boot key of its own
gets a random one.  Both are made once and kept in a file.  A process reads each of them at most once; it
may be killed, or the file system may fail, behind any action.
-/

open Lib Files

namespace TrickyStore

inductive SecretFile where
  | hbk
  | bootKey
deriving DecidableEq, Repr

/-- What `SecureRandom` gives for a key. -/
abbrev RandomKey := { k : Bytes // k.length = 32 }

/-- Where a boot key comes from: the property, the attestation of the real keystore, the file, a new key
that was written to the file, or one that could not be. -/
inductive BootKeySource where
  | property
  | attestation
  | file
  | fresh
  | ephemeral
deriving DecidableEq, Repr

structure UniqueId where
  creationTimeMs : Int
  aaidDer : Bytes
  id : Bytes
deriving DecidableEq, Repr

/-- The files, the lazy values of the process, and what has been reported to apps so far. -/
structure DeviceSecrets where
  files : Files SecretFile UInt8 := ∅
  hbk : Option Bytes := none
  bootKey : Option Bytes := none
  uniqueIds : List UniqueId := []
  bootKeys : List (BootKeySource × Bytes) := []

/-- What is written before it is cut off, if it is. -/
def writeUntil (cutOff : Option ℕ) (file : SecretFile) (bytes : Bytes) (files : Files SecretFile UInt8) :
    Files SecretFile UInt8 :=
  let program := write file bytes
  Machine.run perform files (cutOff.elim program program.take)

/-- An ASCII text as the bytes of a file, and the other way round. -/
def asciiBytes (text : List Char) : Bytes := text.map fun c => UInt8.ofNat c.toNat

def asciiText (bytes : Bytes) : List Char := bytes.map fun b => Char.ofNat b.toNat

namespace DeviceSecrets

variable (s : DeviceSecrets)

/-! ## The unique id -/

/-- The lazy value `hbk`.  An exception of the writing is one of whoever asks. -/
def readHbk (random : RandomKey) (cutOff : Option ℕ) : DeviceSecrets × Option Bytes :=
  match s.hbk with
  | some k => (s, some k)
  | none =>
    match (s.files.lookup .hbk).filter fun k => k.length = 32 with
    | some k => ({ s with hbk := some k }, some k)
    | none =>
      let s := { s with files := writeUntil cutOff .hbk random.1 s.files }
      if cutOff = none then ({ s with hbk := some random.1 }, some random.1) else (s, none)

/-- An attestation with a unique id. -/
def reportUniqueId (h : Digests) (random : RandomKey) (cutOff : Option ℕ) (creationTimeMs : Int)
    (aaidDer : Bytes) : DeviceSecrets :=
  match s.readHbk random cutOff with
  | (s, none) => s
  | (s, some hbk) =>
    { s with uniqueIds := s.uniqueIds ++
        [⟨creationTimeMs, aaidDer, CertificateGen.computeUniqueId h hbk creationTimeMs aaidDer⟩] }

/-! ## The boot key -/

/-- The value of `ro.boot.vbmeta.public_key_digest`, if it is one. -/
def getBootKeyFromProp (digest : Option (List Char)) : Option Bytes :=
  digest.bind fun digest => if digest.length = 64 then ofHex digest else none

def takeIfNonZero (key : Bytes) : Option Bytes := if key.any (· ≠ 0) then some key else none

/-- The file is created when it does not exist; whatever fails gives a key of this process only. -/
def persistedBootKey (random ephemeral : RandomKey) (cutOff : Option ℕ) :
    DeviceSecrets × BootKeySource × Bytes :=
  match s.files.lookup .bootKey with
  | some text =>
    match ofHex (trim isWhitespace (asciiText text)) with
    | some key => (s, .file, key)
    | none => (s, .ephemeral, ephemeral.1)
  | none =>
    let s := { s with files := writeUntil cutOff .bootKey (asciiBytes (toHex random.1)) s.files }
    if cutOff = none then (s, .fresh, random.1) else (s, .ephemeral, ephemeral.1)

/-- What the boot key is taken from, at the first time in a process. -/
structure BootKeyReading where
  digest : Option (List Char)
  cachedBootKey : Option Bytes
  random : RandomKey
  ephemeral : RandomKey
  cutOff : Option ℕ

def chooseBootKey (r : BootKeyReading) : DeviceSecrets × BootKeySource × Bytes :=
  match getBootKeyFromProp r.digest with
  | some key => (s, .property, key)
  | none =>
    match r.cachedBootKey.bind takeIfNonZero with
    | some key => (s, .attestation, key)
    | none => s.persistedBootKey r.random r.ephemeral r.cutOff

/-- An attestation, which reports the lazy value `bootKey`. -/
def reportBootKey (r : BootKeyReading) : DeviceSecrets :=
  match s.bootKey with
  | some _ => s
  | none =>
    let (s, source, key) := s.chooseBootKey r
    { s with bootKey := some key, bootKeys := s.bootKeys ++ [(source, key)] }

/-! ## Runs -/

inductive Event where
  | reportUniqueId (random : RandomKey) (cutOff : Option ℕ) (creationTimeMs : Int) (aaidDer : Bytes)
  | reportBootKey (r : BootKeyReading)
  /-- The process ends, in whatever way, and another one starts. -/
  | restart

def next (h : Digests) (s : DeviceSecrets) : Event → DeviceSecrets
  | .reportUniqueId random cutOff creationTimeMs aaidDer =>
    s.reportUniqueId h random cutOff creationTimeMs aaidDer
  | .reportBootKey r => s.reportBootKey r
  | .restart => { s with hbk := none, bootKey := none }

end DeviceSecrets

end TrickyStore
