import TrickyStore.Lib.Bytes
import TrickyStore.Model.Persistence

/-!
# The bytes of a key file

`saveKeySync` writes a record field by field with a `DataOutputStream`, and `loadAll` reads the same
sequence with a `DataInputStream`; there is no length in front and no checksum behind.  An exception
of either makes the file of no account: the save keeps the old file, the load skips this one.
-/

open Lib

namespace TrickyStore

/-! ## Strings in modified UTF-8 -/

/-- A Java string is its UTF-16 code units, whether they pair up or not. -/
abbrev JavaString := List UInt16

def encodeChar (c : UInt16) : Bytes :=
  let n := c.toNat
  if 1 ≤ n ∧ n ≤ 0x7F then [.ofNat n]
  else if n ≤ 0x7FF then [.ofNat (0xC0 + n / 64), .ofNat (0x80 + n % 64)]
  else [.ofNat (0xE0 + n / 4096), .ofNat (0x80 + n / 64 % 64), .ofNat (0x80 + n % 64)]

def encodeUtf (s : JavaString) : Bytes := s.flatMap encodeChar

/-- The top bits `10` of a second or third byte. -/
def isContinuation (b : UInt8) : Bool := b.toNat / 64 = 2

/-- The decoding loop of `readUTF`, which refuses what is no modified UTF-8. -/
def decodeUtf : Bytes → Option JavaString
  | [] => some []
  | b :: bs =>
    let n := b.toNat
    if n < 0x80 then (decodeUtf bs).map (UInt16.ofNat n :: ·)
    else if n / 16 = 12 ∨ n / 16 = 13 then
      match bs with
      | b₂ :: bs =>
        if isContinuation b₂ then
          (decodeUtf bs).map (UInt16.ofNat (n % 32 * 64 + b₂.toNat % 64) :: ·)
        else none
      | [] => none
    else if n / 16 = 14 then
      match bs with
      | b₂ :: b₃ :: bs =>
        if isContinuation b₂ ∧ isContinuation b₃ then
          (decodeUtf bs).map
            (UInt16.ofNat (n % 16 * 4096 + b₂.toNat % 64 * 64 + b₃.toNat % 64) :: ·)
        else none
      | _ => none
    else none

/-! ## DataOutputStream -/

abbrev DataOutputStream := Lib.Writer UInt8

open Writer

namespace DataOutputStream

def writeByte (n : Int) : DataOutputStream Unit := emit (bigEndian 1 (twosComplement 1 n))

def writeBoolean (b : Bool) : DataOutputStream Unit := emit [if b then 1 else 0]

def writeInt (n : Int) : DataOutputStream Unit := emit (bigEndian 4 (twosComplement 4 n))

def writeLong (n : Int) : DataOutputStream Unit := emit (bigEndian 8 (twosComplement 8 n))

/-- `write(b)`. -/
def writeAll (b : Bytes) : DataOutputStream Unit := emit b

/-- Throws for a string of more than 65535 bytes. -/
def writeUTF (s : JavaString) : DataOutputStream Unit := do
  ensure ((encodeUtf s).length ≤ 65535)
  emit (bigEndian 2 (encodeUtf s).length ++ encodeUtf s)

/-- The size of an array, then its bytes. -/
def writeByteArray (b : Bytes) : DataOutputStream Unit := do
  writeInt b.length
  writeAll b

/-- Whether the value is there, then the value. -/
def writeOptional {α : Type} (write : α → DataOutputStream Unit) (o : Option α) :
    DataOutputStream Unit := do
  writeBoolean o.isSome
  match o with
  | some a => write a
  | none => pure ()

/-- The size of a list, then its items. -/
def writeList {α : Type} (write : α → DataOutputStream Unit) (list : List α) :
    DataOutputStream Unit := do
  writeInt list.length
  each write list

def writeIntList : List Int → DataOutputStream Unit := writeList writeInt

end DataOutputStream

/-! ## DataInputStream -/

abbrev DataInputStream := Reader UInt8

open Reader (take lift times)

namespace DataInputStream

def readByte : DataInputStream Int := (fun b => ofTwosComplement 1 (ofBigEndian b)) <$> take 1

def readBoolean : DataInputStream Bool := (fun b => b != [0]) <$> take 1

def readInt : DataInputStream Int := (fun b => ofTwosComplement 4 (ofBigEndian b)) <$> take 4

def readLong : DataInputStream Int := (fun b => ofTwosComplement 8 (ofBigEndian b)) <$> take 8

def readUTF : DataInputStream JavaString := do
  let b ← take 2
  let utf ← take (ofBigEndian b)
  lift (decodeUtf utf)

/-- `ByteArray(ins.readInt()).also { ins.readFully(it) }`; a negative size is refused. -/
def readByteArray : DataInputStream Bytes := do
  let n ← readInt
  if n < 0 then lift none else take n.toNat

def readOptional {α : Type} (read : DataInputStream α) : DataInputStream (Option α) := do
  if ← readBoolean then some <$> read else return none

/-- `(1..n).map`, which is empty for a negative `n`. -/
def readList {α : Type} (read : DataInputStream α) : DataInputStream (List α) := do
  let n ← readInt
  times read n.toNat

def readIntList : DataInputStream (List Int) := readList readInt

end DataInputStream

open DataOutputStream DataInputStream

/-! ## The record -/

/-- `BigInteger.bitLength`. -/
def bitLength (n : Int) : ℕ := (if n < 0 then -n - 1 else n).toNat.size

/-- `BigInteger.toByteArray`: the shortest two's complement. -/
def toByteArray (n : Int) : Bytes :=
  bigEndian (bitLength n / 8 + 1) (twosComplement (bitLength n / 8 + 1) n)

/-- A secret key as the file has it. -/
structure SecretKeySpec where
  algorithm : JavaString
  encoded : Bytes
deriving DecidableEq, Repr

/-- What `saveKeySync` is given and `loadAll` returns, a `PersistenceManager.PersistedKey`. -/
structure KeyFile where
  uid : Int
  keyAlias : JavaString
  securityLevel : Int
  skipLeafHack : Bool
  nspace : Int
  domain : Int
  keyPair : Option KeyPair
  secretKey : Option SecretKeySpec
  chain : List Certificate
  params : KeyGenParameters
  metadataBytes : Option Bytes
deriving DecidableEq, Repr

/-- The factories that turn encodings into keys and certificates; `none` is an exception. -/
structure KeyFactories where
  generatePublic : String → Bytes → Option Bytes
  generatePrivate : String → Bytes → Option Bytes
  secretKeySpec : Bytes → JavaString → Option SecretKeySpec
  generateCertificate : Bytes → Option Certificate

def FORMAT_VERSION : Int := 3

/-- The two halves of the key pair, the private one first. -/
def writeKeyPair (pair : KeyPair) : DataOutputStream Unit := do
  writeByteArray pair.privateKey
  writeByteArray pair.publicKey

def readKeyPair : DataInputStream (Bytes × Bytes) := do
  let privBytes ← readByteArray
  let pubBytes ← readByteArray
  return (privBytes, pubBytes)

def writeSecretKey (key : SecretKeySpec) : DataOutputStream Unit := do
  writeUTF key.algorithm
  writeByteArray key.encoded

def readSecretKey (F : KeyFactories) : DataInputStream SecretKeySpec := do
  let algo ← readUTF
  let secretBytes ← readByteArray
  lift (F.secretKeySpec secretBytes algo)

def writeCertificate (c : Certificate) : DataOutputStream Unit := writeByteArray c.encoded

def readCertificate (F : KeyFactories) : DataInputStream Certificate := do
  let b ← readByteArray
  lift (F.generateCertificate b)

def readBigInteger : DataInputStream Int := do
  let b ← readByteArray
  lift (bigInteger b)

def keyAlgo (algorithm : Int) : String := if algorithm = Algorithm.RSA then "RSA" else "EC"

/-- The key pair of the decoded halves. -/
def KeyFactories.keyPair (F : KeyFactories) (algorithm : Int) (halves : Bytes × Bytes) : Option KeyPair := do
  let publicKey ← F.generatePublic (keyAlgo algorithm) halves.2
  let privateKey ← F.generatePrivate (keyAlgo algorithm) halves.1
  return ⟨publicKey, privateKey⟩

def saveKeySync (key : KeyFile) : DataOutputStream Unit := do
  writeByte FORMAT_VERSION
  writeInt key.uid
  writeUTF key.keyAlias
  writeInt key.securityLevel
  writeBoolean key.skipLeafHack
  writeLong key.nspace
  writeInt key.domain
  writeOptional writeKeyPair key.keyPair
  writeOptional writeSecretKey key.secretKey
  writeList writeCertificate key.chain
  writeOptional writeByteArray key.metadataBytes
  writeInt key.params.algorithm
  writeInt key.params.keySize
  writeInt key.params.ecCurve
  writeIntList key.params.purpose
  writeIntList key.params.digest
  writeIntList key.params.padding
  writeIntList key.params.blockMode
  writeIntList key.params.mgfDigest
  writeInt key.params.usageCountLimit
  writeOptional writeBoolean key.params.callerNonce
  writeOptional writeBoolean key.params.unlockedDeviceRequired
  writeOptional writeLong key.params.activeDateTime
  writeOptional writeLong key.params.originationExpireDateTime
  writeOptional writeLong key.params.usageExpireDateTime
  writeOptional writeBoolean key.params.noAuthRequired
  writeOptional writeInt key.params.origin
  writeOptional (fun rsaExp => writeByteArray (toByteArray rsaExp)) key.params.rsaPublicExponent

/-- What `loadAll` does with one file. -/
def loadFile (F : KeyFactories) : DataInputStream KeyFile := do
  let version ← readByte
  if version ≠ FORMAT_VERSION then lift none else
  let uid ← readInt
  let keyAlias ← readUTF
  let securityLevel ← readInt
  let skipLeafHack ← readBoolean
  let nspace ← readLong
  let domain ← readInt
  let halves ← readOptional readKeyPair
  let secretKey ← readOptional (readSecretKey F)
  let chain ← readList (readCertificate F)
  let metadataBytes ← readOptional readByteArray
  let algorithm ← readInt
  let keySize ← readInt
  let ecCurve ← readInt
  let purpose ← readIntList
  let digest ← readIntList
  let padding ← readIntList
  let blockMode ← readIntList
  let mgfDigest ← readIntList
  let usageCountLimit ← readInt
  let callerNonce ← readOptional readBoolean
  let unlockedDeviceRequired ← readOptional readBoolean
  let activeDateTime ← readOptional readLong
  let originationExpireDateTime ← readOptional readLong
  let usageExpireDateTime ← readOptional readLong
  let noAuthRequired ← readOptional readBoolean
  let origin ← readOptional readInt
  let rsaPublicExponent ← readOptional readBigInteger
  let keyPair ← lift (halves.elim (some none) fun h => (F.keyPair algorithm h).map some)
  return {
    uid, keyAlias, securityLevel, skipLeafHack, nspace, domain, keyPair, secretKey, chain
    metadataBytes
    params := { algorithm, keySize, ecCurve, purpose, digest, padding, blockMode, mgfDigest
                usageCountLimit, callerNonce, unlockedDeviceRequired, activeDateTime
                originationExpireDateTime, usageExpireDateTime, noAuthRequired, origin
                rsaPublicExponent } }

end TrickyStore
