import TrickyStore.Model.CertificateHack
import TrickyStore.Native.WireFormat

/-!
# The legacy keystore

`KeystoreInterceptor` serves Android 10 and 11.  A key is made by four transactions, whose results go
to callbacks; its certificates are read with `get`, under an alias with a prefix.  `KeymasterArguments`
is a list of tagged values.  Reply parcels are bytes, since what a client gets is compared with what the
keystore sent.
-/

open Lib

namespace TrickyStore

namespace Credentials
def USER_CERTIFICATE : String := "USRCERT_"
def CA_CERTIFICATE : String := "CACERT_"
end Credentials

/-- `KeyStore.NO_ERROR`. -/
def NO_ERROR : BitVec 32 := 1

/-- `extractAlias`: what stands between the first two underscores, or the whole. -/
def extractAlias (s : String) : String :=
  if '_' ∈ s.toList then
    String.ofList (((s.toList.dropWhile (· ≠ '_')).drop 1).takeWhile (· ≠ '_'))
  else s

def hasPrefix (s p : String) : Bool := p.toList.isPrefixOf s.toList

/-! ## Arguments -/

inductive KeymasterValue where
  | int (v : Int)
  | long (v : Int)
  | date (v : Int)
  | bytes (v : Bytes)
  | boolean
deriving DecidableEq, Repr

structure KeymasterArgument where
  tag : Int
  value : KeymasterValue
deriving DecidableEq, Repr

abbrev KeymasterArguments := List KeymasterArgument

namespace KeymasterArguments

variable (kma : KeymasterArguments) (tag : Int)

def getArgumentByTag : Option KeymasterValue :=
  (kma.find? fun a => a.tag = tag).map KeymasterArgument.value

/-- The getters throw (`none`) on a value of another type. -/
def getInt (defaultValue : Int) : Option Int :=
  match kma.getArgumentByTag tag with
  | none => some defaultValue
  | some (.int v) => some v
  | some _ => none

def getDate (defaultValue : Int) : Option Int :=
  match kma.getArgumentByTag tag with
  | none => some defaultValue
  | some (.date v) => some v
  | some _ => none

def getBytes (defaultValue : Bytes) : Option Bytes :=
  match kma.getArgumentByTag tag with
  | none => some defaultValue
  | some (.bytes v) => some v
  | some _ => none

def getLong : Option Int :=
  match kma.getArgumentByTag tag with
  | some (.long v) => some v
  | _ => none

def getEnums : Option (List Int) :=
  (kma.filter fun a => a.tag = tag).mapM fun a =>
    match a.value with
    | .int v => some v
    | _ => none

/-- What `generateKey` makes of its arguments. -/
def keyGenParameters (env : Env) : Option KeyGenParameters := do
  let algorithm ← kma.getInt Tag.ALGORITHM 0
  let keySize ← kma.getInt Tag.KEY_SIZE 0
  let purpose ← kma.getEnums Tag.PURPOSE
  let digest ← kma.getEnums Tag.DIGEST
  let notBefore ← kma.getDate Tag.ACTIVE_DATETIME env.currentTimeMillis
  return {
    algorithm, keySize, purpose, digest
    certificateNotBefore := some notBefore
    -- a failure to read the exponent is only logged
    rsaPublicExponent := if algorithm = Algorithm.RSA then kma.getLong Tag.RSA_PUBLIC_EXPONENT else none }

end KeymasterArguments

/-! ## Transactions -/

inductive LegacyTransaction where
  | get
  | generateKey
  | getKeyCharacteristics
  | exportKey
  | attestKey
deriving DecidableEq, Repr

/-- A request as its hook reads it.  `enforced` tells whether `enforceInterface` passes, `callback`
whether the callback can be called, `arguments` are there when the flag before them is one. -/
structure LegacyRequest where
  code : LegacyTransaction
  toKeystore : Bool := true
  enforced : Bool := true
  callback : Bool := true
  keyAlias : Option String := none
  arguments : Option KeymasterArguments := none
deriving DecidableEq, Repr

/-- What a callback is called with, always with a response of success. -/
inductive LegacyCallback where
  | keyCharacteristics (hwEnforced : KeymasterArguments)
  | exportResult (publicKey : Bytes)
  | certificateChain (chain : Option (List Bytes))
deriving DecidableEq, Repr

structure KeystoreInterceptor where
  shared : Daemon := {}
  keyArguments : HashMap Key KeyGenParameters := ∅
  keyPairs : HashMap Key KeyPair := ∅

namespace KeystoreInterceptor

open CertificateHack ByteParcel

abbrev Answer := KeystoreInterceptor × BinderInterceptor.Result × List LegacyCallback

def createSuccessReply : BinderInterceptor.Result :=
  .OverrideReply 0 (written do writeNoException; writeInt NO_ERROR)

def byteArrayReply (b : Bytes) : Bytes := written do writeNoException; writeByteArray b

def createByteArrayReply (b : Bytes) : BinderInterceptor.Result := .OverrideReply NO_ERROR (byteArrayReply b)

variable (s : KeystoreInterceptor) (P : Platform) (x : X509) (env : Env) (callingUid : Int)
  (request : LegacyRequest)

def checked : KeystoreInterceptor := { s with shared := s.shared.checked env callingUid }

/-- `CertificateGen.generateKeyPair` of the parameters alone. -/
def generateKeyPair (params : KeyGenParameters) : Option KeyPair :=
  if params.algorithm = Algorithm.EC ∨ params.algorithm = Algorithm.RSA then env.generateKeyPair params else none

/-- `CertificateGen.generateChain`. -/
def generateChain (params : KeyGenParameters) (keyPair : KeyPair) : Option (List Bytes) := do
  let keybox ← s.shared.getKeyboxForAlgorithm params.algorithm
  let keyboxCert ← keybox.certificates.head?
  let leaf ← env.buildCertificate
    { keyPair, keybox, params, issuer := P.subject keyboxCert, uid := callingUid, securityLevel := 1,
      signingKeyPair := keybox.keyPair }
  return (leaf :: keybox.certificates).map Certificate.encoded

/-- The call of the callback, and the success that the hook then answers. -/
def called (callback : LegacyCallback) : Answer :=
  if request.callback then (s, createSuccessReply, [callback]) else (s, .Skip, [])

def generateKey (k : Key) : Answer :=
  match request.arguments with
  | none => s.called request (.keyCharacteristics [])
  | some kma =>
    match kma.keyGenParameters env with
    | none => (s, .Skip, [])
    | some kgp =>
      { s with keyArguments := s.keyArguments.insert k kgp }.called request (.keyCharacteristics kma)

def getKeyCharacteristics (k : Key) : Answer :=
  match s.keyArguments.lookup k with
  | none => (s, .Skip, [])
  | some kgp => s.called request (.keyCharacteristics [⟨Tag.ALGORITHM, .int kgp.algorithm⟩])

def exportKey (k : Key) : Answer :=
  match (s.keyArguments.lookup k).bind (generateKeyPair env) with
  | none => (s, .Skip, [])
  | some kp => { s with keyPairs := s.keyPairs.insert k kp }.called request (.exportResult kp.publicKey)

/-- The challenge stays in the stored parameters. -/
def attestKey (k : Key) : Answer :=
  match request.arguments with
  | none => (s, createSuccessReply, [])
  | some kma =>
    match kma.getBytes Tag.ATTESTATION_CHALLENGE [], s.keyArguments.lookup k with
    | some challenge, some kgp =>
      let ka := { kgp with attestationChallenge := some challenge }
      let s' := { s with keyArguments := s.keyArguments.insert k ka }
      match s.keyPairs.lookup k with
      | none => (s', .Skip, [])
      | some kp => s'.called request (.certificateChain (s.generateChain P env callingUid ka kp))
    | _, _ => (s, .Skip, [])

/-- The four transactions of a forged key; what throws is answered with `Skip`. -/
def generate : Answer :=
  match request.enforced, request.keyAlias with
  | true, some name =>
    let k : Key := ⟨callingUid, extractAlias name⟩
    match request.code with
    | .get => (s, .Skip, [])
    | .generateKey => s.generateKey env request k
    | .getKeyCharacteristics => s.getKeyCharacteristics request k
    | .exportKey => s.exportKey env request k
    | .attestKey => s.attestKey P env callingUid request k
  | _, _ => (s, .Skip, [])

def onPreTransact : Answer :=
  if !s.shared.hasKeyboxes then (s, .Skip, [])
  else
    let s' := s.checked env callingUid
    if request.code = .get then
      if s.shared.needHack env callingUid then (s', .Continue, []) else (s'.checked env callingUid, .Skip, [])
    else if s.shared.needGenerate env callingUid then s'.generate P env callingUid request
    else (s', .Skip, [])

/-- The certificate behind an alias, or its chain, as the client is to see it. -/
def hackResponse (name : String) (response : Bytes) : Option (Daemon × Bytes) :=
  let k : Key := ⟨callingUid, extractAlias name⟩
  if hasPrefix name Credentials.USER_CERTIFICATE then some (hackUserCertificate x env s.shared response k)
  else if hasPrefix name Credentials.CA_CERTIFICATE then some (hackCACertificateChain s.shared response k)
  else none

/-- The bytes of the array in a reply without an exception. -/
def replyValue (reply : Bytes) : Option Bytes :=
  (((do readException; createByteArray : ParcelM (Option Bytes)) ⟨reply, 0⟩).bind fun r => r.1)

/-- The post-hook does not ask for the mode of the caller. -/
def onPostTransact (reply : Option Bytes) : KeystoreInterceptor × BinderInterceptor.Result :=
  if !request.toKeystore || request.code ≠ .get || !request.enforced then (s, .Skip)
  else
    match reply.bind replyValue with
    | none => (s, .Skip)
    | some response =>
      match s.hackResponse x env callingUid (request.keyAlias.getD "") response with
      | none => (s, .Skip)
      | some (shared, response) => ({ s with shared }, createByteArrayReply response)

/-- A transaction with the answer that the keystore has for it. -/
def transact (real : BitVec 32 × Option Bytes) : KeystoreInterceptor × BitVec 32 × Option Bytes :=
  match s.onPreTransact P env callingUid request with
  | (s', .Skip, _) => (s', real)
  | (s', .OverrideReply code reply, _) => (s', code, some reply)
  | (s', .Continue, _) =>
    let reply := real.2.filter fun b => b ≠ []
    match s'.onPostTransact x env callingUid request reply with
    | (s'', .OverrideReply code reply) => (s'', code, some reply)
    | (s'', _) => (s'', real)

end KeystoreInterceptor

end TrickyStore
