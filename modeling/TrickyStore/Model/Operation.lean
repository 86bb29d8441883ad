import TrickyStore.Model.CertificateAliasCache

/-!
# Software operations

What `createOperation` builds for a forged key: the request is parsed (`OpRequest.parse`), checked
against the key's parameters (`authorizeOperation`) and turned into an engine of the Java crypto
providers (`SoftwareOperationBinder.create`).  The binder then takes `update`, `updateAad`, `finish`
and `abort` calls; `finish` charges the usage counter of the key.

The crypto providers are not part of the repository: whether an engine can be set up is a parameter,
and what a method of the engine returns or throws comes with the call.
-/

open Lib

namespace TrickyStore

structure OpRequest where
  purpose : Int := -1
  digest : Int := 0
  padding : Int := 0
  blockMode : Int := 0
  nonce : Option Bytes := none
  macLength : Option Int := none
  mgfDigest : Int := 0
deriving DecidableEq, Repr

namespace OpRequest

/-- One round of the loop of `parse`; `none` when the getter throws. -/
def assign (o : OpRequest) (p : KeyParameter) : Option OpRequest :=
  let v := p.value
  if p.tag = Tag.PURPOSE then v.getKeyPurpose.map fun x => { o with purpose := x }
  else if p.tag = Tag.DIGEST then v.getDigest.map fun x => { o with digest := x }
  else if p.tag = Tag.PADDING then v.getPaddingMode.map fun x => { o with padding := x }
  else if p.tag = Tag.BLOCK_MODE then v.getBlockMode.map fun x => { o with blockMode := x }
  else if p.tag = Tag.NONCE then v.getBlob.map fun x => { o with nonce := some x }
  else if p.tag = Tag.MAC_LENGTH then v.getInteger.map fun x => { o with macLength := some x }
  else if p.tag = Tag.RSA_OAEP_MGF_DIGEST then v.getDigest.map fun x => { o with mgfDigest := x }
  else some o

def parse (params : List KeyParameter) : OpRequest :=
  params.foldl (fun o p => (o.assign p).getD o) {}

end OpRequest

/-- The error that refuses the operation at the time `now`, if any. -/
def authorizeOperation (keyParams : KeyGenParameters) (op : OpRequest) (now : Int) : Option Int :=
  let purpose := op.purpose
  let isAsymmetric := keyParams.algorithm = Algorithm.EC ∨ keyParams.algorithm = Algorithm.RSA
  let effectiveMgfDigest :=
    if op.mgfDigest ≠ 0 then op.mgfDigest else KeymasterDefs.KM_DIGEST_SHA1
  if purpose < 0 then some KeymasterDefs.KM_ERROR_INVALID_ARGUMENT
  else if isAsymmetric ∧ (purpose = KeyPurpose.VERIFY ∨ purpose = KeyPurpose.ENCRYPT) then
    some KeymasterDefs.KM_ERROR_UNSUPPORTED_PURPOSE
  else if purpose = KeyPurpose.AGREE_KEY ∧ keyParams.algorithm ≠ Algorithm.EC then
    some KeymasterDefs.KM_ERROR_UNSUPPORTED_PURPOSE
  else if purpose ∉ keyParams.purpose then some KeymasterDefs.KM_ERROR_INCOMPATIBLE_PURPOSE
  else if keyParams.activeDateTime.any fun t => now < t then
    some KeymasterDefs.KM_ERROR_KEY_NOT_YET_VALID
  else if (purpose = KeyPurpose.SIGN ∨ purpose = KeyPurpose.ENCRYPT) ∧
      (keyParams.originationExpireDateTime.any fun t => t < now) then
    some KeymasterDefs.KM_ERROR_KEY_EXPIRED
  else if (purpose = KeyPurpose.DECRYPT ∨ purpose = KeyPurpose.VERIFY) ∧
      (keyParams.usageExpireDateTime.any fun t => t < now) then
    some KeymasterDefs.KM_ERROR_KEY_EXPIRED
  else if op.nonce ≠ none ∧ (purpose = KeyPurpose.ENCRYPT ∨ purpose = KeyPurpose.SIGN) ∧
      keyParams.callerNonce ≠ some true then
    some KeymasterDefs.KM_ERROR_CALLER_NONCE_PROHIBITED
  else if keyParams.digest ≠ [] ∧ op.digest ∉ keyParams.digest then
    some KeymasterDefs.KM_ERROR_UNSUPPORTED_DIGEST
  else if keyParams.padding ≠ [] ∧ op.padding ∉ keyParams.padding then
    some KeymasterDefs.KM_ERROR_UNSUPPORTED_PADDING_MODE
  else if keyParams.blockMode ≠ [] ∧ op.blockMode ∉ keyParams.blockMode then
    some KeymasterDefs.KM_ERROR_UNSUPPORTED_BLOCK_MODE
  else if keyParams.mgfDigest ≠ [] ∧ effectiveMgfDigest ∉ keyParams.mgfDigest then
    some KeymasterDefs.KM_ERROR_UNSUPPORTED_MGF_DIGEST
  else none

/-! ## Engines -/

/-- The exceptions that `finish` tells apart. -/
inductive Throwable where
  | serviceSpecific (errorCode : Int) (message : String)
  | aeadBadTag
  | other (message : Option String)
deriving DecidableEq, Repr

/-- The key a cipher is initialised with: the secret key or a half of the pair. -/
inductive CipherKey where
  | secret (k : SecretKey)
  | half (encoded : Bytes)
deriving DecidableEq, Repr

inductive CipherSpec where
  | gcm (macLength : Int) (nonce : Bytes)
  | oaep (digest mgf1Digest : String)
  | iv (nonce : Bytes)
deriving DecidableEq, Repr

/-- An engine, described by what it is set up with. -/
inductive OpEngine where
  | signature (algorithm : String) (key : Bytes) (verify : Bool)
  | mac (algorithm : String) (key : SecretKey) (verify : Bool)
  | keyAgreement (algorithm : String) (key : Bytes)
  | cipher (transformation : String) (encrypt : Bool) (key : CipherKey) (spec : Option CipherSpec)
deriving DecidableEq, Repr

/-- The crypto providers: what setting an engine up throws, if anything, and the initialisation
vector of a cipher that is set up. -/
structure Jca where
  init : OpEngine → Option Throwable
  iv : OpEngine → Option Bytes

namespace SoftwareOperationBinder

def mgf1ParameterSpec (digest : Int) : String :=
  if digest = KeymasterDefs.KM_DIGEST_SHA1 then "SHA-1"
  else if digest = KeymasterDefs.KM_DIGEST_SHA_2_224 then "SHA-224"
  else if digest = KeymasterDefs.KM_DIGEST_SHA_2_256 then "SHA-256"
  else if digest = KeymasterDefs.KM_DIGEST_SHA_2_384 then "SHA-384"
  else if digest = KeymasterDefs.KM_DIGEST_SHA_2_512 then "SHA-512"
  else "SHA-1"

def signatureAlgorithm (algorithm digest : Int) (padding : Option Int) : Except Throwable String :=
  if algorithm = Algorithm.EC then .ok (digestName digest false ++ "withECDSA")
  else if algorithm = Algorithm.RSA then
    if padding = some KeymasterDefs.KM_PAD_RSA_PSS then
      .ok (digestName digest false ++ "withRSA/PSS")
    else .ok (digestName digest false ++ "withRSA")
  else .error (.serviceSpecific KeymasterDefs.KM_ERROR_UNSUPPORTED_PURPOSE
    "Unsupported signature algorithm")

/-- `keyPair!!`, which throws without a message. -/
def requireKeyPair (info : Info) : Except Throwable KeyPair :=
  match info.keyPair with
  | some p => .ok p
  | none => .error (.other none)

def buildCipher (op : OpRequest) (digest : Int) (padding blockMode : Option Int) (info : Info)
    (purpose : Int) : Except Throwable OpEngine := do
  let keyAlgo ←
    if info.params.algorithm = Algorithm.RSA then .ok "RSA"
    else if info.params.algorithm = Algorithm.AES then .ok "AES"
    else .error (.serviceSpecific KeymasterDefs.KM_ERROR_UNSUPPORTED_PURPOSE
      "Unsupported cipher algorithm")
  let mode :=
    if blockMode = some KeymasterDefs.KM_MODE_ECB then "ECB"
    else if blockMode = some KeymasterDefs.KM_MODE_CBC then "CBC"
    else if blockMode = some KeymasterDefs.KM_MODE_CTR then "CTR"
    else if blockMode = some KeymasterDefs.KM_MODE_GCM then "GCM"
    else "ECB"
  let pad :=
    if padding = some KeymasterDefs.KM_PAD_NONE then "NoPadding"
    else if padding = some KeymasterDefs.KM_PAD_RSA_OAEP then "OAEPPadding"
    else if padding = some KeymasterDefs.KM_PAD_RSA_PKCS1_1_5_ENCRYPT ∨
        padding = some KeymasterDefs.KM_PAD_RSA_PKCS1_1_5_SIGN then "PKCS1Padding"
    else if padding = some KeymasterDefs.KM_PAD_PKCS7 then "PKCS7Padding"
    else "NoPadding"
  let encrypt := decide (purpose = KeyPurpose.ENCRYPT)
  let spec :=
    if blockMode = some KeymasterDefs.KM_MODE_GCM then
      some (.gcm (op.macLength.getD 128) (op.nonce.getD (List.replicate 12 0)))
    else if padding = some KeymasterDefs.KM_PAD_RSA_OAEP then
      some (.oaep (digestName digest true) (mgf1ParameterSpec op.mgfDigest))
    else op.nonce.map CipherSpec.iv
  let key ←
    match info.secretKey with
    | some k => .ok (CipherKey.secret k)
    | none => do
      let pair ← requireKeyPair info
      .ok (CipherKey.half (if encrypt then pair.publicKey else pair.privateKey))
  return .cipher (keyAlgo ++ "/" ++ mode ++ "/" ++ pad) encrypt key spec

/-- The engine that `create` sets up, or the exception it throws before. -/
def selectEngine (info : Info) (op : OpRequest) : Except Throwable OpEngine := do
  let p := info.params
  let purpose ←
    if op.purpose ≥ 0 then .ok op.purpose
    else match p.purpose.head? with
      | some q => .ok q
      | none => .error (.serviceSpecific KeymasterDefs.KM_ERROR_INVALID_ARGUMENT
          "No key purpose specified")
  let digest :=
    if op.digest ≠ 0 then op.digest
    else (p.digest.find? fun x => x ≠ 0).getD KeymasterDefs.KM_DIGEST_SHA_2_256
  let padding := if op.padding ≠ 0 then some op.padding else p.padding.head?
  let blockMode := if op.blockMode ≠ 0 then some op.blockMode else p.blockMode.head?
  if p.algorithm = Algorithm.HMAC then
    if purpose ≠ KeyPurpose.SIGN ∧ purpose ≠ KeyPurpose.VERIFY then
      .error (.serviceSpecific KeymasterDefs.KM_ERROR_UNSUPPORTED_PURPOSE
        s!"Unsupported purpose for HMAC: {purpose}")
    else match info.secretKey with
      | some k => .ok (.mac ("Hmac" ++ digestName digest false) k (purpose = KeyPurpose.VERIFY))
      | none => .error (.serviceSpecific KeymasterDefs.KM_ERROR_INVALID_ARGUMENT
          "HMAC operation has no secret key")
  else if p.algorithm = Algorithm.EC ∨ p.algorithm = Algorithm.RSA then
    if purpose = KeyPurpose.SIGN then do
      let algorithm ← signatureAlgorithm p.algorithm digest padding
      let pair ← requireKeyPair info
      .ok (.signature algorithm pair.privateKey false)
    else if purpose = KeyPurpose.VERIFY then do
      let algorithm ← signatureAlgorithm p.algorithm digest padding
      let pair ← requireKeyPair info
      .ok (.signature algorithm pair.publicKey true)
    else if purpose = KeyPurpose.AGREE_KEY then do
      let pair ← requireKeyPair info
      .ok (.keyAgreement "ECDH" pair.privateKey)
    else if purpose = KeyPurpose.ENCRYPT ∨ purpose = KeyPurpose.DECRYPT then
      buildCipher op digest padding blockMode info purpose
    else .error (.serviceSpecific KeymasterDefs.KM_ERROR_UNSUPPORTED_PURPOSE
      s!"Unsupported purpose: {purpose}")
  else if p.algorithm = Algorithm.AES then
    if purpose = KeyPurpose.ENCRYPT ∨ purpose = KeyPurpose.DECRYPT then
      buildCipher op digest padding blockMode info purpose
    else .error (.serviceSpecific KeymasterDefs.KM_ERROR_UNSUPPORTED_PURPOSE
      s!"Unsupported purpose: {purpose}")
  else .error (.serviceSpecific KeymasterDefs.KM_ERROR_UNSUPPORTED_PURPOSE
    s!"Unsupported algorithm: {p.algorithm}")

end SoftwareOperationBinder

/-! ## The operation binder -/

/-- An entry of `keys` or `patchedResponses`: the key it stands under and the identity of its
response object. -/
structure Origin where
  key : Key
  serial : ℕ
deriving DecidableEq, Repr

/-- An operation.  `origin` and `passes` record the entry whose material the engine holds and how
many `finish` calls got past `consumeUsage`; the code reads neither. -/
structure SoftwareOperationBinder where
  engine : OpEngine
  usageKey : Option Key
  usageCountLimit : Int
  active : Bool := true
  origin : Origin
  passes : ℕ := 0
deriving DecidableEq, Repr

def MAX_RECEIVE_DATA : ℕ := 0x8000

namespace SoftwareOperationBinder

def create (jca : Jca) (info : Info) (op : OpRequest) (usageKey : Option Key) (origin : Origin) :
    Except Throwable SoftwareOperationBinder := do
  let engine ← selectEngine info op
  match jca.init engine with
  | some t => .error t
  | none => .ok { engine, usageKey, usageCountLimit := info.params.usageCountLimit, origin }

/-- The parameters of the reply: the initialisation vector of a cipher that has one. -/
def beginParameters (jca : Jca) (op : SoftwareOperationBinder) : Option (List KeyParameter) :=
  match op.engine with
  | .cipher .. => (jca.iv op.engine).map fun iv => [⟨Tag.NONCE, .blob iv⟩]
  | _ => none

def checkActive (op : SoftwareOperationBinder) : Except Throwable Unit :=
  if op.active then .ok ()
  else .error (.serviceSpecific KeymasterDefs.KM_ERROR_INVALID_OPERATION_HANDLE
    "Operation is no longer active")

def checkInput (data : Option Bytes) : Except Throwable Unit :=
  match data with
  | none => .ok ()
  | some b =>
    if b.length > MAX_RECEIVE_DATA then
      .error (.serviceSpecific ResponseCode.TOO_MUCH_DATA s!"Oversized input ({b.length}B)")
    else .ok ()

/-- `consumeUsage` on the shared counters: whether the call is allowed, and the counters after it.
An absent counter stands for the limit the operation was created with. -/
def consumeUsage (op : SoftwareOperationBinder) (usageRemaining : HashMap Key Int) :
    Bool × HashMap Key Int :=
  match op.usageKey with
  | none => (true, usageRemaining)
  | some k =>
    if op.usageCountLimit ≤ 0 then (true, usageRemaining)
    else
      let cur := (usageRemaining.lookup k).getD op.usageCountLimit
      if cur ≤ 0 then (false, usageRemaining.insert k cur)
      else (true, usageRemaining.insert k (cur - 1))

/-- How `finish` reports what its engine does. -/
def finishOutcome : Except Throwable (Option Bytes) → Except Throwable (Option Bytes)
  | .ok output => .ok output
  | .error (.serviceSpecific c m) => .error (.serviceSpecific c m)
  | .error .aeadBadTag => .error (.serviceSpecific KeymasterDefs.KM_ERROR_VERIFICATION_FAILED
      "GCM tag verification failed")
  | .error (.other m) => .error (.serviceSpecific KeymasterDefs.KM_ERROR_VERIFICATION_FAILED
      (m.getD "operation failed"))

/-- A call on the operation.  What the engine's method does comes with the call. -/
inductive Call where
  | update (input : Option Bytes) (engine : Except Throwable (Option Bytes))
  | updateAad (aadInput : Option Bytes) (engine : Except Throwable Unit)
  | finish (input : Option Bytes) (engine : Except Throwable (Option Bytes))
  | abort

/-- What a call returns or throws. -/
abbrev Outcome := Except Throwable (Option Bytes)

def update (op : SoftwareOperationBinder) (input : Option Bytes) (engine : Outcome) : Outcome := do
  op.checkActive
  checkInput input
  engine

/-- An exception of the engine ends the operation. -/
def updateAad (op : SoftwareOperationBinder) (aadInput : Option Bytes)
    (engine : Except Throwable Unit) : SoftwareOperationBinder × Outcome :=
  match op.checkActive, checkInput aadInput with
  | .error t, _ => (op, .error t)
  | .ok (), .error t => (op, .error t)
  | .ok (), .ok () =>
    match engine with
    | .ok () => (op, .ok none)
    | .error t => ({ op with active := false }, .error t)

/-- A denial of `consumeUsage` leaves the operation active: it stands outside the `try` whose
`finally` ends it. -/
def finish (op : SoftwareOperationBinder) (usageRemaining : HashMap Key Int)
    (input : Option Bytes) (engine : Outcome) :
    SoftwareOperationBinder × HashMap Key Int × Outcome :=
  match op.checkActive, checkInput input with
  | .error t, _ => (op, usageRemaining, .error t)
  | .ok (), .error t => (op, usageRemaining, .error t)
  | .ok (), .ok () =>
    match op.consumeUsage usageRemaining with
    | (false, u) => (op, u, .error (.serviceSpecific KeymasterDefs.KM_ERROR_KEY_EXPIRED
        "Key usage limit expired"))
    | (true, u) => ({ op with active := false, passes := op.passes + 1 }, u, finishOutcome engine)

def call (op : SoftwareOperationBinder) (usageRemaining : HashMap Key Int) :
    Call → SoftwareOperationBinder × HashMap Key Int × Outcome
  | .update input engine => (op, usageRemaining, op.update input engine)
  | .updateAad aadInput engine =>
    ((op.updateAad aadInput engine).1, usageRemaining, (op.updateAad aadInput engine).2)
  | .finish input engine => op.finish usageRemaining input engine
  | .abort => ({ op with active := false }, usageRemaining, .ok none)

end SoftwareOperationBinder

end TrickyStore
