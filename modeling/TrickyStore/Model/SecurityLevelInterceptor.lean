import TrickyStore.Model.Daemon

/-!
# The security level interceptor

The hooks of `SecurityLevelInterceptor` on `generateKey`, `importKey` and `createOperation`, and
`loadPersistedKeys`.  A request that does not parse, or lacks its descriptor, has `none` in its
place.  Logging and the padding of the reply time are left out.
-/

open Lib

namespace TrickyStore

def MAX_ATTESTATION_CHALLENGE_BYTES : ℕ := 128

/-- The tags that ask for device id attestation. -/
def isDeviceIdTag (tag : Int) : Bool :=
  tag = Tag.ATTESTATION_ID_IMEI || tag = Tag.ATTESTATION_ID_MEID ||
    tag = Tag.ATTESTATION_ID_SERIAL || tag = Tag.ATTESTATION_ID_SECOND_IMEI ||
      tag = Tag.DEVICE_UNIQUE_ATTESTATION

/-- The authorizations that `buildResponse` lists for a forged key. -/
def buildAuthorizations (P : Platform) (env : Env) (level : SecurityLevel)
    (params : KeyGenParameters) (callingUid : Int) : List Authorization :=
  let tee (tag : Int) (value : KeyParameterValue) : Authorization := ⟨⟨tag, value⟩, level.toInt⟩
  let sw (tag : Int) (value : KeyParameterValue) : Authorization := ⟨⟨tag, value⟩, 0⟩
  let effectiveKey := effectiveKeySize params
  [tee Tag.ALGORITHM (.algorithm params.algorithm)]
    ++ params.purpose.map (fun i => tee Tag.PURPOSE (.keyPurpose i))
    ++ params.blockMode.map (fun i => tee Tag.BLOCK_MODE (.blockMode i))
    ++ params.digest.map (fun i => tee Tag.DIGEST (.digest i))
    ++ params.padding.map (fun i => tee Tag.PADDING (.paddingMode i))
    ++ params.mgfDigest.map (fun i => tee Tag.RSA_OAEP_MGF_DIGEST (.digest i))
    ++ (if effectiveKey > 0 then [tee Tag.KEY_SIZE (.integer effectiveKey)] else [])
    ++ (if params.algorithm = Algorithm.EC ∧ params.ecCurve ≠ 0 then
          [tee Tag.EC_CURVE (.ecCurve params.ecCurve)] else [])
    ++ (params.rsaPublicExponent.map fun e => tee Tag.RSA_PUBLIC_EXPONENT (.longInteger (toLong e))).toList
    ++ (if params.noAuthRequired = some true then [tee Tag.NO_AUTH_REQUIRED (.boolValue true)]
        else [])
    ++ [tee Tag.ORIGIN (.origin (params.origin.getD 0)),
        tee Tag.OS_VERSION (.integer P.osVersion)]
    ++ (if env.patchLevel callingUid ≠ DO_NOT_REPORT then
          [tee Tag.OS_PATCHLEVEL (.integer (env.patchLevel callingUid))] else [])
    ++ (if env.vendorPatchLevelLong callingUid ≠ DO_NOT_REPORT then
          [tee Tag.VENDOR_PATCHLEVEL (.integer (env.vendorPatchLevelLong callingUid))] else [])
    ++ (if env.bootPatchLevelLong callingUid ≠ DO_NOT_REPORT then
          [tee Tag.BOOT_PATCHLEVEL (.integer (env.bootPatchLevelLong callingUid))] else [])
    ++ [sw Tag.CREATION_DATETIME (.dateTime env.currentTimeMillis)]
    ++ (params.activeDateTime.map fun t => sw Tag.ACTIVE_DATETIME (.dateTime t)).toList
    ++ (params.originationExpireDateTime.map fun t =>
          sw Tag.ORIGINATION_EXPIRE_DATETIME (.dateTime t)).toList
    ++ (params.usageExpireDateTime.map fun t => sw Tag.USAGE_EXPIRE_DATETIME (.dateTime t)).toList
    ++ (if params.usageCountLimit > 0 then
          [sw Tag.USAGE_COUNT_LIMIT (.integer params.usageCountLimit)] else [])
    ++ (params.unlockedDeviceRequired.map fun b =>
          sw Tag.UNLOCKED_DEVICE_REQUIRED (.boolValue b)).toList
    ++ (if params.callerNonce = some true then [tee Tag.CALLER_NONCE (.boolValue true)] else [])
    ++ [sw Tag.USER_ID (.integer (callingUid.tdiv 100000))]

/-- The response of a forged key with the id `nspace`, made at the time `serial`. -/
def buildResponse (P : Platform) (env : Env) (level : SecurityLevel) (chain : List Certificate)
    (params : KeyGenParameters) (nspace : Int) (callingUid : Int) (serial : ℕ) :
    KeyEntryResponse where
  metadata := ({
      key := some { domain := 4, nspace := nspace, keyAlias := none }
      keySecurityLevel := level.toInt
      authorizations := some (buildAuthorizations P env level params callingUid)
      modificationTimeMs := env.currentTimeMillis.tdiv 1000 } :
    KeyMetadata).putCertificateChain chain
  iSecurityLevel := some level
  serial := serial

/-- The entries that a new forged key puts into the maps. -/
def CertificateAliasCache.storeGenerated (c : CertificateAliasCache) (k : Key) (info : Info)
    (pair : KeyPair) (chain : List Certificate) (nspace : Int) (skipLeafHack : Bool) :
    CertificateAliasCache :=
  { c with
    keysByNspace := c.keysByNspace.insert nspace k
    keyPairs := c.keyPairs.insert k (pair, chain)
    keys := c.keys.insert k info
    usageRemaining :=
      if info.params.usageCountLimit > 0 then c.usageRemaining.insert k info.params.usageCountLimit
      else c.usageRemaining
    skipLeafHacks := if skipLeafHack then c.skipLeafHacks.insert k true else c.skipLeafHacks }

/-- The entries that a re-signed response of a real key puts into the maps. -/
def CertificateAliasCache.storePatched (c : CertificateAliasCache) (k : Key)
    (r : KeyEntryResponse) : CertificateAliasCache :=
  { c with patchedResponses := c.patchedResponses.insert k r }.register k r.nspace

namespace Daemon

variable (P : Platform) (env : Env) (level : SecurityLevel) (callingUid : Int)

/-! ## generateKey -/

/-- The generated key under the id drawn for it, as stored and as saved to disk. -/
def storeGeneratedKey (keyAlias : String) (domain : Int) (kgp : KeyGenParameters) (pair : KeyPair)
    (chain : List Certificate) (skipLeafHack : Bool) (d : Daemon) : Daemon × Result :=
  let k : Key := ⟨callingUid, keyAlias⟩
  let d' := (d.relinquishPassthroughOwnership k).clearSyntheticCertificateState k false
  let response := buildResponse P env level chain kgp env.nextLong callingUid d.clock
  let info : Info := { keyPair := some pair, secretKey := none, response := response, params := kgp }
  ({ d' with
      cache := d'.cache.storeGenerated k info pair chain env.nextLong skipLeafHack
      persistence := d'.persistence.saveKey
        { uid := callingUid, keyAlias := keyAlias, securityLevel := level.toInt
          skipLeafHack := skipLeafHack, nspace := env.nextLong, domain := domain
          keyPair := some pair, secretKey := none, chain := chain, params := kgp
          metadataBytes := some response.metadata } },
    .typedReply response.metadata)

/-- A `generateKey` request that passed the checks of the pre-hook. -/
structure KeygenRequest where
  descriptor : KeyDescriptor
  keyAlias : String
  attestationKeyDescriptor : Option KeyDescriptor
  kgp : KeyGenParameters
  hasDeviceIdAttestation : Bool
deriving DecidableEq, Repr

/-- The checks of the request; an error is the answer of the pre-hook. -/
def checkGenerateKey (keyDescriptor attestationKeyDescriptor : Option KeyDescriptor)
    (params : Option (List KeyParameter)) (d : Daemon) : Daemon × Except Result KeygenRequest :=
  match keyDescriptor, params with
  | some descriptor, some params =>
    let kgp := KeyGenParameters.ofParams P.x500Name params
    if kgp.attestationChallenge.any fun c => c.length > MAX_ATTESTATION_CHALLENGE_BYTES then
      (d, .error (.errorReply KeymasterDefs.KM_ERROR_INVALID_INPUT_LENGTH
        "Oversized attestation challenge"))
    else
      match descriptor.keyAlias with
      | none => (d, .error .Skip)
      | some keyAlias =>
        if params.any fun p => p.tag = Tag.CREATION_DATETIME then
          (d, .error (.errorReply ResponseCode.INVALID_ARGUMENT
            "CREATION_DATETIME is auto-injected"))
        else if params.any fun p => isDeviceIdTag p.tag then
          if d.config.hasPermissionForUid env.packageManager callingUid
              "android.permission.READ_PRIVILEGED_PHONE_STATE" then
            (d.resolved env callingUid,
              .ok ⟨descriptor, keyAlias, attestationKeyDescriptor, kgp, true⟩)
          else
            (d.resolved env callingUid, .error (.errorReply KeymasterDefs.KM_ERROR_CANNOT_ATTEST_IDS
              "Caller lacks READ_PRIVILEGED_PHONE_STATE"))
        else (d, .ok ⟨descriptor, keyAlias, attestationKeyDescriptor, kgp, false⟩)
  | _, _ => (d, .error .Skip)

/-- The route of a request that passed the checks; `none` leaves the request alone. -/
def selectedRoute (r : KeygenRequest) (d : Daemon) : Option Route :=
  let needGenerate := d.needGenerate env callingUid
  let hasAttestKeyPurpose := r.kgp.purpose.contains KeyPurpose.ATTEST_KEY
  let attestationKeyDescriptorSet := r.attestationKeyDescriptor.isSome
  let hasAttestationChallenge := r.kgp.attestationChallenge.isSome
  let forceForge := GenerateKeyRoute.computeForceForge needGenerate r.hasDeviceIdAttestation
    hasAttestKeyPurpose attestationKeyDescriptorSet
  if forceForge then
    if r.kgp.algorithm = Algorithm.AES ∨ r.kgp.algorithm = Algorithm.HMAC then
      some .forwardSymmetric
    else if !(hasAttestationChallenge || r.hasDeviceIdAttestation || hasAttestKeyPurpose ||
        attestationKeyDescriptorSet) then
      some .forwardPlainAsymmetric
    else some .generate
  else if d.needHack env callingUid then
    some (GenerateKeyRoute.selectTopLevelRoute forceForge true
      ((d.checked env callingUid).config.isExplicitLeafHack callingUid) hasAttestationChallenge
      needGenerate)
  else none

/-- The part of the pre-hook after the checks: forge the key, forward the request or leave it
alone. -/
def routeGenerateKey (r : KeygenRequest) (d₀ : Daemon) : Daemon × Result :=
  let d := d₀.checked env callingUid
  let k : Key := ⟨callingUid, r.keyAlias⟩
  match d₀.selectedRoute env callingUid r with
  | none => (d, .Skip)
  | some .forwardSymmetric | some .forwardPlainAsymmetric => (d, .Continue)
  | some .generate =>
    match d.generateKeyPair P env callingUid r.attestationKeyDescriptor r.kgp level.toInt with
    | none => (d, .Skip)
    | some (pair, chain) =>
      d.storeGeneratedKey P env level callingUid r.keyAlias r.descriptor.domain r.kgp pair chain
        (d.needHack env callingUid)
  | some .passthroughRealTee =>
    ({ d with pendingPassthroughKeys := d.pendingPassthroughKeys.insert (level, k) true
        }.clearSyntheticCertificateState k false, .Continue)
  | some _ =>
    ({ d with cache := { d.cache with skipLeafHacks := d.cache.skipLeafHacks.erase k } }, .Continue)

def preGenerateKey (keyDescriptor attestationKeyDescriptor : Option KeyDescriptor)
    (params : Option (List KeyParameter)) (d : Daemon) : Daemon × Result :=
  match d.checkGenerateKey P env callingUid keyDescriptor attestationKeyDescriptor params with
  | (d', .error r) => (d', r)
  | (d', .ok r) => d'.routeGenerateKey P env level callingUid r

/-- The route that the pre-hook selects, if the request gets that far. -/
def generateKeyRoute (keyDescriptor attestationKeyDescriptor : Option KeyDescriptor)
    (params : Option (List KeyParameter)) (d : Daemon) : Option Route :=
  match d.checkGenerateKey P env callingUid keyDescriptor attestationKeyDescriptor params with
  | (_, .error _) => none
  | (d', .ok r) => d'.selectedRoute env callingUid r

/-- The re-signing of a real reply with the chain `leaf :: rest`. -/
def patchGenerateKeyReply (keyAlias : String) (metadata : KeyMetadata) (chain : List Certificate)
    (d : Daemon) : Daemon × Result :=
  let k : Key := ⟨callingUid, keyAlias⟩
  let d' := (d.relinquishPassthroughOwnership k).clearSyntheticCertificateState k false
  let patched := d'.hackCertificateChain env chain callingUid
  let metadata' := { metadata.putCertificateChain patched with
    authorizations := patchAuthorizations env callingUid metadata.authorizations }
  let response : KeyEntryResponse :=
    { metadata := metadata', iSecurityLevel := some level, serial := d.clock }
  ({ d' with
      cache := d'.cache.storePatched k response
      config := if env.readsPatchLevels || metadata.authorizations.isSome then
          d.config.getOrPut env.packageManager callingUid
        else d.config },
    .typedReply metadata')

/-- The real key takes the alias over and is tracked. -/
def promotePassthrough (keyAlias : String) (metadata : Option KeyMetadata) (d : Daemon) : Daemon :=
  let k : Key := ⟨callingUid, keyAlias⟩
  let nspace := (metadata.bind KeyMetadata.key).map KeyDescriptor.nspace
  let d' := d.clearSyntheticCertificateState k true
  { d' with cache := d'.cache.register k nspace, passthrough := d'.passthrough.promote k nspace }

def postGenerateKey (keyDescriptor : Option KeyDescriptor) (reply : Option Parcel) (d₀ : Daemon) :
    Daemon × Result :=
  match reply, keyDescriptor.bind KeyDescriptor.keyAlias with
  | some reply, some keyAlias =>
    let k : Key := ⟨callingUid, keyAlias⟩
    let isPassthrough := d₀.pendingPassthroughKeys.lookup (level, k) = some true
    let d := { d₀ with pendingPassthroughKeys := d₀.pendingPassthroughKeys.erase (level, k) }
    match reply.readException with
    | none => (d, .Skip)
    | some body =>
      match body.readTypedObject Parcel.keyMetadataCreator with
      | none => (d, .Skip)
      | some (metadata, _) =>
        if isPassthrough then (d.promotePassthrough callingUid keyAlias metadata, .Skip)
        else
          match metadata with
          | none => (d, .Skip)
          | some metadata =>
            match metadata.certificate.bind P.toCertificate with
            | none => (d, .Skip)
            | some leaf =>
              let rest := (metadata.certificateChain.map P.toCertificates).getD []
              d.patchGenerateKeyReply env level callingUid keyAlias metadata (leaf :: rest)
  | _, _ => (d₀, .Skip)

/-! ## importKey -/

def preImportKey (d : Daemon) : Daemon × Result :=
  (d.checked env callingUid,
    if d.needHack env callingUid || d.needGenerate env callingUid then .Continue else .Skip)

def postImportKey (keyDescriptor : Option KeyDescriptor) (reply : Option Parcel) (d : Daemon) :
    Daemon × Result :=
  match reply.bind Parcel.readException, keyDescriptor.bind KeyDescriptor.keyAlias with
  | some _, some keyAlias => (d.cleanupKey ⟨callingUid, keyAlias⟩, .Skip)
  | _, _ => (d, .Skip)

/-! ## createOperation -/

/-- The usage check of `createOperation`: the counter is that of the key the descriptor resolves to
for the caller, the limit that of the key found. -/
def usageExhausted (descriptor : KeyDescriptor) (info : Info) (d : Daemon) : Bool :=
  match d.cache.resolveKey callingUid descriptor with
  | some key => info.params.usageCountLimit > 0 &&
      (d.cache.usageRemaining.lookup key).any fun remaining => remaining ≤ 0
  | none => false

def preCreateOperation (descriptor : Option KeyDescriptor) (opParams : List KeyParameter)
    (force : Bool) (d : Daemon) : Daemon × Result :=
  match descriptor with
  | none => (d, .Skip)
  | some descriptor =>
    match d.cache.findGeneratedOwner callingUid descriptor with
    | none => (d, .Skip)
    | some (owner, info) =>
      let origin : Origin := ⟨owner, info.response.serial⟩
      let opRequest := OpRequest.parse opParams
      if force then
        (d, .errorReply ResponseCode.PERMISSION_DENIED
          "Forced operations require system privilege" origin)
      else if d.usageExhausted callingUid descriptor info then
        (d, .errorReply ResponseCode.KEY_NOT_FOUND "Key usage limit exhausted" origin)
      else
        match authorizeOperation info.params opRequest env.currentTimeMillis with
        | some errCode => (d, .errorReply errCode "Operation not authorized" origin)
        | none =>
          match SoftwareOperationBinder.create P.jca info opRequest
              (d.cache.resolveKey callingUid descriptor) origin with
          | .error _ => (d, .Skip)
          | .ok op =>
            ({ d with operations := d.operations ++ [op] },
              .OverrideReply 0 (.operation d.operations.length (op.beginParameters P.jca)) origin)

/-! ## Restoring the persisted keys -/

/-- The round of `loadPersistedKeys` for one file. -/
def restoreKey (d : Daemon) (pk : PersistedKey) : Daemon :=
  let response : KeyEntryResponse :=
    match pk.metadataBytes with
    | some metadata =>
      { metadata := metadata, iSecurityLevel := some level, serial := d.clock }
    | none => buildResponse P env level pk.chain pk.params pk.nspace pk.uid d.clock
  let k := pk.key
  let c := d.cache
  { d with cache := { c with
      keys := c.keys.insert k
        { keyPair := pk.keyPair, secretKey := pk.secretKey, response := response
          params := pk.params }
      keyPairs := match pk.keyPair with
        | some pair => c.keyPairs.insert k (pair, pk.chain)
        | none => c.keyPairs
      keysByNspace := if pk.nspace ≠ 0 then c.keysByNspace.insert pk.nspace k else c.keysByNspace
      skipLeafHacks := if pk.skipLeafHack then c.skipLeafHacks.insert k true
        else c.skipLeafHacks } }

def loadPersistedKeys (d : Daemon) : Daemon :=
  (d.persistence.loadAll.filter fun pk => pk.securityLevel = level.toInt).foldl
    (restoreKey P env level) d

end Daemon

end TrickyStore
