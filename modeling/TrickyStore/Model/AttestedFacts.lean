import TrickyStore.Lib.HashMap
import TrickyStore.Model.AttestData
import TrickyStore.Model.DeviceSecrets
import TrickyStore.Model.PatchLevels
import TrickyStore.Model.TeeProbe

/-!
# What forged attestations say of the device

Some facts are asked of the platform, some are taken from the attestation of the real hardware once the
probe has made one, and some from files.  What has been found is kept for the rest of the process, each
fact in its own way.  The attestations here do not overlap: a binder thread takes the facts of one without
another thread in between, and the probe thread and the threads in `checkNeed` take their steps between two
attestations.  `attestationVersions` looks its map up and puts into it without a lock, so that of two that
overlap both may ask the platform, and report two answers.
-/

open Lib

namespace TrickyStore

structure AttestationVersions where
  attestation : Int
  keymaster : Int
deriving DecidableEq, Repr

/-- What the platform answers while an attestation is built; `none` for a service that is missing or
fails. -/
structure PlatformAnswers where
  /-- The interface version of an instance of `IKeyMintDevice`. -/
  interfaceVersion : String → Option Int := fun _ => none
  /-- The security level and the version number of a device of `IKeystoreCompatService`. -/
  hardwareInfo : Int → Option (Int × Int) := fun _ => none
  supplementaryAttestationInfo : Option Bytes := none

namespace KeyMintVersionResolver

variable (answers : PlatformAnswers)

def keyMintInstance (securityLevel : Int) : Option String :=
  if securityLevel = SecurityLevel.trustedEnvironment.toInt then some "default"
  else if securityLevel = SecurityLevel.strongbox.toInt then some "strongbox"
  else none

def nativeKeyMintVersions (securityLevel : Int) : Option AttestationVersions := do
  let service ← keyMintInstance securityLevel
  let interfaceVersion ← answers.interfaceVersion service
  if interfaceVersion ≤ 0 then none
  else
    let version := AndroidUtils.wrap (interfaceVersion * 100)
    return ⟨version, version⟩

def legacyKeymasterVersions (versionNumber : Int) : Option AttestationVersions :=
  if versionNumber = 20 then some ⟨1, 2⟩
  else if versionNumber = 30 then some ⟨2, 3⟩
  else if versionNumber = 40 then some ⟨3, 4⟩
  else if versionNumber = 41 then some ⟨4, 41⟩
  else none

def compatKeymasterVersions (securityLevel : Int) : Option AttestationVersions := do
  let (level, versionNumber) ← answers.hardwareInfo securityLevel
  if level = securityLevel then legacyKeymasterVersions versionNumber else none

def resolve (securityLevel : Int) : Option AttestationVersions :=
  (nativeKeyMintVersions answers securityLevel).or (compatKeymasterVersions answers securityLevel)

end KeyMintVersionResolver

namespace AndroidUtils

/-- The versions of Android by their API levels. -/
def osVersionMap : List (Int × Int) :=
  [(37, 170000), (36, 160000), (35, 150000), (34, 140000), (33, 130000), (32, 120100), (31, 120000),
    (30, 110000), (29, 100000)]

def attestVersionMap : List (Int × Int) :=
  [(29, 4), (30, 4), (31, 100), (32, 100), (33, 200), (34, 300), (35, 300), (36, 400), (37, 500)]

def keymasterVersionForAttestation (attestationVersion : Int) : Int :=
  if attestationVersion = 4 then 41 else attestationVersion

/-- The versions that are reported as long as the exact ones are not known. -/
def fallbackVersions (sdk : Int) : AttestationVersions :=
  let attestation := (attestVersionMap.lookup sdk).getD 500
  ⟨attestation, keymasterVersionForAttestation attestation⟩

def fallbackOsVersion (sdk : Int) : Int := (osVersionMap.lookup sdk).getD 170000

/-- The value of `ro.boot.vbmeta.digest`, if it is a hash. -/
def getBootHashFromProp (digest : Option (List Char)) : Option Bytes :=
  digest.bind fun digest =>
    if digest.all isWhitespace then none else if digest.length = 64 then ofHex digest else none

end AndroidUtils

/-- What one attestation says of the device. -/
structure AttestedDevice where
  securityLevel : Int
  versions : AttestationVersions
  bootKey : Bytes
  bootHash : Bytes
  osVersion : Int
  moduleHash : Bytes
deriving DecidableEq, Repr

/-- The facts that may be taken from the attestation of the hardware. -/
inductive CachedFact where
  | versions
  | bootKey
  | osVersion
  | moduleHash
deriving DecidableEq, Repr

/-- The certificate of the probe in the keystore, what is kept of it and of the other facts, the property
with the boot hash, and the attestations so far. -/
structure AttestedFacts (Thread : Type*) where
  tee : TeeDaemon Thread := {}
  entry : Option Certificate := none
  cachedAttestData : Option AttestUtils.AttestationData := none
  resolvedVersions : HashMap Int AttestationVersions := ∅
  secrets : DeviceSecrets := {}
  moduleHash : Option Bytes := none
  digest : Option (List Char) := none
  attested : List AttestedDevice := []

namespace AttestedFacts

variable {Thread : Type*} (lib : LeafLibrary) (h : Digests) (sdk : Int) (s : AttestedFacts Thread)

/-! ## The attestation of the hardware -/

/-- The certificate is read once: its entry is deleted.  Where the keystore throws, the entry stays. -/
def getAttestCert (readable : Bool) : AttestedFacts Thread × Option Certificate :=
  if readable then ({ s with entry := none }, s.entry) else (s, none)

def CachedAttestData (readable : Bool) : AttestedFacts Thread × Option AttestUtils.AttestationData :=
  if s.tee.state ≠ .WORKING then (s, none)
  else
    match s.cachedAttestData with
    | some data => (s, some data)
    | none =>
      let (s, leaf) := s.getAttestCert readable
      let data := leaf.bind (AttestUtils.parseAttestData lib)
      ({ s with cachedAttestData := data }, data)

/-! ## The facts -/

def cachedTeeVersions (securityLevel : Int) (readable : Bool) :
    AttestedFacts Thread × Option AttestationVersions :=
  if securityLevel ≠ SecurityLevel.trustedEnvironment.toInt then (s, none)
  else
    let (s, data) := s.CachedAttestData lib readable
    (s, do
      let data ← data
      let attestation ← data.attestVersion
      let keymaster ← data.keymasterVersion
      return ⟨attestation, keymaster⟩)

/-- The platform is asked from Android 12 on. -/
def exactVersions (securityLevel : Int) (answers : PlatformAnswers) (readable : Bool) :
    AttestedFacts Thread × Option AttestationVersions :=
  match if sdk ≥ 31 then KeyMintVersionResolver.resolve answers securityLevel else none with
  | some versions => (s, some versions)
  | none => s.cachedTeeVersions lib securityLevel readable

def attestationVersions (securityLevel : Int) (answers : PlatformAnswers) (readable : Bool) :
    AttestedFacts Thread × AttestationVersions :=
  match s.resolvedVersions.lookup securityLevel with
  | some versions => (s, versions)
  | none =>
    match s.exactVersions lib sdk securityLevel answers readable with
    | (s, some exact) =>
      ({ s with resolvedVersions := AList.insert securityLevel exact s.resolvedVersions }, exact)
    | (s, none) => (s, AndroidUtils.fallbackVersions sdk)

/-- The lazy value, for which the attestation is only looked at when the property gives no key. -/
def bootKey (r : DeviceSecrets.BootKeyReading) (readable : Bool) : AttestedFacts Thread × Bytes :=
  let (s, cached) :=
    if s.secrets.bootKey.isSome || (DeviceSecrets.getBootKeyFromProp r.digest).isSome then (s, none)
    else s.CachedAttestData lib readable
  let secrets := s.secrets.reportBootKey { r with cachedBootKey := cached.bind (·.verifiedBootKey) }
  ({ s with secrets := secrets }, secrets.bootKey.getD [])

def osVersion (readable : Bool) : AttestedFacts Thread × Int :=
  let (s, data) := s.CachedAttestData lib readable
  (s, (data.bind (·.osVersion)).getD (AndroidUtils.fallbackOsVersion sdk))

/-- The lazy value. -/
def reportModuleHash (info : Option Bytes) (readable : Bool) : AttestedFacts Thread × Bytes :=
  match s.moduleHash with
  | some hash => (s, hash)
  | none =>
    let (s, hash) :=
      match info with
      | some info => (s, (h.sha256 info).1)
      | none =>
        let (s, data) := s.CachedAttestData lib readable
        (s, (data.bind (·.moduleHash)).getD (List.replicate 32 0))
    ({ s with moduleHash := some hash }, hash)

/-- The facts of `buildAttestExtension` in their order, taken without another thread in between.  Without a
boot hash it throws. -/
def attest (securityLevel : Int) (answers : PlatformAnswers) (r : DeviceSecrets.BootKeyReading)
    (readable : CachedFact → Bool) : AttestedFacts Thread :=
  let (s, versions) := s.attestationVersions lib sdk securityLevel answers (readable .versions)
  let (s, key) := s.bootKey lib r (readable .bootKey)
  match AndroidUtils.getBootHashFromProp s.digest with
  | none => s
  | some hash =>
    let (s, version) := s.osVersion lib sdk (readable .osVersion)
    let (s, moduleHash) := s.reportModuleHash lib h answers.supplementaryAttestationInfo (readable .moduleHash)
    { s with attested := s.attested ++ [⟨securityLevel, versions, key, hash, version, moduleHash⟩] }

/-- The listener does this once attestation is known to work; a property may refuse to be set. -/
def refreshBootHashFromAttestation (readable written : Bool) : AttestedFacts Thread :=
  let (s, data) := s.CachedAttestData lib readable
  match (data.bind (·.verifiedBootHash)).bind DeviceSecrets.takeIfNonZero with
  | some hash => if written then { s with digest := some (toHex hash) } else s
  | none => s

/-! ## Runs -/

inductive Event (Thread : Type*) where
  /-- A step of the TEE state; an attempt of the probe that succeeds leaves its certificate. -/
  | tee (e : TeeEvent Thread) (leaf : Certificate)
  | refreshBootHash (readable written : Bool)
  | attest (securityLevel : Int) (answers : PlatformAnswers) (r : DeviceSecrets.BootKeyReading)
      (readable : CachedFact → Bool)

/-- Whether the step is an attempt that generates the key of the probe. -/
def generatesProbeKey (tee : TeeDaemon Thread) : TeeEvent Thread → Bool
  | .probe ⟨.Ready, .WORKING, _⟩ =>
    match tee.probeThread with
    | .runProbeAttempt _ => true
    | _ => false
  | _ => false

variable [DecidableEq Thread]

/-- A change of the state to another one than WORKING drops what was kept. -/
def teeStep (e : TeeEvent Thread) (leaf : Certificate) : AttestedFacts Thread :=
  let tee := s.tee.next e
  { s with
    tee := tee
    entry := if generatesProbeKey s.tee e then some leaf else s.entry
    cachedAttestData :=
      if tee.state ≠ s.tee.state ∧ tee.state ≠ .WORKING then none else s.cachedAttestData }

def next (s : AttestedFacts Thread) : Event Thread → AttestedFacts Thread
  | .tee e leaf => s.teeStep e leaf
  | .refreshBootHash readable written => s.refreshBootHashFromAttestation lib readable written
  | .attest securityLevel answers r readable => s.attest lib h sdk securityLevel answers r readable

end AttestedFacts

end TrickyStore
