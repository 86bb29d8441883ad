import TrickyStore.Model.Config
import TrickyStore.Model.Operation
import TrickyStore.Model.Persistence

/-!
# The daemon

The state that the hooks of both interceptors share, what a hook answers, and the operations of
`CertificateAliasCache` and `CertificateGen` that work on more than the maps of the cache.

Code outside the repository enters in two places: `Platform` has the functions that do not depend on
the moment (parsers, crypto providers), `Env` what one hook reads from its surroundings (package
manager, clock, random draws, certificate building).
-/

open Lib

namespace TrickyStore

/-- What `buildCertificate` is called with. -/
structure CertificateRequest where
  keyPair : KeyPair
  keybox : KeyBox
  params : KeyGenParameters
  issuer : String
  uid : Int
  securityLevel : Int
  signingKeyPair : KeyPair
deriving DecidableEq, Repr

/-- The functions of libraries that the hooks call; `none` stands for a failure to parse. -/
structure Platform where
  x500Name : Bytes → Option String
  toCertificate : Bytes → Option Certificate
  toCertificates : Bytes → List Certificate
  subject : Certificate → String
  jca : Jca
  osVersion : Int

/-- What one hook reads from its surroundings.  `generateKeyPair` and `hackLeaf` return `none` when
they throw; `readsPatchLevels` tells whether `hackLeaf` gets as far as the patch levels of the uid,
which resolves its packages. -/
structure Env where
  packageManager : PackageManager
  teeState : TeeState := .WORKING
  currentTimeMillis : Int := 0
  nextLong : Int := 0
  generateKeyPair : KeyGenParameters → Option KeyPair := fun _ => none
  buildCertificate : CertificateRequest → Option Certificate := fun _ => none
  hackLeaf : HashMap String KeyBox → List Certificate → Int → Option (List Certificate) :=
    fun _ _ _ => none
  readsPatchLevels : Bool := false
  patchLevel : Int → Int := fun _ => 0
  vendorPatchLevelLong : Int → Int := fun _ => 0
  bootPatchLevelLong : Int → Int := fun _ => 0
  patchLevelOverride : Int → Option Int := fun _ => none
  vendorPatchLevelOverride : Int → Option Int := fun _ => none
  bootPatchLevelOverride : Int → Option Int := fun _ => none

/-! ## Answers -/

/-- What the reply parcel of an override carries. -/
inductive LocalReply where
  | noException
  | metadata (m : KeyMetadata)
  | entry (r : KeyEntryResponse)
  | descriptor (d : KeyDescriptor)
  | descriptors (ds : List KeyDescriptor)
  | operation (id : ℕ) (parameters : Option (List KeyParameter))
  | error (errorCode : Int) (message : String)
deriving DecidableEq, Repr

/-- `BinderInterceptor.Result`.  `origin` names the entry that an override was answered from; it is
not part of the reply. -/
inductive Result where
  | Skip
  | Continue
  | OverrideReply (code : Int) (reply : LocalReply) (origin : Option Origin)
deriving DecidableEq, Repr

namespace Result

def errorReply (errorCode : Int) (message : String) (origin : Option Origin := none) : Result :=
  .OverrideReply 0 (.error errorCode message) origin

def successReply : Result := .OverrideReply 0 .noException none

def typedReply (metadata : KeyMetadata) : Result := .OverrideReply 0 (.metadata metadata) none

/-- The entry that an answer was taken from. -/
def origin : Result → Option Origin
  | OverrideReply _ _ origin => origin
  | _ => none

/-- A cached response that stands under `k`. -/
def typedObjectReply (k : Key) (r : KeyEntryResponse) : Result :=
  .OverrideReply 0 (.entry r) (some ⟨k, r.serial⟩)

end Result

/-! ## State -/

/-- The state of the daemon process and its files.  `clock` counts the hooks that have run. -/
structure Daemon where
  cache : CertificateAliasCache := {}
  passthrough : PassthroughKeyRegistry := {}
  leafAlgorithms : HashMap Key String := ∅
  keyboxes : HashMap String KeyBox := ∅
  config : PkgConfig := {}
  pendingPassthroughKeys : HashMap (SecurityLevel × Key) Bool := ∅
  persistence : PersistenceManager := {}
  operations : List SoftwareOperationBinder := []
  clock : ℕ := 0

namespace Daemon

variable (d : Daemon) (k : Key)

def hasKeyboxes : Bool := !d.keyboxes.entries.isEmpty

def clearSyntheticCertificateState (includePersistence : Bool) : Daemon :=
  { d with
    cache := d.cache.clear k
    leafAlgorithms := d.leafAlgorithms.erase k
    persistence := if includePersistence then d.persistence.deleteKey k else d.persistence }

def relinquishPassthroughOwnership : Daemon :=
  { d with passthrough := d.passthrough.remove k }

def invalidateCertificateResponseState (removePassthrough : Bool) : Daemon :=
  let d' := d.clearSyntheticCertificateState k false
  if removePassthrough then d'.relinquishPassthroughOwnership k else d'

def cleanupKey : Daemon :=
  (d.clearSyntheticCertificateState k true).relinquishPassthroughOwnership k

def cleanupAll : Daemon :=
  { d with cache := {}, passthrough := {}, persistence := d.persistence.clearAll }

/-- `updateKeyBox`: `readFromXml` replaces the keyboxes, then every key is dropped. -/
def updateKeyBox (keyboxes : HashMap String KeyBox) : Daemon :=
  { d with keyboxes := keyboxes, leafAlgorithms := ∅ }.cleanupAll

def updateTargetPackages (modes : HashMap String Mode) : Daemon :=
  { d with config := { d.config with packageModes := modes } }

/-- The state after `needHack` or `needGenerate` for the uid. -/
def checked (env : Env) (uid : Int) : Daemon :=
  { d with config := d.config.checked env.packageManager env.teeState uid }

/-- The state after the packages of the uid were looked up. -/
def resolved (env : Env) (uid : Int) : Daemon :=
  { d with config := d.config.getOrPut env.packageManager uid }

def needHack (env : Env) (uid : Int) : Bool := d.config.needHack env.packageManager uid

def needGenerate (env : Env) (uid : Int) : Bool := d.config.needGenerate env.packageManager uid

def isPassthroughDescriptor (uid : Int) (descriptor : KeyDescriptor) : Bool :=
  TrickyStore.isPassthroughDescriptor d.cache d.passthrough uid descriptor

/-! ## Certificates -/

def getKeyboxForAlgorithm (algorithm : Int) : Option KeyBox :=
  let name :=
    if algorithm = Algorithm.EC then some "EC"
    else if algorithm = Algorithm.RSA then some "RSA"
    else none
  name.bind fun n => (d.keyboxes.lookup n).or (d.keyboxes.entries.head?.map Sigma.snd)

/-- The pair that signs for a designated attest key, and the subject of its certificate. -/
def getAttestationKeyInfo (P : Platform) (uid : Int) (descriptor : KeyDescriptor) :
    Option (KeyPair × String) := do
  let keyAlias ← descriptor.keyAlias.or (d.cache.findAliasForNspace uid descriptor.nspace)
  let keyInfo ← d.cache.getKeyPairs uid keyAlias
  let cert ← keyInfo.2.head?
  return (keyInfo.1, P.subject cert)

/-- `CertificateGen.generateKeyPair`: the pair and the chain of a forged key. -/
def generateKeyPair (P : Platform) (env : Env) (uid : Int)
    (attestKeyDescriptor : Option KeyDescriptor) (params : KeyGenParameters) (securityLevel : Int) :
    Option (KeyPair × List Certificate) := do
  let keyPair ←
    if params.algorithm = Algorithm.EC ∨ params.algorithm = Algorithm.RSA then
      env.generateKeyPair params
    else none
  let keybox ← d.getKeyboxForAlgorithm params.algorithm
  let keyboxCert ← keybox.certificates.head?
  let signing ←
    match attestKeyDescriptor with
    | some a => d.getAttestationKeyInfo P uid a
    | none => some (keybox.keyPair, P.subject keyboxCert)
  let leaf ← env.buildCertificate
    { keyPair, keybox, params, issuer := signing.2, uid, securityLevel,
      signingKeyPair := signing.1 }
  return (keyPair, leaf :: if attestKeyDescriptor.isNone then keybox.certificates else [])

/-- `CertificateHack.hackCertificateChain`: the chain as it is when re-signing fails. -/
def hackCertificateChain (env : Env) (chain : List Certificate) (uid : Int) : List Certificate :=
  (env.hackLeaf d.keyboxes chain uid).getD chain

end Daemon

def DO_NOT_REPORT : Int := -1

/-- `CertificateHack.patchAuthorizations` for one authorization; `none` omits it. -/
def patchAuthorization (env : Env) (uid : Int) (auth : Authorization) : Option Authorization :=
  let tag := auth.keyParameter.tag
  let override :=
    if tag = Tag.OS_PATCHLEVEL then env.patchLevelOverride uid
    else if tag = Tag.VENDOR_PATCHLEVEL then env.vendorPatchLevelOverride uid
    else if tag = Tag.BOOT_PATCHLEVEL then env.bootPatchLevelOverride uid
    else none
  match override with
  | none => some auth
  | some v => if v = DO_NOT_REPORT then none else some ⟨⟨tag, .integer v⟩, auth.securityLevel⟩

def patchAuthorizations (env : Env) (uid : Int) (authorizations : Option (List Authorization)) :
    Option (List Authorization) :=
  authorizations.map fun as => as.filterMap (patchAuthorization env uid)

end TrickyStore
