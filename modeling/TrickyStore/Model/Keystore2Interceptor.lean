import Mathlib.Data.List.Lex
import TrickyStore.Model.SecurityLevelInterceptor

/-!
# The Keystore2 interceptor

The hooks of `Keystore2Interceptor` on `deleteKey`, `updateSubcomponent`, `grant`, `ungrant`,
`getKeyEntry` and the two listing calls.  A request whose descriptor is missing, or whose parcel is
too small to hold one, has `none` in its place.  A post-hook without a reply does nothing.
-/

open Lib

namespace TrickyStore

def domainGrant : Int := 1

/-- UTF-16 code units, by which Kotlin compares strings. -/
def utf16Units (s : String) : List ℕ :=
  s.toList.flatMap fun c =>
    if c.toNat < 0x10000 then [c.toNat]
    else [0xD800 + (c.toNat - 0x10000) / 0x400, 0xDC00 + (c.toNat - 0x10000) % 0x400]

/-- `compareTo` is at most zero. -/
def stringLe (s t : String) : Bool := decide (utf16Units s ≤ utf16Units t)

namespace Daemon

variable (env : Env) (callingUid : Int)

/-! ## deleteKey -/

def preDeleteKey (keyDescriptor : Option KeyDescriptor) (d : Daemon) : Daemon × Result :=
  match keyDescriptor.bind KeyDescriptor.keyAlias with
  | none => (d, .Continue)
  | some keyAlias =>
    let key : Key := ⟨callingUid, keyAlias⟩
    let isSoftware := d.cache.keys.containsKey key && !d.cache.skipLeafHacks.containsKey key
    (d.cleanupKey key, if isSoftware then .successReply else .Continue)

def postDeleteKey (keyDescriptor : Option KeyDescriptor) (resultCode : Int) (d : Daemon) :
    Daemon × Result :=
  match keyDescriptor.bind KeyDescriptor.keyAlias with
  | some keyAlias => (if resultCode = 0 then d.cleanupKey ⟨callingUid, keyAlias⟩ else d, .Skip)
  | none => (d, .Skip)

/-! ## updateSubcomponent -/

/-- The grant that a descriptor without key of its own may mean. -/
def grantFor (d : Daemon) (nspace : Int) : Option GrantInfo :=
  if nspace ≠ 0 then (d.cache.grants.lookup nspace).filter fun g => g.granteeUid = callingUid
  else none

/-- The key that `updateSubcomponent` works on; `none` refuses the call. -/
def updateTarget (keyDescriptor : KeyDescriptor) (d : Daemon) : Option (Option Key) :=
  match d.cache.resolveKey callingUid keyDescriptor with
  | some key => some (some key)
  | none =>
    match d.grantFor callingUid keyDescriptor.nspace with
    | some grant =>
      if grant.allows KeyPermission.UPDATE then
        some (if d.cache.isPatchedKey grant.key then some grant.key else none)
      else none
    | none => some none

def preUpdateSubcomponent (keyDescriptor : Option KeyDescriptor)
    (publicCert certificateChain : Option Bytes) (d : Daemon) : Daemon × Result :=
  match keyDescriptor with
  | none => (d, .Continue)
  | some keyDescriptor =>
    match d.updateTarget callingUid keyDescriptor with
    | none => (d, .errorReply ResponseCode.PERMISSION_DENIED "UPDATE permission not granted")
    | some none => (d, .Continue)
    | some (some key) =>
      if d.cache.keys.containsKey key then
        ({ d with cache := d.cache.updateKeyCertChain key publicCert certificateChain },
          .successReply)
      else
        (d.invalidateCertificateResponseState ⟨callingUid, key.keyAlias⟩ false, .Continue)

def postUpdateSubcomponent (keyDescriptor : Option KeyDescriptor) (resultCode : Int) (d : Daemon) :
    Daemon × Result :=
  match keyDescriptor with
  | none => (d, .Skip)
  | some keyDescriptor =>
    match keyDescriptor.keyAlias.or
        (d.cache.findAliasForNspace callingUid keyDescriptor.nspace) with
    | some keyAlias =>
      (if resultCode = 0 then d.invalidateCertificateResponseState ⟨callingUid, keyAlias⟩ true
        else d, .Skip)
    | none => (d, .Skip)

/-! ## grant and ungrant -/

/-- Records a grant of a forged key; an existing one to the same grantee keeps its id.  Returns the
id. -/
def forgeGrant (key : Key) (granteeUid : Int) (accessVector : BitVec 32)
    (d : Daemon) : Daemon × Int :=
  match d.cache.grants.firstEntry fun _ g => g.key = key && g.granteeUid = granteeUid with
  | some (id, g) =>
    ({ d with cache := { d.cache with
        grants := d.cache.grants.insert id { g with accessVector := accessVector } } }, id)
  | none =>
    ({ d with cache := { d.cache with
        grants := d.cache.grants.insert env.nextLong
          ⟨callingUid, granteeUid, key, accessVector⟩ } }, env.nextLong)

def preGrant (keyDescriptor : Option KeyDescriptor) (granteeUid : Int) (accessVector : BitVec 32)
    (d : Daemon) : Daemon × Result :=
  if d.hasKeyboxes then
    match keyDescriptor.bind (d.cache.resolveKey callingUid) with
    | none => (d, .Skip)
    | some key =>
      if d.cache.keys.containsKey key then
        let (d', grantId) := d.forgeGrant env callingUid key granteeUid accessVector
        (d', .OverrideReply 0
          (.descriptor { domain := domainGrant, nspace := grantId, keyAlias := none }) none)
      else if d.cache.isPatchedKey key then (d, .Continue)
      else (d, .Skip)
  else (d, .Skip)

/-- `hasException` leaves the cursor of the reply behind the header. -/
def postGrant (keyDescriptor : Option KeyDescriptor) (granteeUid : Int) (accessVector : BitVec 32)
    (resultCode : Int) (reply : Parcel) (d : Daemon) : Daemon × Result :=
  if resultCode = 0 ∧ d.hasKeyboxes then
    match reply.readException, keyDescriptor.bind (d.cache.resolveKey callingUid) with
    | some body, some key =>
      match body.readTypedObject Parcel.keyDescriptorCreator with
      | some (some grantDescriptor, _) =>
        if d.cache.isPatchedKey key then
          ({ d with cache := { d.cache with
              grants := d.cache.grants.insert grantDescriptor.nspace
                ⟨callingUid, granteeUid, key, accessVector⟩ } }, .Skip)
        else (d, .Skip)
      | _ => (d, .Skip)
    | _, _ => (d, .Skip)
  else (d, .Skip)

def removeGrants (key : Key) (granteeUid : Int) (d : Daemon) : Daemon :=
  { d with cache := { d.cache with
      grants := d.cache.grants.removeIf fun _ g => g.key = key && g.granteeUid = granteeUid } }

def preUngrant (keyDescriptor : Option KeyDescriptor) (granteeUid : Int) (d : Daemon) :
    Daemon × Result :=
  match keyDescriptor.bind (d.cache.resolveKey callingUid) with
  | none => (d, .Skip)
  | some key =>
    (d.removeGrants key granteeUid,
      if d.cache.keys.containsKey key then .successReply else .Skip)

/-! ## getKeyEntry -/

/-- `rejectHistoricalOwners` of `GetKeyEntryCurrentModeAuthority`. -/
def rejectHistoricalOwners (descriptor : KeyDescriptor) (d : Daemon) : Daemon :=
  match descriptor.keyAlias with
  | none => d
  | some keyAlias =>
    let hadGenerated := (d.cache.findGeneratedKey callingUid descriptor).isSome
    let hadPatched := (d.cache.resolvePatchedResponse callingUid descriptor).isSome
    if !hadGenerated && !hadPatched then d
    else d.clearSyntheticCertificateState ⟨callingUid, keyAlias⟩ hadGenerated

/-- The forged response for a descriptor, else the re-signed one, with the key it stands under. -/
def cachedOwner (descriptor : KeyDescriptor) (d : Daemon) : Option (Key × KeyEntryResponse) :=
  ((d.cache.findGeneratedOwner callingUid descriptor).map fun o => (o.1, o.2.response)).or
    (d.cache.resolvePatchedOwner callingUid descriptor)

/-- The reply with a cached response when there is one, else `otherwise`. -/
def serveCached (cached : Option (Key × KeyEntryResponse)) (otherwise : Result) : Result :=
  match cached with
  | some (k, r) => .typedObjectReply k r
  | none => otherwise

/-- The pre-hook without the grant shortcut, by the mode of the caller. -/
def preGetKeyEntryByMode (descriptor : KeyDescriptor) (d₀ : Daemon) : Daemon × Result :=
  let d := d₀.checked env callingUid
  if d₀.needGenerate env callingUid then
    if d.isPassthroughDescriptor callingUid descriptor then (d, .Continue)
    else (d, serveCached (d.cachedOwner callingUid descriptor) .Skip)
  else if d.needHack env callingUid then
    if d.isPassthroughDescriptor callingUid descriptor then (d, .Continue)
    else if d.config.isPlainAuto callingUid then
      (d.rejectHistoricalOwners callingUid descriptor, .Continue)
    else if d.cache.shouldSkipLeafHackFor callingUid descriptor then
      (d, serveCached ((d.cache.findGeneratedOwner callingUid descriptor).map
        fun o => (o.1, o.2.response)) .Continue)
    else (d, serveCached (d.cache.resolvePatchedOwner callingUid descriptor) .Continue)
  else (d, serveCached (d.cachedOwner callingUid descriptor) .Skip)

def preGetKeyEntry (descriptor : Option KeyDescriptor) (d : Daemon) : Daemon × Result :=
  if d.hasKeyboxes then
    match descriptor with
    | none => (d, .Skip)
    | some descriptor =>
      match d.grantFor callingUid descriptor.nspace with
      | none => d.preGetKeyEntryByMode env callingUid descriptor
      | some grant =>
        if grant.allows KeyPermission.GET_INFO then
          match d.cache.cachedResponse grant.key with
          | none => d.preGetKeyEntryByMode env callingUid descriptor
          | some response =>
            if GetKeyEntryCurrentModeAuthority.shouldServeGrantCachedResponse
                (d.config.isPlainAuto callingUid) then
              (d, .typedObjectReply grant.key response)
            else d.preGetKeyEntryByMode env callingUid descriptor
        else (d, .errorReply ResponseCode.PERMISSION_DENIED "GET_INFO permission not granted")
  else (d, .Skip)

/-- What the post-hook's policy decides from. -/
def postHookInput (descriptor : Option KeyDescriptor) (d : Daemon) :
    GetKeyEntryPostPolicy.PostHookInput :=
  let cachedKey := descriptor.bind (d.cache.resolveKey callingUid)
  let explicitLeafHack := d.config.isExplicitLeafHack callingUid
  { isPassthroughTracked := descriptor.any (d.isPassthroughDescriptor callingUid)
    hasCachedPatch := cachedKey.any d.cache.patchedResponses.containsKey
    hasGeneratedOwner :=
      (descriptor.bind (d.cache.findGeneratedKey callingUid)).isSome
    explicitLeafHack := explicitLeafHack
    autoPreserveUntrackedReal :=
      d.needHack env callingUid && !d.needGenerate env callingUid && !explicitLeafHack
    plainAutoMode := d.config.isPlainAuto callingUid }

/-- The response that `SERVE_CACHED_PATCH` delivers. -/
def ownedResponse (descriptor : Option KeyDescriptor) (d : Daemon) :
    Option (Key × KeyEntryResponse) :=
  ((descriptor.bind (d.cache.resolveKey callingUid)).bind fun k =>
      (d.cache.patchedResponses.lookup k).map fun r => (k, r)).or
    ((descriptor.bind (d.cache.findGeneratedOwner callingUid)).map fun o => (o.1, o.2.response))

/-- `CertificateUtils.getCertificateChain`. -/
def getCertificateChain (P : Platform) (r : KeyEntryResponse) : Option (List Certificate) :=
  (r.metadata.certificate.bind P.toCertificate).map fun leaf =>
    leaf :: (r.metadata.certificateChain.map P.toCertificates).getD []

/-- The re-signing of the real entry that `body` holds; the header has been read before, and the
action reads a header again. -/
def patchLeaf (P : Platform) (body : Parcel) (d : Daemon) : Daemon × Result :=
  match body.readException.bind (Parcel.readTypedObject Parcel.keyEntryResponseCreator) with
  | some (some response, _) =>
    let nspace := (response.nspace).filter fun n => n ≠ 0
    let responseKey := nspace.bind d.cache.keysByNspace.lookup
    match getCertificateChain P response with
    | none => (d, .Skip)
    | some chain =>
      let newChain := d.hackCertificateChain env chain callingUid
      let metadata := { response.metadata.putCertificateChain newChain with
        authorizations := patchAuthorizations env callingUid response.metadata.authorizations }
      let response' := { response with metadata := metadata, serial := d.clock }
      let patchedResponses := match responseKey with
        | some k => d.cache.patchedResponses.insert k response'
        | none => d.cache.patchedResponses
      ({ d with cache := { d.cache with patchedResponses := patchedResponses } },
        .OverrideReply 0 (.entry response') none)
  | _ => (d, .Skip)

def postGetKeyEntry (P : Platform) (descriptor : Option KeyDescriptor) (reply : Parcel)
    (d₀ : Daemon) : Daemon × Result :=
  match reply.readException with
  | none => (d₀, .Skip)
  | some body =>
    let d := d₀.checked env callingUid
    match GetKeyEntryPostPolicy.decide (d₀.postHookInput env callingUid descriptor) with
    | .PASSTHROUGH_UNMODIFIED => (d, .Skip)
    | .SERVE_CACHED_PATCH => (d, serveCached (d.ownedResponse callingUid descriptor) .Skip)
    | .PATCH_LEAF => d.patchLeaf env callingUid P body

/-! ## listEntries and listEntriesBatched -/

def preListEntries (d : Daemon) : Daemon × Result :=
  if d.hasKeyboxes then
    (d.checked env callingUid,
      if d.needGenerate env callingUid || d.needHack env callingUid then .Continue else .Skip)
  else (d, .Skip)

/-- The body of a typed array of descriptors; a null array reads as an empty one. -/
def readDescriptors (body : Parcel) : Option (List (Option KeyDescriptor)) :=
  match body with
  | .descriptors ds :: _ => some ds
  | p => p.readInt.bind fun (n, _) => if n ≤ 0 then some [] else none

/-- The aliases that the listing adds, each once, as the loop goes over the forged keys. -/
def aliasesToAdd (startPastAlias : Option String) (existing : List String) (d : Daemon) :
    List String :=
  let own := (d.cache.keys.entries.map Sigma.fst).filter fun k => k.uid = callingUid
  (own.map Key.keyAlias).filter fun a =>
    !(startPastAlias.any fun s => stringLe a s) && !existing.contains a

def mergeListEntries (domain : Int) (startPastAlias : Option String) (resultCode : Int)
    (reply : Parcel) (d : Daemon) : Result :=
  if resultCode ≠ 0 ∨ domain ≠ 0 then .Skip
  else
    match reply.readException.bind readDescriptors with
    | none => .Skip
    | some existing =>
      let toAdd := d.aliasesToAdd callingUid startPastAlias
        (existing.filterMap fun e => e.bind KeyDescriptor.keyAlias)
      if toAdd.isEmpty then .Skip
      else
        let added : List KeyDescriptor :=
          toAdd.map fun a => { domain := 0, nspace := callingUid, keyAlias := some a }
        .OverrideReply 0 (.descriptors ((existing.filterMap id ++ added).mergeSort fun x y =>
          stringLe (x.keyAlias.getD "") (y.keyAlias.getD ""))) none

def postListEntries (domain : Int) (startPastAlias : Option String) (resultCode : Int)
    (reply : Parcel) (d : Daemon) : Daemon × Result :=
  if d.hasKeyboxes then
    (d.checked env callingUid,
      if d.needGenerate env callingUid || d.needHack env callingUid then
        d.mergeListEntries callingUid domain startPastAlias resultCode reply
      else .Skip)
  else (d, .Skip)

end Daemon

end TrickyStore
