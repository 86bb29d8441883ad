import TrickyStore.Model.CertificateHack
import TrickyStore.Model.Keystore2Interceptor
import TrickyStore.Native.WireFormat

/-!
# The reply of `getKeyEntry` as bytes

The post-hook of `getKeyEntry` takes the reply of the real keystore apart with several reads that share one
cursor: `hasException` for every transaction, then the action of the policy.  What throws there is caught and
counts as `Skip`, with which the client gets the bytes of the real keystore.
-/

open Lib

namespace TrickyStore

namespace ByteParcel

/-- `readException` that catches what it throws; the header is consumed in any case. -/
def hasException : ParcelM Bool := do
  let code ← readInt
  return code ≠ 0

/-- A flag, and the object if there is one. -/
def readTypedObject {α : Type} (createFromParcel : ParcelM α) : ParcelM (Option α) := do
  let flag ← readInt
  if flag = 0 then return none else some <$> createFromParcel

def writeTypedObject (flattened : Bytes) : ParcelM Unit := do
  writeInt 1
  write flattened

end ByteParcel

/-- How a `KeyEntryResponse` goes into a parcel, which is code generated from the interface. -/
structure EntryFormat where
  createFromParcel : ParcelM KeyEntryResponse
  writeToParcel : KeyEntryResponse → Bytes

namespace EntryFormat

open ByteParcel

variable (F : EntryFormat) (P : Platform) (x : X509) (env : Env) (callingUid : Int)

def createTypedObjectReply (r : KeyEntryResponse) : BinderInterceptor.Result :=
  .OverrideReply 0 (written do writeNoException; writeTypedObject (F.writeToParcel r))

/-- The response with the certificates signed again and the authorizations patched. -/
def patchedResponse (d : Daemon) (response : KeyEntryResponse) (chain : List Certificate) :
    KeyEntryResponse :=
  let newChain := CertificateHack.hackCertificateChain x d.keyboxes chain callingUid
  { response with
    metadata := { response.metadata.putCertificateChain newChain with
      authorizations := patchAuthorizations env callingUid response.metadata.authorizations }
    serial := d.clock }

/-- The action `PATCH_LEAF`; without a chain the cursor goes back to where the action found it. -/
def patchLeaf (d : Daemon) : ParcelM (Daemon × BinderInterceptor.Result) := do
  let replyStart ← dataPositionInt
  readException
  let response ← readTypedObject F.createFromParcel
  match response.bind fun r => (Daemon.getCertificateChain P r).map fun chain => (r, chain) with
  | some (response, chain) =>
    let nspace := (response.nspace).filter fun n => n ≠ 0
    let responseKey := nspace.bind d.cache.keysByNspace.lookup
    let response' := patchedResponse x env callingUid d response chain
    let patchedResponses := match responseKey with
      | some k => d.cache.patchedResponses.insert k response'
      | none => d.cache.patchedResponses
    return ({ d with cache := { d.cache with patchedResponses := patchedResponses } },
      F.createTypedObjectReply response')
  | none =>
    setDataPosition replyStart
    return (d, .Skip)

def serveCached (cached : Option (Key × KeyEntryResponse)) : BinderInterceptor.Result :=
  match cached with
  | some (_, r) => F.createTypedObjectReply r
  | none => .Skip

/-- `onPostTransact` for `getKeyEntry`, with the descriptor that was read from the request. -/
def postGetKeyEntry (descriptor : Option KeyDescriptor) (reply : Bytes) (d₀ : Daemon) :
    Daemon × BinderInterceptor.Result :=
  match hasException ⟨reply, 0⟩ with
  | some (false, body) =>
    let d := d₀.checked env callingUid
    match GetKeyEntryPostPolicy.decide (d₀.postHookInput env callingUid descriptor) with
    | .PASSTHROUGH_UNMODIFIED => (d, .Skip)
    | .SERVE_CACHED_PATCH => (d, F.serveCached (d.ownedResponse callingUid descriptor))
    | .PATCH_LEAF => ((F.patchLeaf P x env callingUid d body).map Prod.fst).getD (d, .Skip)
  | _ => (d₀, .Skip)

/-- The bytes that the client gets. -/
def delivered (reply : Bytes) : BinderInterceptor.Result → Bytes
  | .OverrideReply _ reply' => reply'
  | _ => reply

/-- The entry that a client finds in a reply. -/
def clientReads (reply : Bytes) : Option KeyEntryResponse :=
  ((do readException; readTypedObject F.createFromParcel : ParcelM (Option KeyEntryResponse))
    ⟨reply, 0⟩).bind fun r => r.1

end EntryFormat

end TrickyStore
