import TrickyStore.Model.EntryReply
import TrickyStore.Proof.LegacyAuto

/-!
# The re-signing of a real entry

The check for an exception leaves the cursor behind the header, and `PATCH_LEAF` reads a header again.  It
finds the presence flag of the entry there and throws, so the real chain is delivered whenever the policy
wants it signed again.  The action itself would do its work on a reply that nobody has read from.
-/

open Lib

namespace TrickyStore

namespace ByteParcel

/-- The bytes of a zero header and of a presence flag of one, then those of an object. -/
def typedObjectBytes (body : Bytes) : Bytes :=
  littleEndian 4 (0 : BitVec 32).toNat ++ (littleEndian 4 (1 : BitVec 32).toNat ++ body)

/-- The cursor of a reply with an object, behind its flag. -/
def behindFlag (body : Bytes) : ByteParcel :=
  split (littleEndian 4 (0 : BitVec 32).toNat ++ littleEndian 4 (1 : BitVec 32).toNat) body

variable {α : Type} {body : Bytes} {createFromParcel : ParcelM α}

theorem typedObjectBytes_eq : written (do writeNoException; writeTypedObject body) = typedObjectBytes body := by
  unfold written writeNoException writeTypedObject writeInt
  rw [show ({} : ByteParcel) = split [] [] from rfl, run_bind write_split, run_bind write_split, write_split]
  simp only [split, typedObjectBytes, List.nil_append, List.append_nil, List.append_assoc, Option.map_some,
    Option.getD_some]

theorem hasException_typedObject :
    hasException ⟨typedObjectBytes body, 0⟩ =
      some (false, split (littleEndian 4 (0 : BitVec 32).toNat)
        (littleEndian 4 (1 : BitVec 32).toNat ++ body)) := by
  unfold hasException
  rw [show (⟨typedObjectBytes body, 0⟩ : ByteParcel) = split [] (typedObjectBytes body) from rfl,
    typedObjectBytes, run_bind (readInt_split _)]
  rfl

theorem readException_typedObject :
    readException ⟨typedObjectBytes body, 0⟩ =
      some ((), split (littleEndian 4 (0 : BitVec 32).toNat)
        (littleEndian 4 (1 : BitVec 32).toNat ++ body)) := by
  unfold readException
  rw [show (⟨typedObjectBytes body, 0⟩ : ByteParcel) = split [] (typedObjectBytes body) from rfl,
    typedObjectBytes, run_bind (readInt_split _), if_pos rfl]
  rfl

/-- A header that is read a second time is the flag. -/
theorem readException_flag {front : Bytes} :
    readException (split front (littleEndian 4 (1 : BitVec 32).toNat ++ body)) = none := by
  unfold readException
  rw [run_bind (readInt_split _), if_neg (by decide)]
  rfl

theorem readTypedObject_flag :
    readTypedObject createFromParcel (split (littleEndian 4 (0 : BitVec 32).toNat)
        (littleEndian 4 (1 : BitVec 32).toNat ++ body)) =
      (createFromParcel (behindFlag body)).map fun r => (some r.1, r.2) := by
  unfold readTypedObject
  rw [run_bind (readInt_split _), if_neg (by decide)]
  show (createFromParcel _).bind (fun r => some (some r.1, r.2)) = _
  rw [Option.map_eq_bind]
  rfl

end ByteParcel

namespace EntryFormat

open ByteParcel CertificateHack

variable {F : EntryFormat} {P : Platform} {x : X509} {env : Env} {callingUid : Int}
  {descriptor : Option KeyDescriptor} {d : Daemon} {reply body : Bytes} {response : KeyEntryResponse}
  {chain : List Certificate} {p : ByteParcel}

/-- A reply of success: a zero header, a flag, and the entry. -/
def HoldsEntry (F : EntryFormat) (reply : Bytes) (response : KeyEntryResponse) : Prop :=
  ∃ body, reply = typedObjectBytes body ∧
    (F.createFromParcel (behindFlag body)).map Prod.fst = some response

theorem clientReads_of_holdsEntry (h : F.HoldsEntry reply response) : F.clientReads reply = some response := by
  obtain ⟨body, rfl, hread⟩ := h
  obtain ⟨⟨_, p⟩, hbody, rfl⟩ := Option.map_eq_some_iff.1 hread
  unfold clientReads
  rw [run_bind readException_typedObject, readTypedObject_flag, hbody]
  rfl

/-- An override with a response is read as what the format reads of it. -/
theorem clientReads_createTypedObjectReply {r : KeyEntryResponse}
    (h : (F.createFromParcel (behindFlag (F.writeToParcel r))).map Prod.fst = some response) :
    F.clientReads (delivered reply (F.createTypedObjectReply r)) = some response :=
  clientReads_of_holdsEntry ⟨F.writeToParcel r, typedObjectBytes_eq, h⟩

/-! ## What the action does -/

/-- Behind the header that was read already, the action throws. -/
theorem patchLeaf_behind_header :
    F.patchLeaf P x env callingUid d (split (littleEndian 4 (0 : BitVec 32).toNat)
      (littleEndian 4 (1 : BitVec 32).toNat ++ body)) = none := by
  unfold patchLeaf
  rw [run_bind (show dataPositionInt _ = some (_, _) from rfl), run_bind_none readException_flag]

/-- On an unread reply it delivers the patched response. -/
theorem patchLeaf_unread (hbody : F.createFromParcel (behindFlag body) = some (response, p))
    (hchain : Daemon.getCertificateChain P response = some chain) :
    ∃ d', F.patchLeaf P x env callingUid d ⟨typedObjectBytes body, 0⟩ =
      some ((d', F.createTypedObjectReply (patchedResponse x env callingUid d response chain)), p) := by
  have hentry : readTypedObject F.createFromParcel (split (littleEndian 4 (0 : BitVec 32).toNat)
      (littleEndian 4 (1 : BitVec 32).toNat ++ body)) = some (some response, p) := by
    rw [readTypedObject_flag, hbody, Option.map_some]
  unfold patchLeaf
  rw [run_bind (show dataPositionInt _ = some (_, _) from rfl), run_bind readException_typedObject,
    run_bind hentry]
  simp only [Option.bind_some, hchain, Option.map_some]
  exact ⟨_, rfl⟩

/-- The post-hook has nothing for a reply that the policy wants patched. -/
theorem postGetKeyEntry_patchLeaf (h : F.HoldsEntry reply response)
    (hpatch : GetKeyEntryPostPolicy.decide (d.postHookInput env callingUid descriptor) = .PATCH_LEAF) :
    F.postGetKeyEntry P x env callingUid descriptor reply d = (d.checked env callingUid, .Skip) := by
  obtain ⟨body, rfl, -⟩ := h
  unfold postGetKeyEntry
  simp only [hasException_typedObject, hpatch, patchLeaf_behind_header, Option.map_none, Option.getD_none]

/-! ## Bytes and items -/

/-- The bytes of an answer of the item model, which overrides with entries only. -/
def resultBytes (F : EntryFormat) : Result → BinderInterceptor.Result
  | .OverrideReply _ (.entry r) _ => F.createTypedObjectReply r
  | .Continue => .Continue
  | _ => .Skip

/-- On the bytes of an entry the post-hook does what it does on the items. -/
theorem postGetKeyEntry_eq (h : F.HoldsEntry reply response) :
    F.postGetKeyEntry P x env callingUid descriptor reply d =
      ((d.postGetKeyEntry env callingUid P descriptor (.typedObject (.entry response))).1,
        F.resultBytes (d.postGetKeyEntry env callingUid P descriptor (.typedObject (.entry response))).2) := by
  have hread : (Parcel.typedObject (.entry response)).readException = some [.int 1, .entry response] := rfl
  simp only [Daemon.postGetKeyEntry, hread]
  cases hdecide : GetKeyEntryPostPolicy.decide (d.postHookInput env callingUid descriptor) with
  | PATCH_LEAF =>
    rw [postGetKeyEntry_patchLeaf h hdecide]
    rfl
  | PASSTHROUGH_UNMODIFIED =>
    obtain ⟨body, rfl, -⟩ := h
    simp only [postGetKeyEntry, hasException_typedObject, hdecide]
    rfl
  | SERVE_CACHED_PATCH =>
    obtain ⟨body, rfl, -⟩ := h
    simp only [postGetKeyEntry, hasException_typedObject, hdecide, serveCached, Daemon.serveCached]
    cases (d.checked env callingUid).ownedResponse callingUid descriptor <;> rfl

/-! ## What the client gets -/

/-- The client gets the entry with the chain signed again in place of the real one, and with patched
authorizations. -/
def Resigned (F : EntryFormat) (P : Platform) (x : X509) (env : Env) (callingUid : Int)
    (descriptor : Option KeyDescriptor) (reply : Bytes) (d : Daemon) (response : KeyEntryResponse)
    (chain : List Certificate) : Prop :=
  ∃ served,
    F.clientReads (delivered reply (F.postGetKeyEntry P x env callingUid descriptor reply d).2) = some served ∧
    Daemon.getCertificateChain P served = some (hackCertificateChain x d.keyboxes chain callingUid) ∧
    served.metadata.authorizations = patchAuthorizations env callingUid response.metadata.authorizations ∧
    Daemon.getCertificateChain P served ≠ some chain

/-- The real entry has a chain with an attested leaf, which a keybox signs. -/
structure Signable (P : Platform) (x : X509) (d : Daemon) (callingUid : Int) (response : KeyEntryResponse)
    (chain : List Certificate) : Prop where
  chain_eq : Daemon.getCertificateChain P response = some chain
  signed : ∃ certificate leaf signed, chain.head? = some certificate ∧
    attestedLeaf x certificate.encoded = some leaf ∧ signing x d.keyboxes leaf callingUid = some signed

/-- Whatever the policy wants signed again is delivered with its real chain. -/
theorem getKeyEntry_never_resigned (F : EntryFormat) (P : Platform) (x : X509) (env : Env) (callingUid : Int)
    (descriptor : Option KeyDescriptor) (reply : Bytes) (d : Daemon) (response : KeyEntryResponse)
    (chain : List Certificate) (hreply : F.HoldsEntry reply response)
    (hsignable : Signable P x d callingUid response chain)
    (hpatch : GetKeyEntryPostPolicy.decide (d.postHookInput env callingUid descriptor) = .PATCH_LEAF) :
    ¬F.Resigned P x env callingUid descriptor reply d response chain := by
  rintro ⟨served, hserved, -, -, hreal⟩
  rw [postGetKeyEntry_patchLeaf hreply hpatch] at hserved
  have hresponse : served = response :=
    Option.some.inj (hserved.symm.trans (clientReads_of_holdsEntry hreply))
  subst hresponse
  exact hreal hsignable.chain_eq

end EntryFormat

/-! ## An entry in a parcel -/

namespace Demo

open ByteParcel

def readByteArray : ParcelM (Option Bytes) := do
  let b ← createByteArray
  let _ ← read (b.elim 0 fun b => b.length + (padding b).length)
  return b

def writeByteArrayOrNull : Option Bytes → ParcelM Unit
  | some b => writeByteArray b
  | none => writeInt (-1)

/-- A parcelable stands behind its size. -/
def sized (b : Bytes) : Bytes := littleEndian 4 (4 + b.length) ++ b

/-- The layout of an entry with a null binder, a null key and null authorizations. -/
def entryFormat : EntryFormat where
  createFromParcel := do
    let _ ← readInt
    let _ ← read 28
    let _ ← readInt
    let _ ← readInt
    let _ ← readInt
    let keySecurityLevel ← readInt
    let _ ← readInt
    let certificate ← readByteArray
    let certificateChain ← readByteArray
    let modificationTimeMs ← readLong
    return { metadata :=
      { keySecurityLevel := keySecurityLevel.toInt, certificate, certificateChain,
        modificationTimeMs := modificationTimeMs.toInt } }
  writeToParcel r :=
    let metadata := written do
      writeInt 0
      writeInt (.ofInt 32 r.metadata.keySecurityLevel)
      writeInt (-1)
      writeByteArrayOrNull r.metadata.certificate
      writeByteArrayOrNull r.metadata.certificateChain
      writeLong (.ofInt 64 r.metadata.modificationTimeMs)
    sized (List.replicate 28 0 ++ (littleEndian 4 1 ++ sized metadata))

/-- A real entry with an attested leaf and its issuer. -/
def attestedEntry : KeyEntryResponse :=
  { metadata := { keySecurityLevel := 1, certificate := some [0x30, 1], certificateChain := some [9] } }

def attestedReply : Bytes := typedObjectBytes (entryFormat.writeToParcel attestedEntry)

/-- The daemon in the middle of a `getKeyEntry` of an app whose real certificates are to be signed again. -/
def resigning : Daemon :=
  Daemon.checked { config := { packageModes := modes .LEAF_HACK .AUTO }, keyboxes } (env 0) owner

end Demo

namespace EntryFormat

open ByteParcel CertificateHack Demo

theorem holdsEntry_attestedReply : entryFormat.HoldsEntry attestedReply attestedEntry :=
  ⟨entryFormat.writeToParcel attestedEntry, rfl, by decide +kernel⟩

theorem signable_attestedEntry :
    Signable platform x509 resigning owner attestedEntry [⟨[0x30, 1]⟩, ⟨[9]⟩] :=
  ⟨by decide, _, _, _, rfl, rfl, rfl⟩

theorem getKeyEntry_never_resigned_attested :
    ¬entryFormat.Resigned platform x509 (env 0) owner (some byAlias) attestedReply resigning attestedEntry
      [⟨[0x30, 1]⟩, ⟨[9]⟩] :=
  getKeyEntry_never_resigned entryFormat platform x509 (env 0) owner (some byAlias) attestedReply resigning
    attestedEntry [⟨[0x30, 1]⟩, ⟨[9]⟩] holdsEntry_attestedReply signable_attestedEntry (by decide)

/-- The policy wants an attested leaf signed again, and the client gets it as it was. -/
theorem real_chain_is_delivered :
    entryFormat.HoldsEntry attestedReply attestedEntry ∧
      Signable platform x509 resigning owner attestedEntry [⟨[0x30, 1]⟩, ⟨[9]⟩] ∧
      GetKeyEntryPostPolicy.decide (resigning.postHookInput (env 0) owner (some byAlias)) = .PATCH_LEAF ∧
      hackCertificateChain x509 resigning.keyboxes [⟨[0x30, 1]⟩, ⟨[9]⟩] owner = [⟨[0x31, 6]⟩, ⟨[7]⟩] ∧
      delivered attestedReply (entryFormat.postGetKeyEntry platform x509 (env 0) owner (some byAlias)
        attestedReply resigning).2 = attestedReply ∧
      ¬entryFormat.Resigned platform x509 (env 0) owner (some byAlias) attestedReply resigning attestedEntry
        [⟨[0x30, 1]⟩, ⟨[9]⟩] := by
  have hdelivered : delivered attestedReply (entryFormat.postGetKeyEntry platform x509 (env 0) owner
      (some byAlias) attestedReply resigning).2 = attestedReply := by decide +kernel
  refine ⟨holdsEntry_attestedReply, signable_attestedEntry, by decide, by decide, hdelivered, ?_⟩
  rintro ⟨served, hserved, hchain, -, -⟩
  rw [hdelivered, clientReads_of_holdsEntry holdsEntry_attestedReply] at hserved
  cases hserved
  exact absurd hchain (by decide)

end EntryFormat

end TrickyStore
