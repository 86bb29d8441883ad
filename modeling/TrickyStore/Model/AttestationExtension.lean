import TrickyStore.Lib.SortBy
import TrickyStore.Model.CertificateHack

/-!
# The attestation extension

The key description of a certificate: `CertificateGen.buildAttestExtension` writes one for a forged key,
`CertificateHack` rewrites the one of a real key.  The work is done on ASN.1 objects; what turns bytes
into objects and back is a library.
-/

open Lib

namespace TrickyStore

/-- The ASN.1 objects that the code tells apart. -/
inductive Asn1 where
  | integer (v : Int)
  | enumerated (v : Int)
  | boolean (v : Bool)
  | null
  | octetString (octets : Bytes)
  | sequence (elements : List Asn1)
  | set (elements : List Asn1)
  | tagged (tagClass : ℕ) (explicit : Bool) (tagNo : ℕ) (base : Asn1)
  | other (encoded : Bytes)

structure TaggedObject where
  tagClass : ℕ
  explicit : Bool
  tagNo : ℕ
  base : Asn1

def CONTEXT_SPECIFIC : ℕ := 0x80

def TaggedObject.toAsn1 (o : TaggedObject) : Asn1 := .tagged o.tagClass o.explicit o.tagNo o.base

/-- `DERTaggedObject(true, tagNo, base)`. -/
def taggedObject (row : ℕ × Asn1) : TaggedObject := ⟨CONTEXT_SPECIFIC, true, row.1, row.2⟩

namespace Asn1

def asTagged : Asn1 → Option TaggedObject
  | tagged tagClass explicit tagNo base => some ⟨tagClass, explicit, tagNo, base⟩
  | _ => none

def asSequence : Asn1 → Option (List Asn1)
  | sequence elements => some elements
  | _ => none

/-- `ByteArray` of a `DEROctetString`; another object throws. -/
def getByteArrayFromAsn1 : Asn1 → Option Bytes
  | octetString octets => some octets
  | _ => none

end Asn1

@[simp] theorem TaggedObject.asTagged_toAsn1 (o : TaggedObject) : o.toAsn1.asTagged = some o := rfl

@[simp] theorem taggedObject_tagNo (row : ℕ × Asn1) : (taggedObject row).tagNo = row.1 := rfl

@[simp] theorem taggedObject_base (row : ℕ × Asn1) : (taggedObject row).base = row.2 := rfl

/-- The tagged objects in an element of a key description. -/
def listAt (keyDescription : List Asn1) (i : ℕ) : List TaggedObject :=
  ((keyDescription[i]?.bind Asn1.asSequence).getD []).filterMap Asn1.asTagged

theorem listAt_map {keyDescription : List Asn1} {i : ℕ} {objects : List TaggedObject}
    (h : keyDescription[i]? = some (.sequence (objects.map TaggedObject.toAsn1))) :
    listAt keyDescription i = objects := by
  unfold listAt
  rw [h]
  simp [Asn1.asSequence, List.filterMap_map, Function.comp_def]

/-- What the extension reports of the device and of the requesting app.  `none` stands for an exception,
except that a missing boot hash throws where it is used. -/
structure AttestationData where
  bootKey : Bytes
  getBootHashFromProp : Option Bytes
  attestationVersions : Int → Int × Int
  moduleHash : Bytes
  createApplicationId : Int → Option Bytes
  computeUniqueId : Int → Bytes → Option Bytes

def rootOfTrust (bootKey hash : Bytes) : Asn1 :=
  .sequence [.octetString bootKey, .boolean true, .enumerated 0, .octetString hash]

/-- What turns bytes into a sequence and back. -/
structure Asn1Codec where
  getInstance : Bytes → Option (List Asn1)
  encoded : List Asn1 → Bytes

/-! ## Forged keys -/

namespace CertificateGen

variable (P : Platform) (env : Env) (data : AttestationData) (params : KeyGenParameters) (uid : Int)

def teeSet (vs : List Int) : Option Asn1 :=
  if vs = [] then none else some (.set (vs.map .integer))

/-- A row that stands when the condition holds. -/
def rowIf (p : Prop) [Decidable p] (v : Asn1) : Option Asn1 := if p then some v else none

/-- The calls of `teeTag` and `teeSet` in their order, with the tag and what is added under it. -/
def teeTable (attestationVersion : Int) (hash : Bytes) : List (ℕ × Option Asn1) :=
  [(1, teeSet params.purpose),
    (2, some (.integer params.algorithm)),
    (3, rowIf (effectiveKeySize params > 0) (.integer (effectiveKeySize params))),
    (5, teeSet params.digest),
    (503, rowIf (params.noAuthRequired = some true) .null),
    (1005, rowIf (params.callerNonce = some true) .null),
    (702, some (.integer (params.origin.getD 0))),
    (704, some (rootOfTrust data.bootKey hash)),
    (705, some (.integer P.osVersion)),
    (706, rowIf (env.patchLevel uid ≠ DO_NOT_REPORT) (.integer (env.patchLevel uid))),
    (718, rowIf (env.vendorPatchLevelLong uid ≠ DO_NOT_REPORT) (.integer (env.vendorPatchLevelLong uid))),
    (719, rowIf (env.bootPatchLevelLong uid ≠ DO_NOT_REPORT) (.integer (env.bootPatchLevelLong uid))),
    (4, teeSet params.blockMode),
    (6, teeSet params.padding),
    (203, if attestationVersion ≥ 100 then teeSet params.mgfDigest else none),
    (10, rowIf (params.algorithm = Algorithm.EC ∧ params.ecCurve ≠ 0) (.integer params.ecCurve)),
    (200, if params.algorithm = Algorithm.RSA then params.rsaPublicExponent.map .integer else none),
    (710, params.brand.map .octetString),
    (711, params.device.map .octetString),
    (712, params.product.map .octetString),
    (716, params.manufacturer.map .octetString),
    (717, params.model.map .octetString),
    (713, params.serialno.map .octetString),
    (714, params.imei1.map .octetString),
    (715, params.meid.map .octetString),
    (723, if attestationVersion ≥ 300 then params.imei2.map .octetString else none)]

def swTable (attestationVersion : Int) (applicationId : Option Bytes) : List (ℕ × Option Asn1) :=
  [(701, some (.integer env.currentTimeMillis)),
    (400, params.activeDateTime.map .integer),
    (401, params.originationExpireDateTime.map .integer),
    (402, params.usageExpireDateTime.map .integer),
    (405, rowIf (params.usageCountLimit > 0) (.integer params.usageCountLimit)),
    (509, rowIf (params.unlockedDeviceRequired = some true) .null),
    (709, applicationId.map .octetString),
    (724, rowIf (attestationVersion ≥ 400) (.octetString data.moduleHash))]

/-- The objects that a table adds, sorted by their tags. -/
def authorizationList (table : List (ℕ × Option Asn1)) : List TaggedObject :=
  sortBy TaggedObject.tagNo ((present table).map taggedObject)

/-- The application id, which only an attested key has. -/
def applicationIdFor : Option (Option Bytes) :=
  if params.attestationChallenge.isSome then (data.createApplicationId uid).map some else some none

def uniqueIdFor (applicationId : Option Bytes) : Option Bytes :=
  match applicationId with
  | some octets =>
    if params.includeUniqueId = some true then data.computeUniqueId env.currentTimeMillis octets else some []
  | none => some []

/-- The elements of the key description. -/
def buildAttestExtension (securityLevel : Int) : Option (List Asn1) := do
  let attestationVersion := (data.attestationVersions securityLevel).1
  let keymasterVersion := (data.attestationVersions securityLevel).2
  let hash ← data.getBootHashFromProp
  let applicationId ← applicationIdFor data params uid
  let uniqueId ← uniqueIdFor env data params applicationId
  let sw := authorizationList (swTable env data params attestationVersion applicationId)
  let tee := authorizationList (teeTable P env data params uid attestationVersion hash)
  return [.integer attestationVersion, .enumerated securityLevel, .integer keymasterVersion,
    .enumerated securityLevel, .octetString (params.attestationChallenge.getD []), .octetString uniqueId,
    .sequence (sw.map TaggedObject.toAsn1), .sequence (tee.map TaggedObject.toAsn1)]

end CertificateGen

/-! ## Real keys -/

namespace CertificateHack

variable (P : Platform) (env : Env) (data : AttestationData) (uid : Int)

def containsRootOfTrust : Asn1 → Bool
  | .sequence elements => elements.any fun e => e.asTagged.any fun o => o.tagNo = 704
  | _ => false

/-- The hash in the original root of trust, if it can be read. -/
def originalBootHash : Option Asn1 → Option Bytes
  | some (.sequence elements) => elements[3]?.bind Asn1.getByteArrayFromAsn1
  | _ => none

/-- An element with this tag is rebuilt, or stripped for an override. -/
def isStripped (tagNo : ℕ) : Bool :=
  tagNo = 704 || tagNo = 705 || tagNo = 706 && (env.patchLevelOverride uid).isSome ||
    tagNo = 718 && (env.vendorPatchLevelOverride uid).isSome ||
      tagNo = 719 && (env.bootPatchLevelOverride uid).isSome

/-- A patch level as it is added; `device_default` keeps the original and `no` adds none. -/
def overrideRow (override : Option Int) : Option Asn1 :=
  (override.filter (· ≠ DO_NOT_REPORT)).map .integer

/-- The elements that are added, in their order. -/
def rebuiltTable (hash : Bytes) : List (ℕ × Option Asn1) :=
  [(705, some (.integer P.osVersion)),
    (706, overrideRow (env.patchLevelOverride uid)),
    (718, overrideRow (env.vendorPatchLevelOverride uid)),
    (719, overrideRow (env.bootPatchLevelOverride uid)),
    (704, some (rootOfTrust data.bootKey hash))]

def rebuilt (vector : List TaggedObject) (hash : Bytes) : List TaggedObject :=
  sortBy TaggedObject.tagNo
    ((vector.filter fun o => !isStripped env uid o.tagNo) ++
      (present (rebuiltTable P env data uid hash)).map taggedObject)

def hackAttestExtension (originalRootOfTrust : Option Asn1) (vector : List TaggedObject)
    (originalEncodables : List Asn1) (teeIndex : ℕ) : Option (List Asn1) := do
  let hash ← (originalBootHash originalRootOfTrust).or data.getBootHashFromProp
  return originalEncodables.set teeIndex
    (.sequence ((rebuilt P env data uid vector hash).map TaggedObject.toAsn1))

/-- Some keymasters swap the two lists, so the enforced one is where the root of trust is. -/
def teeIndexOf (encodables : List Asn1) : ℕ :=
  if encodables[6]?.any containsRootOfTrust then 6 else 7

/-- The part of `hackLeaf` that rewrites the key description. -/
def hackKeyDescription (encodables : List Asn1) : Option (List Asn1) := do
  let _ ← encodables[6]?
  let teeIndex := teeIndexOf encodables
  let teeEnforced ← encodables[teeIndex]?.bind Asn1.asSequence
  let objects ← teeEnforced.mapM Asn1.asTagged
  let rootOfTrust := (objects.filter fun o => o.tagNo = 704).getLast?.map TaggedObject.base
  hackAttestExtension P env data uid rootOfTrust (objects.filter fun o => o.tagNo ≠ 704) encodables teeIndex

/-- The octets of the extension before and after. -/
def hackExtension (codec : Asn1Codec) (octets : Bytes) : Option Bytes :=
  ((codec.getInstance octets).bind (hackKeyDescription P env data uid)).map codec.encoded

end CertificateHack

/-- What the code reads from a leaf, and the building and signing of one with another attestation
extension; `none` stands for an exception.  A certificate can be read from its encoding, which is a Java
array, and what was built has the extension that it was built with. -/
structure LeafLibrary where
  generateCertificate : Bytes → Option Certificate
  attestationExtension : Certificate → Option Bytes
  publicKeyAlgorithm : Certificate → String
  codec : Asn1Codec
  build : KeyBox → Certificate → Bytes → Option Certificate
  generateCertificate_encoded {b : Bytes} {leaf : Certificate} :
    generateCertificate b = some leaf → generateCertificate leaf.encoded = some leaf
  generateCertificate_build {keybox : KeyBox} {leaf built : Certificate} {octets : Bytes} :
    build keybox leaf octets = some built → generateCertificate built.encoded = some built
  attestationExtension_build {keybox : KeyBox} {leaf built : Certificate} {octets : Bytes} :
    build keybox leaf octets = some built → attestationExtension built = some octets
  length_build {keybox : KeyBox} {leaf built : Certificate} {octets : Bytes} :
    build keybox leaf octets = some built → built.encoded.length < 2 ^ 31

namespace LeafLibrary

variable (lib : LeafLibrary) (P : Platform) (env : Env) (data : AttestationData)

/-- The part of `hackLeaf` that builds the leaf. -/
def rebuildLeaf (keybox : KeyBox) (leaf : Certificate) (uid : Int) : Option Certificate := do
  let octets ← lib.attestationExtension leaf
  let hacked ← CertificateHack.hackExtension P env data uid lib.codec octets
  lib.build keybox leaf hacked

theorem length_rebuildLeaf {keybox : KeyBox} {leaf hacked : Certificate} {uid : Int}
    (h : lib.rebuildLeaf P env data keybox leaf uid = some hacked) : hacked.encoded.length < 2 ^ 31 := by
  simp only [rebuildLeaf, Option.bind_eq_bind, Option.bind_eq_some_iff] at h
  obtain ⟨octets, -, extension, -, hbuilt⟩ := h
  exact lib.length_build hbuilt

/-- Certificates whose attestation extension is rewritten by `hackAttestExtension`. -/
def x509 : X509 where
  generateCertificate := lib.generateCertificate
  hasAttestationExtension := fun leaf => (lib.attestationExtension leaf).isSome
  publicKeyAlgorithm := lib.publicKeyAlgorithm
  rebuildLeaf := lib.rebuildLeaf P env data
  generateCertificate_encoded := lib.generateCertificate_encoded
  length_rebuildLeaf := lib.length_rebuildLeaf P env data

/-- The surroundings of a hook that re-signs with this library. -/
def hookEnv : Env := { env with hackLeaf := CertificateHack.hackLeaf (lib.x509 P env data) }

def hookPlatform : Platform := { P with toCertificate := lib.generateCertificate }

end LeafLibrary

/-- A device with a boot hash and KeyMint 3. -/
def Demo.attestationData : AttestationData where
  bootKey := [11]
  getBootHashFromProp := some [12]
  attestationVersions := fun _ => (300, 300)
  moduleHash := [13]
  createApplicationId := fun _ => some [14]
  computeUniqueId := fun _ _ => some [15]

end TrickyStore
