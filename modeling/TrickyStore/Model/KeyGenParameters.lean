import Mathlib.Algebra.Group.Nat.Defs
import Mathlib.Algebra.Ring.Int.Defs
import TrickyStore.Model.Keystore

/-!
# Key generation parameters

`CertificateGen.KeyGenParameters` and the loop that fills it from the parameter list of a request.
A parameter whose value has another type than its tag expects is skipped, as the getter throws
inside `runCatching`.
-/

namespace TrickyStore

/-- `BigInteger(bytes)`: big-endian two's complement; the empty array is refused. -/
def bigInteger : Bytes → Option Int
  | [] => none
  | b :: bs =>
    let magnitude := (b :: bs).foldl (fun (n : ℕ) (x : UInt8) => 256 * n + x.toNat) 0
    some (if b < 128 then magnitude else (magnitude : Int) - 256 ^ (bs.length + 1))

/-- `BigInteger.toLong`: the low 64 bits, signed. -/
def toLong (n : Int) : Int := n.bmod (2 ^ 64)

structure EcCurveInfo where
  curve : Int
  name : String
  size : Int
deriving DecidableEq, Repr

/-- P_256 stands before CURVE_25519, so that the size 256 resolves to secp256r1. -/
def EC_CURVES : List EcCurveInfo :=
  [⟨0, "secp224r1", 224⟩, ⟨1, "secp256r1", 256⟩, ⟨2, "secp384r1", 384⟩, ⟨3, "secp521r1", 521⟩,
    ⟨4, "CURVE_25519", 256⟩]

def resolveEcCurveName (curve keySize : Int) : String :=
  (((EC_CURVES.find? fun c => c.curve = curve).map EcCurveInfo.name).or
    ((EC_CURVES.find? fun c => c.size = keySize).map EcCurveInfo.name)).getD "secp256r1"

structure KeyGenParameters where
  keySize : Int := 0
  algorithm : Int := 0
  certificateSerial : Option Int := none
  certificateNotBefore : Option Int := none
  certificateNotAfter : Option Int := none
  certificateSubject : Option String := none
  rsaPublicExponent : Option Int := none
  ecCurve : Int := 0
  ecCurveName : Option String := none
  purpose : List Int := []
  digest : List Int := []
  padding : List Int := []
  blockMode : List Int := []
  mgfDigest : List Int := []
  usageCountLimit : Int := 0
  callerNonce : Option Bool := none
  unlockedDeviceRequired : Option Bool := none
  activeDateTime : Option Int := none
  originationExpireDateTime : Option Int := none
  usageExpireDateTime : Option Int := none
  attestationChallenge : Option Bytes := none
  brand : Option Bytes := none
  device : Option Bytes := none
  product : Option Bytes := none
  manufacturer : Option Bytes := none
  model : Option Bytes := none
  imei1 : Option Bytes := none
  imei2 : Option Bytes := none
  meid : Option Bytes := none
  serialno : Option Bytes := none
  includeUniqueId : Option Bool := none
  noAuthRequired : Option Bool := none
  origin : Option Int := none
deriving DecidableEq, Repr

namespace KeyGenParameters

/-- One round of the constructor's loop; `none` when a getter or a conversion throws.  `x500Name`
is the parser of distinguished names, which refuses malformed ones. -/
def assign (x500Name : Bytes → Option String) (k : KeyGenParameters) (p : KeyParameter) :
    Option KeyGenParameters :=
  let v := p.value
  if p.tag = Tag.KEY_SIZE then v.getInteger.map fun x => { k with keySize := x }
  else if p.tag = Tag.ALGORITHM then v.getAlgorithm.map fun x => { k with algorithm := x }
  else if p.tag = Tag.CERTIFICATE_SERIAL then
    (v.getBlob.bind bigInteger).map fun x => { k with certificateSerial := some x }
  else if p.tag = Tag.CERTIFICATE_NOT_BEFORE then
    v.getDateTime.map fun x => { k with certificateNotBefore := some x }
  else if p.tag = Tag.CERTIFICATE_NOT_AFTER then
    v.getDateTime.map fun x => { k with certificateNotAfter := some x }
  else if p.tag = Tag.CERTIFICATE_SUBJECT then
    (v.getBlob.bind x500Name).map fun x => { k with certificateSubject := some x }
  else if p.tag = Tag.RSA_PUBLIC_EXPONENT then
    v.getLongInteger.map fun x => { k with rsaPublicExponent := some x }
  else if p.tag = Tag.EC_CURVE then
    v.getEcCurve.map fun x => { k with ecCurve := x, ecCurveName := some (resolveEcCurveName x 0) }
  else if p.tag = Tag.PURPOSE then
    v.getKeyPurpose.map fun x => { k with purpose := k.purpose ++ [x] }
  else if p.tag = Tag.DIGEST then v.getDigest.map fun x => { k with digest := k.digest ++ [x] }
  else if p.tag = Tag.PADDING then
    v.getPaddingMode.map fun x => { k with padding := k.padding ++ [x] }
  else if p.tag = Tag.BLOCK_MODE then
    v.getBlockMode.map fun x => { k with blockMode := k.blockMode ++ [x] }
  else if p.tag = Tag.RSA_OAEP_MGF_DIGEST then
    v.getDigest.map fun x => { k with mgfDigest := k.mgfDigest ++ [x] }
  else if p.tag = Tag.USAGE_COUNT_LIMIT then
    v.getInteger.map fun x => { k with usageCountLimit := x }
  else if p.tag = Tag.MAX_USES_PER_BOOT then
    if k.usageCountLimit = 0 then v.getInteger.map fun x => { k with usageCountLimit := x }
    else some k
  else if p.tag = Tag.CALLER_NONCE then
    v.getBoolValue.map fun x => { k with callerNonce := some x }
  else if p.tag = Tag.UNLOCKED_DEVICE_REQUIRED then
    v.getBoolValue.map fun x => { k with unlockedDeviceRequired := some x }
  else if p.tag = Tag.ACTIVE_DATETIME then
    v.getDateTime.map fun x => { k with activeDateTime := some x }
  else if p.tag = Tag.ORIGINATION_EXPIRE_DATETIME then
    v.getDateTime.map fun x => { k with originationExpireDateTime := some x }
  else if p.tag = Tag.USAGE_EXPIRE_DATETIME then
    v.getDateTime.map fun x => { k with usageExpireDateTime := some x }
  else if p.tag = Tag.ATTESTATION_CHALLENGE then
    v.getBlob.map fun x => { k with attestationChallenge := some x }
  else if p.tag = Tag.ATTESTATION_ID_BRAND then v.getBlob.map fun x => { k with brand := some x }
  else if p.tag = Tag.ATTESTATION_ID_DEVICE then v.getBlob.map fun x => { k with device := some x }
  else if p.tag = Tag.ATTESTATION_ID_PRODUCT then
    v.getBlob.map fun x => { k with product := some x }
  else if p.tag = Tag.ATTESTATION_ID_MANUFACTURER then
    v.getBlob.map fun x => { k with manufacturer := some x }
  else if p.tag = Tag.ATTESTATION_ID_MODEL then v.getBlob.map fun x => { k with model := some x }
  else if p.tag = Tag.ATTESTATION_ID_IMEI then v.getBlob.map fun x => { k with imei1 := some x }
  else if p.tag = Tag.ATTESTATION_ID_SECOND_IMEI then
    v.getBlob.map fun x => { k with imei2 := some x }
  else if p.tag = Tag.ATTESTATION_ID_MEID then v.getBlob.map fun x => { k with meid := some x }
  else if p.tag = Tag.ATTESTATION_ID_SERIAL then
    v.getBlob.map fun x => { k with serialno := some x }
  else if p.tag = Tag.INCLUDE_UNIQUE_ID then
    v.getBoolValue.map fun x => { k with includeUniqueId := some x }
  else if p.tag = Tag.NO_AUTH_REQUIRED then
    v.getBoolValue.map fun x => { k with noAuthRequired := some x }
  else if p.tag = Tag.ORIGIN then v.getOrigin.map fun x => { k with origin := some x }
  else some k

/-- The constructor from a parameter list. -/
def ofParams (x500Name : Bytes → Option String) (params : List KeyParameter) : KeyGenParameters :=
  let k := params.foldl (fun k p => (k.assign x500Name p).getD k) {}
  if k.ecCurveName = none ∧ k.keySize ≠ 0 then
    { k with ecCurveName := some (resolveEcCurveName 0 k.keySize) }
  else k

end KeyGenParameters

def effectiveKeySize (params : KeyGenParameters) : Int :=
  if params.keySize > 0 then params.keySize
  else if params.algorithm ≠ Algorithm.EC then 0
  else ((EC_CURVES.find? fun c => some c.name = params.ecCurveName).map EcCurveInfo.size).getD 256

def digestSuffix (digest : Int) : String :=
  if digest = KeymasterDefs.KM_DIGEST_SHA1 then "1"
  else if digest = KeymasterDefs.KM_DIGEST_SHA_2_224 then "224"
  else if digest = KeymasterDefs.KM_DIGEST_SHA_2_256 then "256"
  else if digest = KeymasterDefs.KM_DIGEST_SHA_2_384 then "384"
  else if digest = KeymasterDefs.KM_DIGEST_SHA_2_512 then "512"
  else "256"

def digestName (digest : Int) (hyphenated : Bool) : String :=
  if hyphenated then "SHA-" ++ digestSuffix digest else "SHA" ++ digestSuffix digest

end TrickyStore
