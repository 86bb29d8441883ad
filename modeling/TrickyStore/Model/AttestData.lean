import TrickyStore.Model.AttestationExtension

/-!
# What the daemon reads of a real attestation

`AttestUtils` takes the key description of a real leaf apart and keeps what forged attestations report as
well.
-/

open Lib

namespace TrickyStore

namespace Asn1

/-- `ASN1Integer.getInstance`; another object throws. -/
def asInteger : Asn1 → Option Int
  | integer v => some v
  | _ => none

/-- `ASN1OctetString.getInstance`; another object throws. -/
def asOctetString : Asn1 → Option Bytes
  | octetString octets => some octets
  | _ => none

end Asn1

namespace AttestUtils

/-- `BigInteger.toInt`. -/
def toInt (v : Int) : Int := v.bmod (2 ^ 32)

structure AttestationData where
  verifiedBootKey : Option Bytes
  verifiedBootHash : Option Bytes
  attestVersion : Option Int
  keymasterVersion : Option Int
  osVersion : Option Int
  moduleHash : Option Bytes
deriving DecidableEq, Repr

/-- The variables that are set from the enforced list. -/
structure TeeVariables where
  attestVerifiedBootKey : Option Bytes := none
  attestVerifiedBootHash : Option Bytes := none
  attestOSVersion : Option Int := none
deriving DecidableEq, Repr

def rootOfTrustElement (vars : TeeVariables) (base : Asn1) : Option TeeVariables := do
  let rootOfTrustSeq ← base.asSequence
  if rootOfTrustSeq.length ≥ 4 then
    let key ← rootOfTrustSeq[0]?.bind Asn1.asOctetString
    let hash ← rootOfTrustSeq[3]?.bind Asn1.asOctetString
    return { vars with attestVerifiedBootKey := some key, attestVerifiedBootHash := some hash }
  else return vars

/-- One element of the enforced list, which must be a tagged one. -/
def teeElement (vars : TeeVariables) (element : Asn1) : Option TeeVariables := do
  let tagged ← element.asTagged
  if tagged.tagNo = 704 then rootOfTrustElement vars tagged.base
  else if tagged.tagNo = 705 then
    let v ← tagged.base.asInteger
    return { vars with attestOSVersion := some (toInt v) }
  else return vars

/-- One element of the other list, where another object is passed over. -/
def swElement (attestModuleHash : Option Bytes) (element : Asn1) : Option (Option Bytes) :=
  match element.asTagged with
  | none => some attestModuleHash
  | some tagged =>
    if tagged.tagNo = 724 then tagged.base.asOctetString.map some else some attestModuleHash

/-- The part of `parseAttestData` that reads the key description; `none` for one that cannot be read. -/
def parseKeyDescription (encodables : List Asn1) : Option AttestationData := do
  let attestVersion ← encodables[0]?.bind Asn1.asInteger
  let keymasterVersion ← encodables[2]?.bind Asn1.asInteger
  let teeEnforced ← encodables[7]?.bind Asn1.asSequence
  let vars ← teeEnforced.foldlM teeElement {}
  let softwareEnforced := (encodables[6]?.bind Asn1.asSequence).getD []
  let attestModuleHash ← softwareEnforced.foldlM swElement none
  return {
    verifiedBootKey := vars.attestVerifiedBootKey
    verifiedBootHash := vars.attestVerifiedBootHash
    attestVersion := some (toInt attestVersion)
    keymasterVersion := some (toInt keymasterVersion)
    osVersion := vars.attestOSVersion
    moduleHash := attestModuleHash }

def parseAttestData (lib : LeafLibrary) (leaf : Certificate) : Option AttestationData := do
  let octets ← lib.attestationExtension leaf
  let encodables ← lib.codec.getInstance octets
  parseKeyDescription encodables

end AttestUtils

end TrickyStore
