import TrickyStore.Lib.Der
import TrickyStore.Model.AttestationExtension
import TrickyStore.Model.KeyFile

/-!
# The attestation application id

`createApplicationId` lists the packages of a uid with their versions and the digests of the certificates
that they are or were signed with, as two DER sets.  The digests are collected in a set of arrays, and an
array is equal to itself only: every digest that is computed is added.
-/

open Lib

namespace TrickyStore

/-- What `getPackageInfo` tells of a package; the history is none when `signingInfo` or its history is null.
A name fits into an array. -/
structure PackageInfo where
  packageName : String
  longVersionCode : Int
  signingCertificateHistory : Option (List Bytes)
  name_fits : packageName.toByteArray.data.toList.length < 2 ^ 31

/-- The answers of `PackageManager` that the application id is made of; `none` is null or an exception. -/
structure PackageInfos where
  getPackagesForUid : Int → Option (List String)
  getPackageInfo : String → Int → Option PackageInfo

/-- SHA-256 and the keyed hash. -/
structure Digests where
  sha256 : Bytes → { d : Bytes // d.length = 32 }
  hmacSHA256 : Bytes → Bytes → Bytes

namespace CertificateGen

def derOctetString (octets : Bytes) : Bytes := Der.encode 0x04 octets

def asn1Integer (v : Int) : Bytes := Der.encode 0x02 (toByteArray v)

def derSequence (elements : List Bytes) : Bytes := Der.encode 0x30 elements.flatten

/-- `DERSet`, which sorts its elements. -/
def derSet (elements : List Bytes) : Bytes := Der.encode 0x31 (Der.sorted elements).flatten

/-- The packages of a uid, in the order in which they are listed. -/
def packageInfos (pm : PackageInfos) (uid : Int) : Option (List PackageInfo) := do
  let packages ← pm.getPackagesForUid uid
  packages.mapM fun pkg => pm.getPackageInfo pkg (uid.tdiv 100000)

/-- The digests that are added for a package. -/
def signatures (h : Digests) (info : PackageInfo) : List Bytes :=
  (info.signingCertificateHistory.getD []).map fun sig => (h.sha256 sig).1

def packageSequence (info : PackageInfo) : Bytes :=
  derSequence [derOctetString info.packageName.toByteArray.data.toList, asn1Integer info.longVersionCode]

/-- The octets of the application id; it throws when there is no `PackageManager` or a package is unknown. -/
def createApplicationId (h : Digests) (pm : Option PackageInfos) (uid : Int) : Option Bytes := do
  let pm ← pm
  let infos ← packageInfos pm uid
  let packageInfoArray := infos.map packageSequence
  let sigArray := (infos.flatMap (signatures h)).map derOctetString
  return derSequence [derSet packageInfoArray, derSet sigArray]

/-- The counter advances every 30 days. -/
def computeUniqueId (h : Digests) (hbk : Bytes) (creationTimeMs : Int) (aaidDer : Bytes) : Bytes :=
  let temporalCounter := creationTimeMs.tdiv 2592000000
  let message := bigEndian 8 (twosComplement 8 temporalCounter) ++ aaidDer ++ [0x00]
  (h.hmacSHA256 hbk message).take 16

end CertificateGen

/-- The data of the extension, with the application id and the unique id as they are computed. -/
def AttestationData.withApplicationId (data : AttestationData) (h : Digests) (pm : Option PackageInfos)
    (hbk : Bytes) : AttestationData :=
  { data with
    createApplicationId := CertificateGen.createApplicationId h pm
    computeUniqueId := fun creationTimeMs aaidDer =>
      some (CertificateGen.computeUniqueId h hbk creationTimeMs aaidDer) }

end TrickyStore
