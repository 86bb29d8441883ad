import Mathlib.Data.List.Basic
import Mathlib.Tactic.Common

/-!
# Data types of the Keystore2 interface

The AIDL parcelables that the interceptors read and write (`KeyDescriptor`, `KeyParameter`,
`Authorization`, `KeyMetadata`, `KeyEntryResponse`), the constants of the `keymint` and `keystore2`
stubs that the code compares with, and the reply parcels of the real keystore.

A long or an int of the interface is an `Int`: no modelled function computes with one.  The access
vector of a grant is a `BitVec 32`, since its bits are tested.
-/

namespace TrickyStore

abbrev Bytes := List UInt8

/-! ## Constants of the stubs -/

namespace Algorithm
def RSA : Int := 1
def EC : Int := 3
def AES : Int := 32
def HMAC : Int := 128
end Algorithm

namespace KeyPurpose
def ENCRYPT : Int := 0
def DECRYPT : Int := 1
def SIGN : Int := 2
def VERIFY : Int := 3
def WRAP_KEY : Int := 5
def AGREE_KEY : Int := 6
def ATTEST_KEY : Int := 7
end KeyPurpose

namespace KeyPermission
def GET_INFO : BitVec 32 := 4
def UPDATE : BitVec 32 := 128
def USE : BitVec 32 := 256
end KeyPermission

namespace ResponseCode
def PERMISSION_DENIED : Int := 6
def KEY_NOT_FOUND : Int := 7
def INVALID_ARGUMENT : Int := 20
def TOO_MUCH_DATA : Int := 21
end ResponseCode

namespace KeymasterDefs
def KM_MODE_ECB : Int := 1
def KM_MODE_CBC : Int := 2
def KM_MODE_CTR : Int := 3
def KM_MODE_GCM : Int := 32
def KM_PAD_NONE : Int := 1
def KM_PAD_RSA_OAEP : Int := 2
def KM_PAD_RSA_PSS : Int := 3
def KM_PAD_RSA_PKCS1_1_5_ENCRYPT : Int := 4
def KM_PAD_RSA_PKCS1_1_5_SIGN : Int := 5
def KM_PAD_PKCS7 : Int := 64
def KM_DIGEST_SHA1 : Int := 2
def KM_DIGEST_SHA_2_224 : Int := 3
def KM_DIGEST_SHA_2_256 : Int := 4
def KM_DIGEST_SHA_2_384 : Int := 5
def KM_DIGEST_SHA_2_512 : Int := 6
def KM_ERROR_UNSUPPORTED_PURPOSE : Int := -2
def KM_ERROR_INCOMPATIBLE_PURPOSE : Int := -3
def KM_ERROR_UNSUPPORTED_BLOCK_MODE : Int := -7
def KM_ERROR_UNSUPPORTED_PADDING_MODE : Int := -10
def KM_ERROR_UNSUPPORTED_DIGEST : Int := -12
def KM_ERROR_INVALID_INPUT_LENGTH : Int := -21
def KM_ERROR_KEY_NOT_YET_VALID : Int := -24
def KM_ERROR_KEY_EXPIRED : Int := -25
def KM_ERROR_INVALID_OPERATION_HANDLE : Int := -28
def KM_ERROR_VERIFICATION_FAILED : Int := -30
def KM_ERROR_INVALID_ARGUMENT : Int := -38
def KM_ERROR_INVALID_TAG : Int := -40
def KM_ERROR_CALLER_NONCE_PROHIBITED : Int := -55
def KM_ERROR_CANNOT_ATTEST_IDS : Int := -66
def KM_ERROR_UNSUPPORTED_MGF_DIGEST : Int := -79
end KeymasterDefs

namespace Tag
def PURPOSE : Int := 536870913
def ALGORITHM : Int := 268435458
def KEY_SIZE : Int := 805306371
def BLOCK_MODE : Int := 536870916
def DIGEST : Int := 536870917
def PADDING : Int := 536870918
def CALLER_NONCE : Int := 1879048199
def EC_CURVE : Int := 268435466
def RSA_PUBLIC_EXPONENT : Int := 1342177480
def INCLUDE_UNIQUE_ID : Int := 1879048394
def RSA_OAEP_MGF_DIGEST : Int := 536871115
def ACTIVE_DATETIME : Int := 1610613136
def ORIGINATION_EXPIRE_DATETIME : Int := 1610613137
def USAGE_EXPIRE_DATETIME : Int := 1610613138
def MAX_USES_PER_BOOT : Int := 805306772
def USAGE_COUNT_LIMIT : Int := 805306773
def USER_ID : Int := 805306869
def NO_AUTH_REQUIRED : Int := 1879048695
def UNLOCKED_DEVICE_REQUIRED : Int := 1879048701
def CREATION_DATETIME : Int := 1610613437
def ORIGIN : Int := 268436158
def OS_VERSION : Int := 805307073
def OS_PATCHLEVEL : Int := 805307074
def ATTESTATION_CHALLENGE : Int := -1879047484
def ATTESTATION_ID_BRAND : Int := -1879047482
def ATTESTATION_ID_DEVICE : Int := -1879047481
def ATTESTATION_ID_PRODUCT : Int := -1879047480
def ATTESTATION_ID_SERIAL : Int := -1879047479
def ATTESTATION_ID_IMEI : Int := -1879047478
def ATTESTATION_ID_MEID : Int := -1879047477
def ATTESTATION_ID_MANUFACTURER : Int := -1879047476
def ATTESTATION_ID_MODEL : Int := -1879047475
def VENDOR_PATCHLEVEL : Int := 805307086
def BOOT_PATCHLEVEL : Int := 805307087
def DEVICE_UNIQUE_ATTESTATION : Int := 1879048912
def ATTESTATION_ID_SECOND_IMEI : Int := -1879047469
def NONCE : Int := -1879047191
def MAC_LENGTH : Int := 805307371
def CERTIFICATE_SERIAL : Int := -2147482642
def CERTIFICATE_SUBJECT : Int := -1879047185
def CERTIFICATE_NOT_BEFORE : Int := 1610613744
def CERTIFICATE_NOT_AFTER : Int := 1610613745
end Tag

/-! ## Parcelables -/

/-- A key as a client names it.  `nspace` is the key id, the grant id or, in the `APP` domain, a
value the real keystore ignores. -/
structure KeyDescriptor where
  domain : Int := 0
  nspace : Int := 0
  keyAlias : Option String := none
deriving DecidableEq, Repr

/-- The union of values a key parameter can carry; a getter of another member throws. -/
inductive KeyParameterValue where
  | algorithm (v : Int)
  | blockMode (v : Int)
  | paddingMode (v : Int)
  | digest (v : Int)
  | ecCurve (v : Int)
  | origin (v : Int)
  | keyPurpose (v : Int)
  | boolValue (v : Bool)
  | integer (v : Int)
  | longInteger (v : Int)
  | dateTime (v : Int)
  | blob (v : Bytes)
  /-- A member that no modelled function reads. -/
  | other (member : Int) (v : Int)
deriving DecidableEq, Repr

namespace KeyParameterValue

def getAlgorithm : KeyParameterValue → Option Int
  | algorithm v => some v
  | _ => none

def getBlockMode : KeyParameterValue → Option Int
  | blockMode v => some v
  | _ => none

def getPaddingMode : KeyParameterValue → Option Int
  | paddingMode v => some v
  | _ => none

def getDigest : KeyParameterValue → Option Int
  | digest v => some v
  | _ => none

def getEcCurve : KeyParameterValue → Option Int
  | ecCurve v => some v
  | _ => none

def getOrigin : KeyParameterValue → Option Int
  | origin v => some v
  | _ => none

def getKeyPurpose : KeyParameterValue → Option Int
  | keyPurpose v => some v
  | _ => none

def getBoolValue : KeyParameterValue → Option Bool
  | boolValue v => some v
  | _ => none

def getInteger : KeyParameterValue → Option Int
  | integer v => some v
  | _ => none

def getLongInteger : KeyParameterValue → Option Int
  | longInteger v => some v
  | _ => none

def getDateTime : KeyParameterValue → Option Int
  | dateTime v => some v
  | _ => none

def getBlob : KeyParameterValue → Option Bytes
  | blob v => some v
  | _ => none

end KeyParameterValue

structure KeyParameter where
  tag : Int
  value : KeyParameterValue
deriving DecidableEq, Repr

structure Authorization where
  keyParameter : KeyParameter
  securityLevel : Int
deriving DecidableEq, Repr

structure KeyMetadata where
  key : Option KeyDescriptor := none
  keySecurityLevel : Int := 0
  authorizations : Option (List Authorization) := none
  certificate : Option Bytes := none
  certificateChain : Option Bytes := none
  modificationTimeMs : Int := 0
deriving DecidableEq, Repr

/-- The two security levels whose binders are intercepted. -/
inductive SecurityLevel where
  | trustedEnvironment
  | strongbox
deriving DecidableEq, Repr

def SecurityLevel.toInt : SecurityLevel → Int
  | trustedEnvironment => 1
  | strongbox => 2

/-- A response object.  Responses are mutable objects that the caches share with nobody: `serial`
is the identity of the object, the time of the hook that made it. -/
structure KeyEntryResponse where
  metadata : KeyMetadata
  iSecurityLevel : Option SecurityLevel := none
  serial : ℕ := 0
deriving DecidableEq, Repr

/-! ## Certificates and keys -/

/-- A certificate is identified with its DER encoding. -/
structure Certificate where
  encoded : Bytes
deriving DecidableEq, Repr

/-- A key pair is identified with the encodings of its two halves. -/
structure KeyPair where
  publicKey : Bytes
  privateKey : Bytes
deriving DecidableEq, Repr

structure SecretKey where
  algorithm : String
  encoded : Bytes
deriving DecidableEq, Repr

structure KeyBox where
  keyPair : KeyPair
  certificates : List Certificate
deriving DecidableEq, Repr

/-- `KeyMetadata.putCertificateChain`: the first certificate, then the rest concatenated. -/
def KeyMetadata.putCertificateChain (m : KeyMetadata) : List Certificate → KeyMetadata
  | [] => m
  | [leaf] => { m with certificate := some leaf.encoded, certificateChain := none }
  | leaf :: rest =>
    { m with certificate := some leaf.encoded,
             certificateChain := some (rest.flatMap Certificate.encoded) }

@[simp] theorem KeyMetadata.putCertificateChain_key (m : KeyMetadata) (chain : List Certificate) :
    (m.putCertificateChain chain).key = m.key := by
  unfold putCertificateChain
  split <;> rfl

/-! ## Reply parcels of the real keystore -/

/-- What a reply parcel is made of: plain ints, and the body of a typed object as one item. -/
inductive ParcelItem where
  | int (n : Int)
  | metadata (m : KeyMetadata)
  | entry (r : KeyEntryResponse)
  | descriptor (d : KeyDescriptor)
  | descriptors (ds : List (Option KeyDescriptor))
  | other (b : Bytes)
deriving DecidableEq, Repr

/-- A parcel with its cursor: the items from the cursor on. -/
abbrev Parcel := List ParcelItem

namespace Parcel

/-- `readInt`; past the end a parcel reads as zero, inside a body the read fails. -/
def readInt : Parcel → Option (Int × Parcel)
  | [] => some (0, [])
  | .int n :: p => some (n, p)
  | _ :: _ => none

/-- `readException`: returns when the next int is zero, throws (`none`) otherwise. -/
def readException (p : Parcel) : Option Parcel :=
  match p.readInt with
  | some (0, p') => some p'
  | _ => none

/-- `readTypedObject`: a presence flag, then the body that `creator` recognises; `none` means that
the read throws. -/
def readTypedObject {α : Type} (creator : ParcelItem → Option α) (p : Parcel) :
    Option (Option α × Parcel) :=
  match p.readInt with
  | none => none
  | some (0, p') => some (none, p')
  | some (_, item :: p') => (creator item).map fun a => (some a, p')
  | some (_, []) => none

def keyMetadataCreator : ParcelItem → Option KeyMetadata
  | .metadata m => some m
  | _ => none

def keyEntryResponseCreator : ParcelItem → Option KeyEntryResponse
  | .entry r => some r
  | _ => none

def keyDescriptorCreator : ParcelItem → Option KeyDescriptor
  | .descriptor d => some d
  | _ => none

/-- The reply parcel of a service that reports the error `code`. -/
def exception (code : Int) (message : Bytes) : Parcel := [.int code, .other message]

/-- The reply parcel of a service that returns the typed object `item`. -/
def typedObject (item : ParcelItem) : Parcel := [.int 0, .int 1, item]

/-- The reply parcel of a service that returns nothing. -/
def noException : Parcel := [.int 0]

end Parcel

end TrickyStore
