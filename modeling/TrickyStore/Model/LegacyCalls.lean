import TrickyStore.Model.KeystoreInterceptor

/-!
# Calls of the legacy keystore

A client of the legacy keystore puts one of the prefixes of `Credentials` before the alias of its key, and
the interceptor takes it off again.  A call comes with what its hooks read from their surroundings and the
answer that the keystore has for it.
-/

open Lib

namespace TrickyStore

namespace Credentials
def USER_PRIVATE_KEY : String := "USRPKEY_"
def USER_SECRET_KEY : String := "USRSKEY_"
end Credentials

inductive KeyPrefix where
  | CA_CERTIFICATE
  | USER_CERTIFICATE
  | USER_PRIVATE_KEY
  | USER_SECRET_KEY
deriving DecidableEq, Repr

def KeyPrefix.text : KeyPrefix → String
  | .CA_CERTIFICATE => Credentials.CA_CERTIFICATE
  | .USER_CERTIFICATE => Credentials.USER_CERTIFICATE
  | .USER_PRIVATE_KEY => Credentials.USER_PRIVATE_KEY
  | .USER_SECRET_KEY => Credentials.USER_SECRET_KEY

/-- A request about the alias `name` of the caller. -/
structure LegacyCall where
  callingUid : Int
  name : String
  keyPrefix : KeyPrefix := .USER_PRIVATE_KEY
  code : LegacyTransaction
  toKeystore : Bool := true
  enforced : Bool := true
  callback : Bool := true
  arguments : Option KeymasterArguments := none
  env : Env
  x : X509
  real : BitVec 32 × Option Bytes := (0, none)

namespace LegacyCall

variable (c : LegacyCall)

def keyAlias : String := c.keyPrefix.text ++ c.name

/-- The key under which the hooks store what they know about the alias. -/
def key : Key := ⟨c.callingUid, extractAlias c.keyAlias⟩

def request : LegacyRequest where
  code := c.code
  toKeystore := c.toKeystore
  enforced := c.enforced
  callback := c.callback
  keyAlias := some c.keyAlias
  arguments := c.arguments

end LegacyCall

/-- What the interceptor has for one key. -/
structure LegacyEntries where
  keyArguments : Option KeyGenParameters
  keyPair : Option KeyPair
  leafAlgorithm : Option String
deriving DecidableEq, Repr

namespace KeystoreInterceptor

variable (P : Platform) (s : KeystoreInterceptor) (c : LegacyCall)

def entries (k : Key) : LegacyEntries where
  keyArguments := s.keyArguments.lookup k
  keyPair := s.keyPairs.lookup k
  leafAlgorithm := s.shared.leafAlgorithms.lookup k

/-- The state after a call. -/
def next : KeystoreInterceptor := (s.transact P c.x c.env c.callingUid c.request c.real).1

/-- What the client gets: the calls of its callback, and the reply. -/
def callbacks : List LegacyCallback := (s.onPreTransact P c.env c.callingUid c.request).2.2

def reply : BitVec 32 × Option Bytes := (s.transact P c.x c.env c.callingUid c.request c.real).2

/-- The hook takes the request for a forged key. -/
def taken : Bool := s.shared.hasKeyboxes && s.shared.needGenerate c.env c.callingUid && c.enforced

end KeystoreInterceptor

end TrickyStore
