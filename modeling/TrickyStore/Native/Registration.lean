import TrickyStore.Model.ByteParcel
import TrickyStore.Native.TransactionQueue

/-!
# Registering an interceptor

The daemon tells the hook in the keystore process which binder to intercept, by which interceptor and for
which transaction codes.  The hook keeps one registration for each binder, the last that it could read.
-/

open Lib

namespace TrickyStore

open ByteParcel

/-! ## The daemon -/

namespace BinderInterceptor

/-- Codes that the platform does not have are negative. -/
def interceptedCodes (codes : List (BitVec 32)) : List (BitVec 32) := codes.filter fun c => 0 ≤ c.toInt

def writeIntArray (codes : List (BitVec 32)) : ParcelM Unit := do
  writeInt (.ofNat 32 codes.length)
  codes.forM writeInt

/-- The data of `registerBinderInterceptor`. -/
def registerBinderInterceptor {Binder : Type} (B : BinderFormat Binder) (target interceptor : Binder)
    (codes : List (BitVec 32)) : ParcelM Unit := do
  B.writeStrongBinder target
  B.writeStrongBinder interceptor
  writeIntArray (interceptedCodes codes)

end BinderInterceptor

/-! ## The hook -/

namespace Native

def kRegisterInterceptor : BitVec 32 := 1

inductive Status where
  | OK
  | BAD_VALUE
  | UNKNOWN_TRANSACTION
deriving DecidableEq, Repr

structure InterceptorRegistration (Binder : Type) where
  interceptorBinder : Binder
  codes : List (BitVec 32)
deriving DecidableEq, Repr

/-- `interceptor_registry_`. -/
abbrev Registrations (Binder : Type) := Binder → Option (InterceptorRegistration Binder)

def Registrations.registry {Binder : Type} (registrations : Registrations Binder) : Registry Binder :=
  fun target => (registrations target).map InterceptorRegistration.codes

namespace BinderInterceptor

variable {Binder : Type} (B : BinderFormat Binder) (isLocal : Binder → Bool)

def readCodes : ℕ → ParcelM (List (BitVec 32))
  | 0 => pure []
  | n + 1 => do
    let code ← readIntStatus
    let codes ← readCodes n
    return code :: codes

/-- What `handleRegisterInterceptor` reads.  A negative count is none, and memory for the announced count is
granted. -/
def readRegistration : ParcelM (Binder × InterceptorRegistration Binder) := do
  let target ← B.readStrongBinder
  if !isLocal target then StateT.lift none
  let interceptor ← B.readStrongBinder
  let count ← readIntStatus
  let codes ← readCodes (if count.toInt < 0 then 0 else count.toNat)
  return (target, ⟨interceptor, codes⟩)

variable [DecidableEq Binder]

def handleRegisterInterceptor (data : ByteParcel) (registrations : Registrations Binder) :
    Status × Registrations Binder :=
  match readRegistration B isLocal data with
  | some ((target, registration), _) => (.OK, Function.update registrations target (some registration))
  | none => (.BAD_VALUE, registrations)

def onTransact (code : BitVec 32) (data : ByteParcel) (registrations : Registrations Binder) :
    Status × Registrations Binder :=
  if code = kRegisterInterceptor then handleRegisterInterceptor B isLocal data registrations
  else (.UNKNOWN_TRANSACTION, registrations)

/-- A transaction that somebody with the handle sends. -/
structure Message where
  code : BitVec 32
  data : Bytes
deriving DecidableEq, Repr

def serve (registrations : Registrations Binder) (messages : List Message) : Registrations Binder :=
  messages.foldl (fun registrations m => (onTransact B isLocal m.code ⟨m.data, 0⟩ registrations).2) registrations

end BinderInterceptor

end Native

end TrickyStore
