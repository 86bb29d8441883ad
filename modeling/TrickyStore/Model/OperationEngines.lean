import TrickyStore.Model.Operation

/-!
# The engines of software operations

What the engines do with the data of a call, over the objects of the crypto providers that they hold: a
`Signature` and a `Mac` take data until they are asked for a result, a `Cipher` gives output as it goes, and
a `KeyAgreement` takes the other key with the last call.  An operation here is the binder of
`Model.Operation` together with its engine.
-/

open Lib

namespace TrickyStore

/-- The results of the crypto providers.  A `Signature` and a `Mac` that are set up take any data; a `Cipher`
that is set up and not finished takes any data too, and `updateAAD` throws once data was processed, or where
the mode has no associated data.  `none` as an output is `null`. -/
structure Providers where
  sign : (algorithm : String) → (privateKey data : Bytes) → Except Throwable Bytes
  verify : (algorithm : String) → (publicKey data signature : Bytes) → Except Throwable Bool
  mac : (algorithm : String) → SecretKey → (data : Bytes) → Except Throwable Bytes
  agree : (algorithm : String) → (privateKey : Bytes) → (peerKey : Option Bytes) → Except Throwable Bytes
  Cipher : Type
  cipher : OpEngine → Cipher
  update : Cipher → Bytes → Cipher × Option Bytes
  updateAAD : Cipher → Bytes → Except Throwable Cipher
  doFinal : Cipher → Bytes → Except Throwable Bytes

variable {J : Providers}

/-- An engine with the data that its `Signature` or `Mac` has taken, or with its `Cipher`. -/
structure Engine (J : Providers) where
  setup : OpEngine
  taken : Bytes := []
  cipher : J.Cipher

namespace Engine

def start (J : Providers) (setup : OpEngine) : Engine J := { setup, cipher := J.cipher setup }

def verificationFailed (message : String) : Throwable :=
  .serviceSpecific KeymasterDefs.KM_ERROR_VERIFICATION_FAILED message

def update (e : Engine J) (data : Option Bytes) : Engine J × Option Bytes :=
  match data, e.setup with
  | none, _ => (e, none)
  | some data, .signature .. | some data, .mac .. => ({ e with taken := e.taken ++ data }, none)
  | some _, .keyAgreement .. => (e, none)
  | some data, .cipher .. => ({ e with cipher := (J.update e.cipher data).1 }, (J.update e.cipher data).2)

def updateAad (e : Engine J) (data : Option Bytes) : Except Throwable (Engine J) :=
  match e.setup, data with
  | .cipher .., none => .ok e
  | .cipher .., some data => (J.updateAAD e.cipher data).map fun c => { e with cipher := c }
  | _, _ => .error (.serviceSpecific KeymasterDefs.KM_ERROR_INVALID_TAG "updateAad not supported")

def finish (e : Engine J) (data signature : Option Bytes) : Except Throwable (Option Bytes) :=
  match e.setup with
  | .signature algorithm key false => (J.sign algorithm key (e.taken ++ data.getD [])).map some
  | .signature algorithm key true =>
    match signature with
    | none => .error (verificationFailed "Signature verification failed")
    | some signature => do
      if ← J.verify algorithm key (e.taken ++ data.getD []) signature then .ok none
      else .error (verificationFailed "Signature verification failed")
  | .mac algorithm key verify => do
    let tag ← J.mac algorithm key (e.taken ++ data.getD [])
    if verify then
      if signature = some tag then .ok none else .error (verificationFailed "HMAC verification failed")
    else .ok (some tag)
  | .keyAgreement algorithm key => (J.agree algorithm key data).map some
  | .cipher .. => (J.doFinal e.cipher (data.getD [])).map some

end Engine

/-! ## Operations -/

structure SoftwareOperation (J : Providers) where
  binder : SoftwareOperationBinder
  engine : Engine J

inductive OperationRequest where
  | update (input : Option Bytes)
  | updateAad (aadInput : Option Bytes)
  | finish (input signature : Option Bytes)
  | abort
deriving DecidableEq, Repr

namespace SoftwareOperation

variable (o : SoftwareOperation J)

/-- The operation that `create` returns. -/
def ofBinder (J : Providers) (binder : SoftwareOperationBinder) : SoftwareOperation J :=
  ⟨binder, .start J binder.engine⟩

/-- Whether a call with this input gets as far as the engine, or as `consumeUsage`. -/
def admits (input : Option Bytes) : Bool :=
  o.binder.active && input.all fun data => data.length ≤ MAX_RECEIVE_DATA

/-- The call as the binder sees it, with what the engine does. -/
def engineCall : OperationRequest → SoftwareOperationBinder.Call
  | .update input => .update input (.ok (o.engine.update input).2)
  | .updateAad aadInput => .updateAad aadInput ((o.engine.updateAad aadInput).map fun _ => ())
  | .finish input signature => .finish input (o.engine.finish input signature)
  | .abort => .abort

/-- A call that is refused does not reach the engine, and no call reaches it behind `finish`. -/
def engineAfter : OperationRequest → Engine J
  | .update input => if o.admits input then (o.engine.update input).1 else o.engine
  | .updateAad aadInput =>
    if o.admits aadInput then
      match o.engine.updateAad aadInput with
      | .ok e => e
      | .error _ => o.engine
    else o.engine
  | .finish .. | .abort => o.engine

/-- A call with the usage counters as they are at that time. -/
def call (usageRemaining : HashMap Key Int) (c : OperationRequest) :
    SoftwareOperation J × HashMap Key Int × SoftwareOperationBinder.Outcome :=
  let done := o.binder.call usageRemaining (o.engineCall c)
  (⟨done.1, o.engineAfter c⟩, done.2)

end SoftwareOperation

end TrickyStore
