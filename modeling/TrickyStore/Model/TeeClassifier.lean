import TrickyStore.Model.TeeProbe

/-!
# What an attempt to attest tells of the TEE

`probeHardwareAttestationOnce` with `TeeProbeClassifier`: an attempt that throws is classified by the error codes
and the texts of the exception and its causes.  What the classifier sees of the exceptions of a run is given, the
public `int` fields that it finds by reflection among it, and so is `lowercase`.
-/

open Lib

namespace TrickyStore

namespace ResponseCode
def BACKEND_BUSY : Int := 18
def OUT_OF_KEYS_REQUIRES_SYSTEM_UPGRADE : Int := 23
def OUT_OF_KEYS_PENDING_INTERNET_CONNECTIVITY : Int := 24
def OUT_OF_KEYS_TRANSIENT_ERROR : Int := 25
def OUT_OF_KEYS_PERMANENT_ERROR : Int := 26
end ResponseCode

namespace KeymasterDefs
def KM_ERROR_KEYMINT_NOT_CONFIGURED : Int := -64
def KM_ERROR_ATTESTATION_KEYS_NOT_PROVISIONED : Int := -74
def KM_ERROR_ATTESTATION_IDS_NOT_PROVISIONED : Int := -75
end KeymasterDefs

/-- The exceptions, by their references: a chain of causes may come back to itself.  `serviceSpecific` is the code
of a `ServiceSpecificException`. -/
structure Throwables (Ref : Type*) where
  message : Ref → Option (List Char)
  serviceSpecific : Ref → Option Int
  getField : Ref → String → Option Int
  cause : Ref → Option Ref
  lowercase : List Char → List Char

namespace TeeProbeClassifier

variable {Ref : Type*} (T : Throwables Ref)

structure ProbeSignals where
  messages : List (List Char)
  errorCodes : List Int
deriving DecidableEq, Repr

def extractErrorCode (current : Ref) : Option Int :=
  match T.serviceSpecific current with
  | some code => some code
  | none =>
    ["errorCode", "error", "status", "code", "kmError", "keymasterError", "responseCode"].findSome?
      (T.getField current)

/-- The loop of `extractSignals`, with as many exceptions as are still looked at. -/
def signalsFrom : ℕ → Option Ref → ProbeSignals
  | 0, _ => ⟨[], []⟩
  | _ + 1, none => ⟨[], []⟩
  | depth + 1, some current =>
    let rest := signalsFrom depth (T.cause current)
    ⟨(T.message current).toList ++ rest.messages, (extractErrorCode T current).toList ++ rest.errorCodes⟩

def extractSignals (exception : Ref) : ProbeSignals := signalsFrom T 12 (some exception)

/-- What a code decides. -/
def codeResult (bootCompleted : Bool) (code : Int) : Option TeeProbeResult :=
  if code = ResponseCode.OUT_OF_KEYS_TRANSIENT_ERROR ∨
      code = ResponseCode.OUT_OF_KEYS_PENDING_INTERNET_CONNECTIVITY ∨ code = ResponseCode.BACKEND_BUSY then
    some .TRANSIENT
  else if code = ResponseCode.OUT_OF_KEYS_PERMANENT_ERROR ∨
      code = ResponseCode.OUT_OF_KEYS_REQUIRES_SYSTEM_UPGRADE then
    some .BROKEN
  else if code = KeymasterDefs.KM_ERROR_ATTESTATION_KEYS_NOT_PROVISIONED ∨
      code = KeymasterDefs.KM_ERROR_ATTESTATION_IDS_NOT_PROVISIONED ∨
      code = KeymasterDefs.KM_ERROR_KEYMINT_NOT_CONFIGURED then
    some (if bootCompleted then .BROKEN else .TRANSIENT)
  else none

def contains (text : List Char) (part : String) : Bool := text.tails.any fun rest => part.toList.isPrefixOf rest

/-- What a text decides. -/
def messageResult (bootCompleted : Bool) (message : List Char) : Option TeeProbeResult :=
  let lower := T.lowercase message
  if contains lower "out_of_keys" && contains lower "transient" then some .TRANSIENT
  else if contains lower "remoteprovisioning" || contains lower "rkpd" ||
      contains lower "no system services were found hosting" || contains lower "failed to get registration" ||
      contains lower "failed to get rkpd" || contains lower "trying to get attestation key from rkpd" then
    some .TRANSIENT
  else if contains lower "attestation keys not provisioned" || contains lower "attestation ids not provisioned" ||
      contains lower "keymint not configured" then
    some (if bootCompleted then .BROKEN else .TRANSIENT)
  else none

/-- The first code that decides, and if there is none the first text. -/
def classifySignals (signals : ProbeSignals) (bootCompleted : Bool) : TeeProbeResult :=
  match signals.errorCodes.findSome? (codeResult bootCompleted) with
  | some result => result
  | none => (signals.messages.findSome? (messageResult T bootCompleted)).getD .TRANSIENT

def classifyException (exception : Ref) (bootCompleted : Bool) : TeeProbeResult :=
  classifySignals T (extractSignals T exception) bootCompleted

end TeeProbeClassifier

/-- What the probe thread meets in one step: what the attempt throws, if anything, and whether the boot is
completed then. -/
structure HardwareInput (Ref : Type*) where
  bootstrap : TeeProbeBootstrap := .Ready
  thrown : Option Ref := none
  bootCompleted : Bool := false
  written : Bool := true
deriving DecidableEq

inductive HardwareEvent (Thread Ref : Type*) where
  | probe (input : HardwareInput Ref)
  | probeThrows
  | binder (thread : Thread) (written : Bool)
  | binderThrows (thread : Thread)

namespace HardwareInput

variable {Ref : Type*} (T : Throwables Ref) (input : HardwareInput Ref)

def probeHardwareAttestationOnce : TeeProbeResult :=
  match input.thrown with
  | none => .WORKING
  | some exception => TeeProbeClassifier.classifyException T exception input.bootCompleted

def toProbeInput : ProbeInput where
  bootstrap := input.bootstrap
  result := input.probeHardwareAttestationOnce T
  written := input.written

end HardwareInput

/-- The threads of the daemon, and the attempts that have been made with the bootstrap ready, the last one first. -/
structure HardwareProbe (Thread Ref : Type*) where
  tee : TeeDaemon Thread := {}
  attempts : List (HardwareInput Ref) := []

namespace HardwareProbe

variable {Thread Ref : Type*} [DecidableEq Thread] (T : Throwables Ref) (s : HardwareProbe Thread Ref)

/-- The attempt that a step of the probe thread makes. -/
def attempt (input : HardwareInput Ref) : Option (HardwareInput Ref) :=
  match s.tee.probeThread with
  | .runProbeAttempt _ => if input.bootstrap = .Ready then some input else none
  | _ => none

def next : HardwareEvent Thread Ref → HardwareProbe Thread Ref
  | .probe input =>
    { tee := s.tee.next (.probe (input.toProbeInput T)), attempts := (s.attempt input).toList ++ s.attempts }
  | .probeThrows => { s with tee := s.tee.next .probeThrows }
  | .binder thread written => { s with tee := s.tee.next (.binder thread written) }
  | .binderThrows thread => { s with tee := s.tee.next (.binderThrows thread) }

def run (es : List (HardwareEvent Thread Ref)) : HardwareProbe Thread Ref :=
  Machine.run (fun s e => s.next T e) s es

end HardwareProbe

end TrickyStore
