import Mathlib.Logic.Function.Basic
import TrickyStore.Lib.Machine
import TrickyStore.Model.Config

/-!
# The probe of the TEE

One thread of `AttestUtils` probes the hardware until it knows whether attestation works.  A change of
`state` goes to the listener of `PkgConfig`, which sets `teeBroken` and writes the status file; a binder
thread in `checkNeed` that finds `teeBroken` unset does the same from the state it reads.  A step is one
access to what the threads share.
-/

open Lib

namespace TrickyStore

inductive TeeProbeResult where
  | WORKING
  | TRANSIENT
  | BROKEN
deriving DecidableEq, Repr

namespace TeeProbeClassifier

def resolveState (_current : TeeState) (probeResult : TeeProbeResult) : TeeState :=
  match probeResult with
  | .WORKING => .WORKING
  | .TRANSIENT => .UNKNOWN
  | .BROKEN => .BROKEN

end TeeProbeClassifier

namespace TeeRetryPolicy

def MAX_ATTEMPTS : ℕ := 9

def shouldContinueRetrying (state : TeeState) (attempt : ℕ) : Bool :=
  state = .UNKNOWN && attempt ≤ MAX_ATTEMPTS

end TeeRetryPolicy

/-- `TeeProbeBootstrap.Result`. -/
inductive TeeProbeBootstrap where
  | Ready
  | Failed
deriving DecidableEq, Repr

/-- Where the probe thread stands.  `attempt` counts the attempts before this one: none before that of
`runInitialProbe`. -/
inductive ProbeThread where
  | runProbeAttempt (attempt : ℕ)
  | transitionTo (attempt : ℕ) (newState : TeeState)
  | stateListener (attempt : ℕ) (newState : TeeState)
  | persistTeeBroken (attempt : ℕ) (broken : Bool)
  | writeText (attempt : ℕ) (broken : Bool)
  /-- At the condition of the retry loop. -/
  | runRetryLoop (attempt : ℕ)
  /-- Before the check that follows the delay. -/
  | sleep (attempt : ℕ)
  | finished
deriving DecidableEq, Repr

/-- Where a binder thread stands in `checkNeed`. -/
inductive BinderThread where
  /-- Before it reads `teeBroken`. -/
  | checkNeed
  | storeTEEStatus
  | persistTeeBroken (broken : Bool)
  | writeText (broken : Bool)
deriving DecidableEq, Repr

/-- What the probe thread meets in one step; the file is written unless `writeText` throws. -/
structure ProbeInput where
  bootstrap : TeeProbeBootstrap := .Ready
  result : TeeProbeResult := .TRANSIENT
  written : Bool := true
deriving DecidableEq, Repr

/-- A step of one thread.  What throws elsewhere ends the probe thread, or the check of a binder thread. -/
inductive TeeEvent (Thread : Type*) where
  | probe (input : ProbeInput)
  | probeThrows
  | binder (thread : Thread) (written : Bool)
  | binderThrows (thread : Thread)

/-- The text of the status file. -/
def statusText (broken : Bool) : String := "teeBroken=" ++ if broken then "true" else "false"

/-- `AttestUtils` and `PkgConfig` once `main` has installed the listener and started the probe thread.
`statusFile` holds the texts written to the file, the last one first, and `probes` counts the attempts. -/
structure TeeDaemon (Thread : Type*) where
  state : TeeState := .UNKNOWN
  teeBroken : Option Bool := none
  statusFile : List String := []
  probes : ℕ := 0
  probeThread : ProbeThread := .runProbeAttempt 0
  binders : Thread → BinderThread := fun _ => .checkNeed

namespace TeeDaemon

variable {Thread : Type*} (s : TeeDaemon Thread)

def writeText (broken written : Bool) : TeeDaemon Thread :=
  if written then { s with statusFile := statusText broken :: s.statusFile } else s

def runProbeAttempt (attempt : ℕ) (input : ProbeInput) : TeeDaemon Thread :=
  { s with
    probes := s.probes + 1
    probeThread :=
      match input.bootstrap with
      | .Failed => .runRetryLoop (attempt + 1)
      | .Ready => .transitionTo attempt (TeeProbeClassifier.resolveState s.state input.result) }

/-- The part of `transitionTo` under the lock. -/
def transitionTo (attempt : ℕ) (newState : TeeState) : TeeDaemon Thread :=
  if s.state = newState then { s with probeThread := .runRetryLoop (attempt + 1) }
  else { s with state := newState, probeThread := .stateListener attempt newState }

def stateListener (attempt : ℕ) : TeeState → TeeDaemon Thread
  | .WORKING => { s with probeThread := .persistTeeBroken attempt false }
  | .BROKEN => { s with probeThread := .persistTeeBroken attempt true }
  | .UNKNOWN => { s with probeThread := .runRetryLoop (attempt + 1) }

/-- One step of the probe thread. -/
def probe (input : ProbeInput) : TeeDaemon Thread :=
  match s.probeThread with
  | .runProbeAttempt attempt => s.runProbeAttempt attempt input
  | .transitionTo attempt newState => s.transitionTo attempt newState
  | .stateListener attempt newState => s.stateListener attempt newState
  | .persistTeeBroken attempt broken =>
    { s with teeBroken := some broken, probeThread := .writeText attempt broken }
  | .writeText attempt broken =>
    { s.writeText broken input.written with probeThread := .runRetryLoop (attempt + 1) }
  | .runRetryLoop attempt =>
    if TeeRetryPolicy.shouldContinueRetrying s.state attempt then { s with probeThread := .sleep attempt }
    else { s with probeThread := .finished }
  | .sleep attempt =>
    if s.state ≠ .UNKNOWN then { s with probeThread := .finished }
    else { s with probeThread := .runProbeAttempt attempt }
  | .finished => s

variable [DecidableEq Thread]

def setBinder (thread : Thread) (at' : BinderThread) : TeeDaemon Thread :=
  { s with binders := Function.update s.binders thread at' }

/-- `storeTEEStatus` reads the state, and leaves what it has read to the next steps. -/
def storeTEEStatus (thread : Thread) : TeeDaemon Thread :=
  match s.state with
  | .UNKNOWN => s.setBinder thread .checkNeed
  | .WORKING => s.setBinder thread (.persistTeeBroken false)
  | .BROKEN => s.setBinder thread (.persistTeeBroken true)

/-- One step of a binder thread. -/
def binder (thread : Thread) (written : Bool) : TeeDaemon Thread :=
  match s.binders thread with
  | .checkNeed => if s.teeBroken = none then s.setBinder thread .storeTEEStatus else s
  | .storeTEEStatus => s.storeTEEStatus thread
  | .persistTeeBroken broken => { s with teeBroken := some broken }.setBinder thread (.writeText broken)
  | .writeText broken => (s.writeText broken written).setBinder thread .checkNeed

def next : TeeEvent Thread → TeeDaemon Thread
  | .probe input => s.probe input
  | .probeThrows => { s with probeThread := .finished }
  | .binder thread written => s.binder thread written
  | .binderThrows thread => s.setBinder thread .checkNeed

/-- The threads take their steps in the order of the list. -/
def run (es : List (TeeEvent Thread)) : TeeDaemon Thread := Machine.run (fun s e => s.next e) s es

end TeeDaemon

end TrickyStore
