import TrickyStore.Model.TeeProbe

/-!
# The attestation data of the hardware

`CachedAttestData` loads the data under the lock that `transitionTo` changes the state under, once the state is
WORKING.  A step is one access of a thread to what the threads share.
-/

open Lib

namespace TrickyStore

/-- Where a thread stands in `CachedAttestData`. -/
inductive CachedAttestData (Data : Type*) where
  | outside
  /-- It has read the state as WORKING. -/
  | enterLock
  | readCache
  | loadAttestData
  | writeCache (loaded : Option Data)
  | exitLock (result : Option Data)
deriving DecidableEq, Repr

/-- `AttestUtils` with its cache.  `loads` counts the calls of `loadAttestData`, `failures` those that found no
data, and `results` holds what the calls have returned but null. -/
structure AttestDataCache (Thread Data : Type*) where
  tee : TeeDaemon Thread := {}
  cached : Option Data := none
  stateLock : Option Thread := none
  getter : Thread → CachedAttestData Data := fun _ => .outside
  loads : ℕ := 0
  failures : ℕ := 0
  results : List Data := []

/-- A step of the probe and the binder threads as they set the verdict, or of a thread that asks for the data;
`loaded` is what `loadAttestData` finds. -/
inductive AttestDataEvent (Thread Data : Type*) where
  | tee (e : TeeEvent Thread)
  | get (thread : Thread) (loaded : Option Data)

namespace AttestDataCache

variable {Thread Data : Type*} [DecidableEq Thread] (s : AttestDataCache Thread Data) (t : Thread)

/-- The state that the step of the probe thread takes the lock to set. -/
def transitionOf : TeeEvent Thread → Option TeeState
  | .probe _ =>
    match s.tee.probeThread with
    | .transitionTo _ newState => some newState
    | _ => none
  | _ => none

def teeStep (e : TeeEvent Thread) : AttestDataCache Thread Data :=
  match s.transitionOf e with
  | none => { s with tee := s.tee.next e }
  | some newState =>
    if s.stateLock = none then
      { s with
        tee := s.tee.next e
        cached := if s.tee.state ≠ newState ∧ newState ≠ .WORKING then none else s.cached }
    else s

def goTo (position : CachedAttestData Data) : AttestDataCache Thread Data :=
  { s with getter := Function.update s.getter t position }

/-- The next step of the thread in `CachedAttestData`. -/
def get (loaded : Option Data) : AttestDataCache Thread Data :=
  match s.getter t with
  | .outside => if s.tee.state ≠ .WORKING then s else s.goTo t .enterLock
  | .enterLock =>
    match s.stateLock with
    | some _ => s
    | none => { s with stateLock := some t }.goTo t .readCache
  | .readCache =>
    match s.cached with
    | some data => s.goTo t (.exitLock (some data))
    | none => { s with loads := s.loads + 1 }.goTo t .loadAttestData
  -- `getAttestCert` reads the state again
  | .loadAttestData => s.goTo t (.writeCache (if s.tee.state ≠ .WORKING then none else loaded))
  | .writeCache none => { s with cached := none, failures := s.failures + 1 }.goTo t (.exitLock none)
  | .writeCache (some data) => { s with cached := some data }.goTo t (.exitLock (some data))
  | .exitLock result =>
    { s with stateLock := none, results := result.toList ++ s.results }.goTo t .outside

def next : AttestDataEvent Thread Data → AttestDataCache Thread Data
  | .tee e => s.teeStep e
  | .get thread loaded => s.get thread loaded

/-- The threads take their steps in the order of the list. -/
def run (es : List (AttestDataEvent Thread Data)) : AttestDataCache Thread Data :=
  Machine.run next s es

end AttestDataCache

end TrickyStore
