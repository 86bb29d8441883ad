import Mathlib.Logic.Function.Basic
import TrickyStore.Lib.Machine

/-!
# The bootstrap of the probe

`ensureInitialized` reads two volatile variables without the lock and again with it, and runs the initialisers
of the platform if neither is set.  A step is one access of a thread to what the threads share.
-/

open Lib

namespace TrickyStore

/-- `TeeProbeBootstrap.Result`, with the cause of the failure. -/
inductive BootstrapResult (E : Type*) where
  | Ready
  | Failed (cause : E)
deriving DecidableEq, Repr

/-- What the initialisers come to.  An `Error` is not caught. -/
inductive BootstrapOutcome (E : Type*) where
  | completes
  | exception (e : E)
  | error
deriving DecidableEq, Repr

/-- Where a thread stands in `ensureInitialized`. -/
inductive EnsureInitialized (E : Type*) where
  | outside
  /-- It has read `ready`. -/
  | readFailure
  | enterLock
  | rereadReady
  | rereadFailure
  | initialise
  | setReady
  | setFailure (e : E)
  /-- It leaves the lock with the result, or throws. -/
  | exitLock (result : Option (BootstrapResult E))
deriving DecidableEq, Repr

/-- `TeeProbeBootstrap` and its threads.  `starts` counts the runs of the initialisers, `errors` those that ended
with an `Error`, and `results` holds what the calls have returned. -/
structure ProbeBootstrap (Thread E : Type*) where
  ready : Bool := false
  failure : Option E := none
  lock : Option Thread := none
  thread : Thread → EnsureInitialized E := fun _ => .outside
  starts : ℕ := 0
  errors : ℕ := 0
  results : List (BootstrapResult E) := []

namespace ProbeBootstrap

variable {Thread E : Type*} [DecidableEq Thread] (s : ProbeBootstrap Thread E) (t : Thread)

/-- The thread goes on there. -/
def goTo (position : EnsureInitialized E) : ProbeBootstrap Thread E :=
  { s with thread := Function.update s.thread t position }

/-- The call returns. -/
def returns (result : BootstrapResult E) : ProbeBootstrap Thread E :=
  { s with results := result :: s.results }.goTo t .outside

/-- The next step of the thread; the outcome is that of the initialisers, where it runs them. -/
def step (outcome : BootstrapOutcome E) : ProbeBootstrap Thread E :=
  match s.thread t with
  | .outside => if s.ready then s.returns t .Ready else s.goTo t .readFailure
  | .readFailure =>
    match s.failure with
    | some e => s.returns t (.Failed e)
    | none => s.goTo t .enterLock
  | .enterLock =>
    match s.lock with
    | some _ => s
    | none => { s with lock := some t }.goTo t .rereadReady
  | .rereadReady => if s.ready then s.goTo t (.exitLock (some .Ready)) else s.goTo t .rereadFailure
  | .rereadFailure =>
    match s.failure with
    | some e => s.goTo t (.exitLock (some (.Failed e)))
    | none => { s with starts := s.starts + 1 }.goTo t .initialise
  | .initialise =>
    match outcome with
    | .completes => s.goTo t .setReady
    | .exception e => s.goTo t (.setFailure e)
    | .error => { s with errors := s.errors + 1 }.goTo t (.exitLock none)
  | .setReady => { s with ready := true }.goTo t (.exitLock (some .Ready))
  | .setFailure e => { s with failure := some e }.goTo t (.exitLock (some (.Failed e)))
  | .exitLock result =>
    { s with lock := none, results := result.toList ++ s.results }.goTo t .outside

/-- The threads take their steps in the order of the list. -/
def run (steps : List (Thread × BootstrapOutcome E)) : ProbeBootstrap Thread E :=
  Machine.run (fun s e => s.step e.1 e.2) s steps

end ProbeBootstrap

end TrickyStore
