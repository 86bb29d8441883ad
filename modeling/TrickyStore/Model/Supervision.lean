import TrickyStore.Lib.Machine

/-!
# The keystore process, the daemon and the script that starts it

The main thread of the daemon asks for the service of the keystore until its binder answers the backdoor
transaction, and has the library injected once when it does not.  Then it registers its interceptors and ends
with the process that it has linked to.  The script starts another daemon after one that has ended with status
zero, and no other.
-/

open Lib

namespace TrickyStore

/-- A process of the keystore: whether the service manager knows its service, and whether its binder answers
the backdoor transaction.  `pid` is never used again. -/
structure KeystoreProcess where
  pid : ℕ
  published : Bool := false
  hooked : Bool := false
deriving DecidableEq, Repr

namespace BaseKeystoreInterceptor

def maxRetries : ℕ := 3

/-- What the main thread does next. -/
inductive Stage where
  | getService
  | getBinderBackdoor (service : ℕ)
  /-- The command of the injection runs. -/
  | performInjection
  | linkToDeath (service : ℕ)
  | maintainService (service : ℕ)
deriving DecidableEq, Repr

end BaseKeystoreInterceptor

/-- `BaseKeystoreInterceptor` in one process of the daemon.  `target` is the process that the injector has
attached to, which the code does not read. -/
structure BaseKeystoreInterceptor where
  stage : BaseKeystoreInterceptor.Stage := .getService
  triedCount : ℕ := 0
  injected : Bool := false
  target : Option ℕ := none
deriving DecidableEq, Repr

/-- The loop of `service.sh`. -/
inductive ServiceScript where
  | running (daemon : BaseKeystoreInterceptor)
  | sleep
  | ended
deriving DecidableEq, Repr

namespace ServiceScript

/-- The daemon ends with the status. -/
def exitProcess (status : Int) : ServiceScript := if status = 0 then .sleep else .ended

end ServiceScript

namespace BaseKeystoreInterceptor

variable (d : BaseKeystoreInterceptor)

def handleMissingBackdoor : ServiceScript :=
  if d.triedCount ≥ maxRetries then .exitProcess 1
  else if d.injected then .running { d with triedCount := d.triedCount + 1, stage := .getService }
  else .running { d with stage := .performInjection }

/-- `handleMissingBackdoor` once the command has ended with the status. -/
def injectionEnds (status : Int) : ServiceScript :=
  if status = 0 then
    .running { d with injected := true, triedCount := d.triedCount + 1, stage := .getService }
  else .exitProcess 1

end BaseKeystoreInterceptor

/-- A step of the device.  Steps that are not possible in a state leave it as it is. -/
inductive DeviceEvent where
  | keystoreStarts
  | keystorePublishes
  | keystoreDies
  /-- The answer of the service manager: the service of a process, which may have died. -/
  | getService (service : Option ℕ)
  /-- The backdoor transaction reaches the binder or fails. -/
  | getBinderBackdoor (transacts : Bool)
  /-- The injector attaches to the process that it finds. -/
  | attach
  /-- The injected library hooks its process. -/
  | hook
  | injectionEnds (status : Int)
  | linkToDeath
  | binderDied
  /-- The daemon is killed, or throws. -/
  | crash
  | restartDaemon
deriving DecidableEq, Repr

/-- The device.  `injections` and `links` hold the processes that were attached to and linked to. -/
structure Device where
  keystore : Option KeystoreProcess := none
  nextPid : ℕ := 0
  service : ServiceScript := .running {}
  injections : List ℕ := []
  links : List ℕ := []
deriving DecidableEq, Repr

namespace Device

variable (w : Device)

/-- The process is there. -/
def Alive (pid : ℕ) : Prop := ∃ k, w.keystore = some k ∧ k.pid = pid

instance (pid : ℕ) : Decidable (w.Alive pid) :=
  decidable_of_iff (∃ k ∈ w.keystore, k.pid = pid) Iff.rfl

/-- The process is there, and its binder answers the backdoor transaction. -/
def Hooked (pid : ℕ) : Prop := ∃ k, w.keystore = some k ∧ k.pid = pid ∧ k.hooked = true

instance (pid : ℕ) : Decidable (w.Hooked pid) :=
  decidable_of_iff (∃ k ∈ w.keystore, k.pid = pid ∧ k.hooked = true) Iff.rfl

/-- The service manager may answer with the service of the process, also when that has died. -/
def Known (pid : ℕ) : Prop := pid < w.nextPid ∧ ∀ k, w.keystore = some k → k.pid = pid → k.published = true

instance (pid : ℕ) : Decidable (w.Known pid) :=
  decidable_of_iff (pid < w.nextPid ∧ ∀ k ∈ w.keystore, k.pid = pid → k.published = true) Iff.rfl

/-- The steps of the keystore. -/
def keystoreStep : DeviceEvent → Device
  | .keystoreStarts =>
    match w.keystore with
    | none => { w with keystore := some { pid := w.nextPid }, nextPid := w.nextPid + 1 }
    | some _ => w
  | .keystorePublishes => { w with keystore := w.keystore.map fun k => { k with published := true } }
  | .keystoreDies => { w with keystore := none }
  | _ => w

/-- The steps of a daemon. -/
def daemonStep (d : BaseKeystoreInterceptor) : DeviceEvent → Device
  | .getService service =>
    match d.stage, service with
    | .getService, some pid =>
      if w.Known pid then { w with service := .running { d with stage := .getBinderBackdoor pid } } else w
    | _, _ => w
  | .getBinderBackdoor transacts =>
    match d.stage with
    | .getBinderBackdoor pid =>
      if transacts ∧ w.Hooked pid then { w with service := .running { d with stage := .linkToDeath pid } }
      else { w with service := d.handleMissingBackdoor }
    | _ => w
  | .attach =>
    match d.stage, d.target, w.keystore with
    | .performInjection, none, some k =>
      { w with service := .running { d with target := some k.pid }, injections := w.injections ++ [k.pid] }
    | _, _, _ => w
  | .hook =>
    match d.stage, w.keystore with
    | .performInjection, some k =>
      if d.target = some k.pid then { w with keystore := some { k with hooked := true } } else w
    | _, _ => w
  | .injectionEnds status =>
    match d.stage with
    -- the command needs the process, and fails without one
    | .performInjection => if status = 0 ∧ d.target = none then w else { w with service := d.injectionEnds status }
    | _ => w
  | .linkToDeath =>
    match d.stage with
    | .linkToDeath pid =>
      if w.Alive pid then
        { w with service := .running { d with stage := .maintainService pid }, links := w.links ++ [pid] }
      else { w with service := .exitProcess 1 }
    | _ => w
  | .binderDied =>
    match d.stage with
    | .maintainService pid => if w.Alive pid then w else { w with service := .exitProcess 0 }
    | _ => w
  | .crash => { w with service := .exitProcess 1 }
  | _ => w

def next (e : DeviceEvent) : Device :=
  match e with
  | .keystoreStarts | .keystorePublishes | .keystoreDies => w.keystoreStep e
  | .restartDaemon =>
    match w.service with
    | .sleep => { w with service := .running {} }
    | _ => w
  | _ =>
    match w.service with
    | .running d => w.daemonStep d e
    | _ => w

/-- The device after the steps of the list. -/
def run (es : List DeviceEvent) : Device := Machine.run next w es

end Device

end TrickyStore
