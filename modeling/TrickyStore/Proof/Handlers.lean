import TrickyStore.Lib.Unwinding
import TrickyStore.Proof.HookFrame

/-!
# Runs of handlers

The daemon as a machine whose events are handlers, each labelled with the uid that it runs for.  Calls
on operations name an operation by its number among those of the uid, so that the label of an event
does not depend on what others do.  A run of the world between two restarts is a run of handlers.
-/

open Lib

namespace TrickyStore

/-- The operation is on a key of the uid. -/
def SoftwareOperationBinder.isOf (uid : Int) (op : SoftwareOperationBinder) : Bool :=
  op.origin.key.uid = uid

inductive Handler where
  | pre (uid : Int) (request : Request) (env : Env)
  | post (uid : Int) (request : Request) (resultCode : Int) (reply : Option Parcel) (env : Env)
  /-- A call on the operation `n` of the uid. -/
  | operate (uid : Int) (n : ℕ) (call : SoftwareOperationBinder.Call)
  | targetChanged (modes : HashMap String Mode)
  | keyboxChanged (keyboxes : HashMap String KeyBox)
  | packageManagerDied
  | persist

namespace Daemon

variable (P : Platform) (d : Daemon)

/-- A call on the operation `n` of the uid; without such an operation nothing happens. -/
def operateOwn (uid : Int) (n : ℕ) (call : SoftwareOperationBinder.Call) : Daemon :=
  d.operate (d.operations.findIdxNth (SoftwareOperationBinder.isOf uid) n) call

/-- The state after a handler. -/
def handle (d : Daemon) : Handler → Daemon
  | .pre uid request env => (d.pre P env uid request).1
  | .post uid request resultCode reply env => (d.post P env uid request resultCode reply).1
  | .operate uid n call => d.operateOwn uid n call
  | .targetChanged modes => d.updateTargetPackages modes
  | .keyboxChanged keyboxes => d.updateKeyBox keyboxes
  | .packageManagerDied => { d with config := { d.config with uidPackages := ∅ } }
  | .persist => { d with persistence := d.persistence.step }

theorem operateOwn_countPBefore {i : ℕ} {op : SoftwareOperationBinder}
    {call : SoftwareOperationBinder.Call} (hop : d.operations[i]? = some op) :
    d.operateOwn op.origin.key.uid
      (d.operations.countPBefore (SoftwareOperationBinder.isOf op.origin.key.uid) i) call =
        d.operate i call := by
  obtain ⟨hi, rfl⟩ := List.getElem?_eq_some_iff.1 hop
  unfold operateOwn
  rw [List.findIdxNth_countPBefore_of_lt_length_of_pos]
  · exact decide_eq_true rfl
  · exact hi

end Daemon

/-! ## The runs of the world -/

/-- The events between two restarts. -/
def Event.isServed : Event → Bool
  | .restart | .loadPersistedKeys .. => false
  | _ => true

namespace World

variable (P : Platform) (w : World)

/-- The handlers that an event runs. -/
def handlers (w : World) : Event → List Handler
  | .arrive id uid request env =>
    if w.inFlight.containsKey id then [] else [.pre uid request env]
  | .complete id resultCode reply env =>
    match w.inFlight.lookup id with
    | none => []
    | some t => [.post t.uid t.request resultCode reply env]
  | .operate i call =>
    match w.daemon.operations[i]? with
    | none => []
    | some op => [.operate op.origin.key.uid
        (w.daemon.operations.countPBefore (SoftwareOperationBinder.isOf op.origin.key.uid) i) call]
  | .targetChanged modes => [.targetChanged modes]
  | .keyboxChanged keyboxes => [.keyboxChanged keyboxes]
  | .packageManagerDied => [.packageManagerDied]
  | .persist => [.persist]
  | .initializeConfig modes keyboxes =>
    if w.starting then
      (modes.map Handler.targetChanged).toList ++ (keyboxes.map Handler.keyboxChanged).toList
    else []
  | .abandon _ | .restart | .loadPersistedKeys .. => []

theorem next_handlers {e : Event} (h : e.isServed = true) :
    (w.next P e).daemon = Machine.run (Daemon.handle P) w.daemon (w.handlers e) := by
  cases e with
  | arrive id uid request env =>
    unfold next arrive handlers
    dsimp only
    split
    · rfl
    · split <;> rfl
  | complete id resultCode reply env =>
    simp only [next, complete, handlers]
    cases w.inFlight.lookup id <;> rfl
  | operate i call =>
    unfold next withDaemon handlers
    dsimp only
    cases hop : w.daemon.operations[i]? with
    | none => simp [Daemon.operate, hop]
    | some op => exact (w.daemon.operateOwn_countPBefore hop).symm
  | initializeConfig modes keyboxes =>
    unfold next handlers
    dsimp only
    split
    · cases modes <;> cases keyboxes <;> rfl
    · rfl
  | abandon => rfl
  | targetChanged => rfl
  | keyboxChanged => rfl
  | packageManagerDied => rfl
  | persist => rfl
  | restart => cases h
  | loadPersistedKeys => cases h

/-- The daemon after a run of the world without a restart is the daemon after a run of handlers. -/
theorem exists_run_handlers (es : List Event) (h : ∀ e ∈ es, e.isServed = true) :
    ∃ hs, (World.run P w es).daemon = Machine.run (Daemon.handle P) w.daemon hs := by
  induction es generalizing w with
  | nil => exact ⟨[], rfl⟩
  | cons e es ih =>
    obtain ⟨hs, hrun⟩ := ih (w.next P e) fun e' he' => h e' (List.mem_cons_of_mem _ he')
    refine ⟨w.handlers e ++ hs, ?_⟩
    rw [Machine.run_append, ← next_handlers P w (h e (List.mem_cons_self ..)), ← hrun]
    rfl

end World

end TrickyStore
