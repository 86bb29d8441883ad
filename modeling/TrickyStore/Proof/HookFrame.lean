import TrickyStore.Proof.HookStep

/-!
# What hooks leave alone, and the steps of a run

No hook changes the clock, the keyboxes or the modes; of the package cache it changes only what the
package manager tells it.  `DaemonStep` collects what an event of a run does to the daemon.
-/

open Lib

namespace TrickyStore

/-- The modes are kept, and an entry of the package cache was there or is the package manager's
answer. -/
structure ConfigStep (pm : PackageManager) (c c' : PkgConfig) : Prop where
  packageModes : c'.packageModes = c.packageModes
  lookup : ∀ u ps, c'.uidPackages.lookup u = some ps →
    c.uidPackages.lookup u = some ps ∨ pm.getPackagesForUid u = some ps

namespace ConfigStep

variable {pm : PackageManager} {c c' c'' : PkgConfig} {uid : Int}

theorem refl : ConfigStep pm c c := ⟨rfl, fun _ _ h => .inl h⟩

theorem trans (h : ConfigStep pm c c') (h' : ConfigStep pm c' c'') : ConfigStep pm c c'' := by
  refine ⟨h'.packageModes.trans h.packageModes, fun u ps hu => ?_⟩
  rcases h'.lookup u ps hu with hu | hu
  · exact h.lookup u ps hu
  · exact .inr hu

theorem of_lookup (hm : c'.packageModes = c.packageModes)
    (h : ∀ u, c'.uidPackages.lookup u = if u = uid then c.packages pm uid
      else c.uidPackages.lookup u) : ConfigStep pm c c' := by
  refine ⟨hm, fun u ps hu => ?_⟩
  rw [h] at hu
  split_ifs at hu with huid
  · subst huid
    rcases Option.or_eq_some_iff.1 hu with hu | ⟨-, hu⟩
    · exact .inl hu
    · exact .inr hu
  · exact .inl hu

theorem getOrPut : ConfigStep pm c (c.getOrPut pm uid) :=
  .of_lookup PkgConfig.getOrPut_packageModes PkgConfig.getOrPut_lookup

theorem checked {tee : TeeState} : ConfigStep pm c (c.checked pm tee uid) :=
  .of_lookup PkgConfig.checked_packageModes PkgConfig.checked_lookup

end ConfigStep

/-- What every hook leaves alone. -/
structure HookFrame (env : Env) (d d' : Daemon) : Prop where
  clock : d'.clock = d.clock
  keyboxes : d'.keyboxes = d.keyboxes
  config : ConfigStep env.packageManager d.config d'.config

namespace HookFrame

variable {env : Env} {d d' d'' : Daemon} {uid : Int}

theorem refl : HookFrame env d d := ⟨rfl, rfl, .refl⟩

theorem trans (h : HookFrame env d d') (h' : HookFrame env d' d'') : HookFrame env d d'' :=
  ⟨h'.clock.trans h.clock, h'.keyboxes.trans h.keyboxes, h.config.trans h'.config⟩

theorem checked (uid : Int) : HookFrame env d (d.checked env uid) := ⟨rfl, rfl, .checked⟩

theorem resolved : HookFrame env d (d.resolved env uid) := ⟨rfl, rfl, .getOrPut⟩

end HookFrame

namespace Daemon

variable (P : Platform) (env : Env) (uid : Int) (d : Daemon)

theorem preGenerateKey_frame (level : SecurityLevel) (kd ak : Option KeyDescriptor)
    (params : Option (List KeyParameter)) :
    HookFrame env d (d.preGenerateKey P env level uid kd ak params).1 := by
  have hroute (d : Daemon) (r : KeygenRequest) :
      HookFrame env d (d.routeGenerateKey P env level uid r).1 := by
    refine .trans (.checked uid) ?_
    unfold routeGenerateKey
    dsimp only
    repeat' split
    all_goals exact ⟨rfl, rfl, .refl⟩
  have hd := checkGenerateKey_fst P env uid d kd ak params
  unfold preGenerateKey
  split
  · next d₁ _ h =>
    rw [h] at hd
    rcases hd with rfl | rfl
    · exact .refl
    · exact .resolved
  · next d₁ r h =>
    rw [h] at hd
    rcases hd with rfl | rfl
    · exact hroute _ r
    · exact .trans .resolved (hroute _ r)

theorem preGetKeyEntry_frame (kd : Option KeyDescriptor) :
    HookFrame env d (d.preGetKeyEntry env uid kd).1 := by
  have hmode (desc : KeyDescriptor) : HookFrame env d (d.preGetKeyEntryByMode env uid desc).1 := by
    refine .trans (.checked uid) ?_
    unfold preGetKeyEntryByMode rejectHistoricalOwners
    dsimp only
    repeat' split
    all_goals exact ⟨rfl, rfl, .refl⟩
  unfold preGetKeyEntry
  repeat' split
  all_goals first | exact .refl | exact hmode _

theorem onPreTransact_frame (request : Request) :
    HookFrame env d (d.onPreTransact P env uid request).1 := by
  cases request with
  | generateKey => exact preGenerateKey_frame ..
  | importKey => exact .checked uid
  | createOperation level kd opParams force =>
    rcases preCreateOperation_fst P env uid d kd opParams force with h | ⟨op, h⟩
    all_goals
      rw [onPreTransact, h]
      exact ⟨rfl, rfl, .refl⟩
  | deleteKey =>
    dsimp only [onPreTransact, preDeleteKey]
    split <;> exact ⟨rfl, rfl, .refl⟩
  | updateSubcomponent =>
    dsimp only [onPreTransact, preUpdateSubcomponent]
    repeat' split
    all_goals exact ⟨rfl, rfl, .refl⟩
  | grant =>
    dsimp only [onPreTransact, preGrant, forgeGrant]
    repeat' split
    all_goals exact ⟨rfl, rfl, .refl⟩
  | ungrant =>
    dsimp only [onPreTransact, preUngrant]
    split <;> exact ⟨rfl, rfl, .refl⟩
  | getKeyEntry => exact preGetKeyEntry_frame ..
  | listEntries =>
    dsimp only [onPreTransact, preListEntries]
    split
    · exact .checked uid
    · exact .refl

/-- Only `generateKey` makes a mark before the call, and only `createOperation` an operation. -/
theorem onPreTransact_kept {request : Request}
    (hgenerate : ∀ level kd ak params, request ≠ .generateKey level kd ak params)
    (hcreate : ∀ level kd opParams force, request ≠ .createOperation level kd opParams force) :
    (d.onPreTransact P env uid request).1.pendingPassthroughKeys = d.pendingPassthroughKeys ∧
      (d.onPreTransact P env uid request).1.operations = d.operations := by
  cases request with
  | generateKey level kd ak params => exact absurd rfl (hgenerate level kd ak params)
  | createOperation level kd opParams force => exact absurd rfl (hcreate level kd opParams force)
  | _ =>
    dsimp only [onPreTransact, preImportKey, preDeleteKey, preUpdateSubcomponent, preGrant,
      forgeGrant, preUngrant, preGetKeyEntry, preGetKeyEntryByMode, rejectHistoricalOwners,
      preListEntries]
    repeat' split
    all_goals exact ⟨rfl, rfl⟩

theorem onPostTransact_frame (request : Request) (resultCode : Int) (reply : Option Parcel) :
    HookFrame env d (d.onPostTransact P env uid request resultCode reply).1 := by
  unfold onPostTransact
  split
  · unfold postGenerateKey patchGenerateKeyReply
    dsimp only
    repeat' split
    all_goals first | exact ⟨rfl, rfl, .refl⟩ | exact ⟨rfl, rfl, .getOrPut⟩
  · unfold postImportKey
    split <;> exact ⟨rfl, rfl, .refl⟩
  · unfold postDeleteKey
    repeat' split
    all_goals exact ⟨rfl, rfl, .refl⟩
  · unfold postUpdateSubcomponent
    repeat' split
    all_goals exact ⟨rfl, rfl, .refl⟩
  · unfold postGrant
    repeat' split
    all_goals exact ⟨rfl, rfl, .refl⟩
  · unfold postGetKeyEntry patchLeaf
    dsimp only
    repeat' split
    all_goals first | exact .refl | exact .checked uid | exact ⟨rfl, rfl, .checked⟩
  · unfold postListEntries
    split
    · exact .checked uid
    · exact .refl
  · exact .refl

theorem pre_clock (request : Request) : (d.pre P env uid request).1.clock = d.clock + 1 :=
  congrArg (· + 1) (onPreTransact_frame P env uid d request).clock

theorem post_clock (request : Request) (resultCode : Int) (reply : Option Parcel) :
    (d.post P env uid request resultCode reply).1.clock = d.clock + 1 :=
  congrArg (· + 1) (onPostTransact_frame P env uid d request resultCode reply).clock

variable {env uid d} in
/-- A `grant` is forwarded for a key that is not forged. -/
theorem preGrant_continue {kd : Option KeyDescriptor} {granteeUid : Int} {accessVector : BitVec 32}
    (h : (d.preGrant env uid kd granteeUid accessVector).2 = .Continue) :
    (d.preGrant env uid kd granteeUid accessVector).1 = d ∧
      ∀ k, kd.bind (d.cache.resolveKey uid) = some k → d.cache.keys.containsKey k = false := by
  unfold preGrant at h ⊢
  split_ifs at h ⊢
  · split at h
    · cases h
    · next k hkey =>
      split_ifs at h with hk hpatched
      simp only [hkey, if_neg hk, if_pos hpatched, true_and]
      rintro k' hk'
      rw [← Option.some.inj hk']
      exact (Bool.not_eq_true _).mp hk

theorem restoreKey_containsKey {P : Platform} {env : Env} {d : Daemon} {level : SecurityLevel}
    {pk : PersistedKey} {k : Key} :
    (d.restoreKey P env level pk).cache.keys.containsKey k = true ↔
      k = pk.key ∨ d.cache.keys.containsKey k = true := by
  simp only [restoreKey, HashMap.containsKey, HashMap.lookup_insert_ite]
  split_ifs with h <;> simp [h]

/-- What restoring one key preserves is preserved by restoring them all. -/
theorem loadPersistedKeys_invariant {P : Platform} {env : Env} {d : Daemon} {level : SecurityLevel}
    {I : Daemon → Prop} (h : I d)
    (step : ∀ d' pk, pk ∈ d.persistence.loadAll → I d' → I (d'.restoreKey P env level pk)) :
    I (d.loadPersistedKeys P env level) :=
  List.foldlRecOn _ _ h fun d' hd' pk hpk => step d' pk (List.mem_of_mem_filter hpk) hd'

end Daemon

/-! ## The daemon along a run -/

/-- What an event does to the daemon. -/
inductive DaemonStep (P : Platform) (d : Daemon) : Daemon → Prop
  | idle : DaemonStep P d d
  | pre (env : Env) (uid : Int) (request : Request) : DaemonStep P d (d.pre P env uid request).1
  | post (env : Env) (uid : Int) (request : Request) (resultCode : Int) (reply : Option Parcel) :
    DaemonStep P d (d.post P env uid request resultCode reply).1
  | operate (op : ℕ) (call : SoftwareOperationBinder.Call) : DaemonStep P d (d.operate op call)
  | targetChanged (modes : HashMap String Mode) : DaemonStep P d (d.updateTargetPackages modes)
  | keyboxChanged (keyboxes : HashMap String KeyBox) : DaemonStep P d (d.updateKeyBox keyboxes)
  | packageManagerDied :
    DaemonStep P d { d with config := { d.config with uidPackages := ∅ } }
  | persist : DaemonStep P d { d with persistence := d.persistence.step }
  | restart : DaemonStep P d d.restart
  | loadPersistedKeys (level : SecurityLevel) (env : Env) :
    DaemonStep P d (d.loadPersistedKeys P env level).tick
  | initializeConfig (modes : Option (HashMap String Mode))
      (keyboxes : Option (HashMap String KeyBox)) :
    DaemonStep P d (d.initializeConfig modes keyboxes)

/-- A property of the caches and the registry that holds of empty ones, and that hooks, calls on
operations and restored keys preserve, is preserved by every step. -/
theorem Daemon.owners_step {P : Platform} {d d' : Daemon}
    {I : CertificateAliasCache → PassthroughKeyRegistry → Prop} (h : I d.cache d.passthrough)
    (hs : DaemonStep P d d') (hempty : I {} {})
    (hook : ∀ {uid request now ids c p c' p'}, I c p → HookStep uid request now ids c p c' p' → I c' p')
    (usage : ∀ {c p u}, I c p → I { c with usageRemaining := u } p)
    (restore : ∀ {d : Daemon} {env level pk}, I d.cache d.passthrough →
      I (d.restoreKey P env level pk).cache d.passthrough) :
    I d'.cache d'.passthrough := by
  cases hs with
  | idle | targetChanged | packageManagerDied | persist => exact h
  | pre env uid request => exact hook h (pre_steps P env request)
  | post env uid request resultCode reply => exact hook h (post_steps P env request resultCode reply)
  | operate op call =>
    unfold operate
    split
    · exact h
    · exact usage h
  | keyboxChanged | restart => exact hempty
  | loadPersistedKeys level env =>
    exact loadPersistedKeys_invariant (I := fun d => I d.cache d.passthrough) h
      fun _ _ _ hd => restore hd
  | initializeConfig modes keyboxes =>
    cases modes <;> cases keyboxes
    · exact h
    · exact hempty
    · exact h
    · exact hempty

namespace World

variable (P : Platform) (w : World)

theorem arrive_daemon (id : ℕ) (uid : Int) (request : Request) (env : Env) :
    (w.arrive P id uid request env).daemon = w.daemon ∨
      (w.arrive P id uid request env).daemon = (w.daemon.pre P env uid request).1 := by
  unfold arrive
  split
  · exact .inl rfl
  · right
    dsimp only
    split <;> rfl

theorem complete_daemon (id : ℕ) (resultCode : Int) (reply : Option Parcel) (env : Env) :
    (w.complete P id resultCode reply env).daemon = w.daemon ∨
      ∃ t, w.inFlight.lookup id = some t ∧ (w.complete P id resultCode reply env).daemon =
        (w.daemon.post P env t.uid t.request resultCode reply).1 := by
  unfold complete
  split
  · exact .inl rfl
  · next t ht => exact .inr ⟨t, ht, rfl⟩

theorem next_daemonStep (e : Event) : DaemonStep P w.daemon (w.next P e).daemon := by
  cases e with
  | arrive id uid request env =>
    rcases w.arrive_daemon P id uid request env with h | h
    · rw [next, h]
      exact .idle
    · rw [next, h]
      exact .pre env uid request
  | complete id resultCode reply env =>
    rcases w.complete_daemon P id resultCode reply env with h | ⟨t, -, h⟩
    · rw [next, h]
      exact .idle
    · rw [next, h]
      exact .post env t.uid t.request resultCode reply
  | abandon => exact .idle
  | operate op call => exact .operate op call
  | targetChanged modes => exact .targetChanged modes
  | keyboxChanged keyboxes => exact .keyboxChanged keyboxes
  | packageManagerDied => exact .packageManagerDied
  | persist => exact .persist
  | restart => exact .restart
  | loadPersistedKeys level env =>
    dsimp only [next]
    split
    · exact .loadPersistedKeys level env
    · exact .idle
  | initializeConfig modes keyboxes =>
    dsimp only [next]
    split
    · exact .initializeConfig modes keyboxes
    · exact .idle

/-- A property of the daemon that every step preserves holds after every run. -/
theorem run_daemon {I : Daemon → Prop} (step : ∀ d d', I d → DaemonStep P d d' → I d')
    (h : I w.daemon) (es : List Event) : I (w.run P es).daemon :=
  Machine.run_invariant (I := fun w : World => I w.daemon)
    (fun w e hw => step _ _ hw (w.next_daemonStep P e)) h

end World

end TrickyStore
