import TrickyStore.Proof.Transparency

/-!
# Before the configuration is read

The interceptors are registered and restore their keys before `PkgConfig.initialize` reads
`target.txt`, and the observer of its directory starts last.  Until then no package is listed: no
key is tracked, no reply is re-signed, and nothing is saved.
-/

open Lib

namespace TrickyStore

open CertificateAliasCache

/-- `target.txt` is observed once the process has been initialised. -/
def World.Observed (w : World) : Event → Prop
  | .targetChanged _ => w.starting = false
  | _ => True

/-- A request that the hooks forward without asking for the mode of the caller. -/
def Request.ModeFree (request : Request) : Prop :=
  (∃ kd, request = .deleteKey kd) ∨ ∃ kd cert chain, request = .updateSubcomponent kd cert chain

/-- What a hook does to the files; `ids` are the key ids that it may save. -/
inductive PersistStep (ids : Int → Prop) (p : PersistenceManager) : PersistenceManager → Prop
  | kept : PersistStep ids p p
  | deleted (k : Key) : PersistStep ids p (p.deleteKey k)
  | saved (pk : PersistedKey) (hn : ids pk.nspace)
      (hid : ∀ m, pk.metadataBytes = some m → m.key.map KeyDescriptor.nspace = some pk.nspace)
      (hpair : pk.keyPair.isSome = true) :
    PersistStep ids p (p.saveKey pk)

theorem PersistStep.mono {ids ids' : Int → Prop} {p p' : PersistenceManager}
    (h : PersistStep ids p p') (hids : ∀ n, ids n → ids' n) : PersistStep ids' p p' := by
  cases h with
  | kept => exact .kept
  | deleted k => exact .deleted k
  | saved pk hn hid hpair => exact .saved pk (hids _ hn) hid hpair

/-- Nothing is targeted, hence nothing tracked, re-signed or saved, and only requests that need no mode
wait for their post-hook. -/
structure World.Quiet (w : World) : Prop where
  packageModes : ∀ p, w.daemon.config.packageModes.lookup p = none
  patchedResponses : ∀ k, w.daemon.cache.patchedResponses.lookup k = none
  tracked : ∀ k, w.daemon.passthrough.isTracked k = false
  inFlight : ∀ id t, w.inFlight.lookup id = some t → t.request.ModeFree
  queue : ∀ pk, .saveKey pk ∉ w.daemon.persistence.queue

/-! ## What hooks do to the files -/

namespace Daemon

variable {P : Platform} {env : Env} {uid : Int} {level : SecurityLevel} {d : Daemon}
  {kd ak : Option KeyDescriptor} {params : Option (List KeyParameter)} {ids : Int → Prop}

theorem routeGenerateKey_persistence (r : KeygenRequest) (hids : ids env.nextLong) :
    PersistStep ids d.persistence
      (d.routeGenerateKey P env level uid r).1.persistence := by
  unfold routeGenerateKey
  dsimp only
  split
  · exact .kept
  · exact .kept
  · exact .kept
  · split
    · exact .kept
    · refine .saved _ hids (fun m hm => ?_) rfl
      obtain rfl := Option.some.inj hm
      simp [buildResponse]
  · exact .kept
  · exact .kept

theorem preGenerateKey_persistence (hids : ids env.nextLong) :
    PersistStep ids d.persistence
      (d.preGenerateKey P env level uid kd ak params).1.persistence := by
  have hd := checkGenerateKey_fst P env uid d kd ak params
  unfold preGenerateKey
  split
  · next d₁ _ h =>
    rw [h] at hd
    rcases hd with rfl | rfl <;> exact .kept
  · next d₁ r h =>
    rw [h] at hd
    rcases hd with rfl | rfl
    · exact routeGenerateKey_persistence r hids
    · exact routeGenerateKey_persistence (d := d.resolved env uid) r hids

theorem preGetKeyEntry_persistence :
    PersistStep ids d.persistence (d.preGetKeyEntry env uid kd).1.persistence := by
  have hmode (desc : KeyDescriptor) :
      PersistStep ids d.persistence (d.preGetKeyEntryByMode env uid desc).1.persistence := by
    have hclear (k : Key) (b : Bool) : PersistStep ids d.persistence
        ((d.checked env uid).clearSyntheticCertificateState k b).persistence := by
      cases b
      · exact .kept
      · exact .deleted k
    unfold preGetKeyEntryByMode rejectHistoricalOwners
    dsimp only
    repeat' split
    all_goals first | exact .kept | exact hclear _ _
  unfold preGetKeyEntry
  repeat' split
  all_goals first | exact .kept | exact hmode _

variable (P env uid d) in
/-- A pre-hook saves the key that it forges, and no other. -/
theorem pre_persistence (request : Request) :
    PersistStep (fun n => request.isGenerateKey = true ∧ n = env.nextLong) d.persistence
      (d.pre P env uid request).1.persistence := by
  show PersistStep _ _ (d.onPreTransact P env uid request).1.persistence
  cases request with
  | generateKey => exact preGenerateKey_persistence ⟨rfl, rfl⟩
  | importKey => exact .kept
  | createOperation level kd opParams force =>
    rcases preCreateOperation_fst P env uid d kd opParams force with h | ⟨op, h⟩
    all_goals
      rw [onPreTransact, h]
      exact .kept
  | deleteKey =>
    dsimp only [onPreTransact, preDeleteKey]
    split
    · exact .kept
    · exact .deleted _
  | updateSubcomponent =>
    dsimp only [onPreTransact, preUpdateSubcomponent]
    repeat' split
    all_goals exact .kept
  | grant =>
    dsimp only [onPreTransact, preGrant, forgeGrant]
    repeat' split
    all_goals exact .kept
  | ungrant =>
    dsimp only [onPreTransact, preUngrant]
    split <;> exact .kept
  | getKeyEntry => exact preGetKeyEntry_persistence
  | listEntries =>
    dsimp only [onPreTransact, preListEntries]
    split <;> exact .kept

variable (P env uid d) in
/-- A post-hook saves nothing. -/
theorem post_persistence (request : Request) (resultCode : Int) (reply : Option Parcel) :
    PersistStep (fun _ => False) d.persistence
      (d.post P env uid request resultCode reply).1.persistence := by
  show PersistStep _ _ (d.onPostTransact P env uid request resultCode reply).1.persistence
  unfold onPostTransact
  split
  · unfold postGenerateKey patchGenerateKeyReply promotePassthrough
    dsimp only
    repeat' split
    all_goals first | exact .kept | exact .deleted _
  · unfold postImportKey
    split
    · exact .deleted _
    · exact .kept
  · unfold postDeleteKey
    repeat' split
    all_goals first | exact .kept | exact .deleted _
  · unfold postUpdateSubcomponent
    repeat' split
    all_goals exact .kept
  · unfold postGrant
    repeat' split
    all_goals exact .kept
  · unfold postGetKeyEntry patchLeaf
    dsimp only
    repeat' split
    all_goals exact .kept
  · unfold postListEntries
    split <;> exact .kept
  · exact .kept

end Daemon

/-! ## Hooks while nothing is targeted -/

/-- Only a `generateKey` and the post-hook of a `getKeyEntry` track or re-sign. -/
theorem HookStep.unowned {uid : Int} {request : Request} {now : ℕ} {ids : Int → Prop}
    {c c' : CertificateAliasCache} {p p' : PassthroughKeyRegistry}
    (h : HookStep uid request now ids c p c' p') (hgenerate : request.isGenerateKey = false)
    (hread : ∀ kd, request ≠ .getKeyEntry kd) (hc : ∀ k, c.patchedResponses.lookup k = none)
    (hp : ∀ k, p.isTracked k = false) :
    (∀ k, c'.patchedResponses.lookup k = none) ∧ ∀ k, p'.isTracked k = false := by
  have hclear (k k' : Key) : (c.clear k).patchedResponses.lookup k' = none := by
    rw [clear_patchedResponses, HashMap.lookup_erase_ite, hc, ite_self]
  cases h with
  | unchanged | unskipped | regranted | granted | ungranted => exact ⟨hc, hp⟩
  | cleared a => exact ⟨hclear _, hp⟩
  | relinquished a =>
    refine ⟨hclear _, fun k => ?_⟩
    rw [PassthroughKeyRegistry.isTracked, PassthroughKeyRegistry.remove, HashMap.containsKey_erase]
    split_ifs
    · rfl
    · exact hp k
  | generated _ _ _ _ _ _ _ _ _ hrequest => simp [hgenerate] at hrequest
  | patched _ _ _ _ hrequest => simp [hgenerate] at hrequest
  | promoted _ _ _ hrequest => simp [hgenerate] at hrequest
  | updated k =>
    refine ⟨fun k' => ?_, hp⟩
    simp only [updateKeyCertChain, hc]
  | resigned _ _ _ kd hrequest => exact absurd hrequest (hread kd)

namespace Daemon

variable {P : Platform} {env : Env} {uid : Int} {d : Daemon}

/-- What needs a mode is not forwarded for a caller without listed package. -/
theorem modeFree_of_continue {request : Request} (h : d.config.FoundUnlisted env.packageManager uid)
    (hpatched : ∀ k, d.cache.patchedResponses.lookup k = none)
    (hcontinue : (d.pre P env uid request).2 = .Continue) : request.ModeFree := by
  change (d.onPreTransact P env uid request).2 = .Continue at hcontinue
  have hgenerate : d.needGenerate env uid = false := PkgConfig.needGenerate_of_unlisted h
  have hhack : d.needHack env uid = false := PkgConfig.needHack_of_unlisted h
  cases request with
  | deleteKey kd => exact .inl ⟨kd, rfl⟩
  | updateSubcomponent kd cert chain => exact .inr ⟨kd, cert, chain, rfl⟩
  | generateKey level kd ak params =>
    obtain ⟨r, hroute, -⟩ := preGenerateKey_eq_continue_iff.1 hcontinue
    obtain ⟨d₁, req, hd₁, hselected⟩ := generateKeyRoute_eq_some hroute
    have hunlisted : d₁.config.FoundUnlisted env.packageManager uid := by
      rcases hd₁ with rfl | rfl
      · exact h
      · exact h.getOrPut
    simp [selectedRoute, needGenerate, needHack, PkgConfig.needGenerate_of_unlisted hunlisted,
      PkgConfig.needHack_of_unlisted hunlisted, GenerateKeyRoute.computeForceForge] at hselected
  | importKey =>
    simp [onPreTransact, preImportKey, hgenerate, hhack] at hcontinue
  | createOperation level kd opParams force =>
    simp only [onPreTransact, preCreateOperation] at hcontinue
    repeat' split at hcontinue
    all_goals cases hcontinue
  | grant kd granteeUid accessVector =>
    simp only [onPreTransact, preGrant] at hcontinue
    split at hcontinue
    · split at hcontinue
      · cases hcontinue
      · next k _ =>
        split_ifs at hcontinue with hk hpatchedKey
        rw [isPatchedKey, Bool.or_eq_true, HashMap.containsKey_eq_true, HashMap.containsKey_eq_true]
          at hpatchedKey
        obtain ⟨r, hr⟩ := hpatchedKey.resolve_left (by simpa using hk)
        rw [hpatched] at hr
        cases hr
    · cases hcontinue
  | ungrant kd granteeUid =>
    simp only [onPreTransact, preUngrant] at hcontinue
    split at hcontinue
    · cases hcontinue
    · dsimp only at hcontinue
      split_ifs at hcontinue
      cases hcontinue
  | getKeyEntry kd =>
    have hchecked : (d.checked env uid).needHack env uid = false :=
      (PkgConfig.checked_needHack uid).trans hhack
    have hmode (desc : KeyDescriptor) : (d.preGetKeyEntryByMode env uid desc).2 ≠ .Continue := by
      simp only [preGetKeyEntryByMode, hgenerate, hchecked, Bool.false_eq_true, if_false, serveCached]
      split <;> simp [Result.typedObjectReply]
    simp only [onPreTransact, preGetKeyEntry] at hcontinue
    repeat' split at hcontinue
    all_goals first | exact absurd hcontinue (hmode _) | cases hcontinue
  | listEntries =>
    simp only [onPreTransact, preListEntries, hgenerate, hhack] at hcontinue
    split at hcontinue <;> cases hcontinue

/-- A pre-hook of a caller without listed package neither tracks, re-signs nor saves. -/
theorem pre_of_unlisted (request : Request) (h : d.config.FoundUnlisted env.packageManager uid)
    (hpatched : ∀ k, d.cache.patchedResponses.lookup k = none)
    (htracked : ∀ k, d.passthrough.isTracked k = false) :
    (∀ k, (d.pre P env uid request).1.cache.patchedResponses.lookup k = none) ∧
      (∀ k, (d.pre P env uid request).1.passthrough.isTracked k = false) ∧
      PersistStep (fun _ => False) d.persistence (d.pre P env uid request).1.persistence := by
  have hstep : d.Steps uid request (fun n => n = env.nextLong) d.clock (d.pre P env uid request).1 :=
    pre_steps P env request
  have hpersist := pre_persistence P env uid d request
  cases request with
  | generateKey level kd ak params =>
    obtain ⟨-, hcache, hpassthrough, hkept⟩ := preGenerateKey_of_unlisted P level kd ak params h
    simp only [pre, onPreTransact, tick, hcache, hpassthrough, hkept]
    exact ⟨hpatched, htracked, .kept⟩
  | getKeyEntry kd =>
    obtain ⟨hcache, hpassthrough⟩ := preGetKeyEntry_owners env uid d kd
    refine ⟨fun k => ?_, fun k => ?_, preGetKeyEntry_persistence⟩
    · show (d.preGetKeyEntry env uid kd).1.cache.patchedResponses.lookup k = none
      rcases hcache with hcache | ⟨a, hcache⟩ <;> rw [hcache]
      · exact hpatched k
      · rw [clear_patchedResponses, HashMap.lookup_erase_ite, hpatched, ite_self]
    · show (d.preGetKeyEntry env uid kd).1.passthrough.isTracked k = false
      rw [hpassthrough]
      exact htracked k
  | _ =>
    obtain ⟨hpatched', htracked'⟩ := hstep.unowned rfl (by simp) hpatched htracked
    exact ⟨hpatched', htracked', hpersist.mono fun _ hn => Bool.false_ne_true hn.1⟩

end Daemon

/-! ## The starting phase -/

namespace World

variable {P : Platform} {w : World} {e : Event}

theorem Quiet.unlisted (h : w.Quiet) (pm : PackageManager) (uid : Int) :
    w.daemon.config.FoundUnlisted pm uid :=
  fun _ _ _ _ => h.packageModes _

/-- A hook that saves nothing puts no save into the queue. -/
theorem not_mem_queue {p p' : PersistenceManager} {pk : PersistedKey}
    (h : PersistStep (fun _ => False) p p') (hp : .saveKey pk ∉ p.queue) : .saveKey pk ∉ p'.queue := by
  cases h with
  | kept => exact hp
  | deleted k =>
    intro hmem
    rcases List.mem_append.1 hmem with hmem | hmem
    · exact hp hmem
    · cases List.mem_singleton.1 hmem
  | saved _ hn => exact hn.elim

theorem Quiet.arrive (h : w.Quiet) (id : ℕ) (uid : Int) (request : Request) (env : Env) :
    (w.arrive P id uid request env).Quiet := by
  have hunlisted := h.unlisted env.packageManager uid
  obtain ⟨hpatched, htracked, hpersist⟩ :=
    Daemon.pre_of_unlisted (P := P) (d := w.daemon) request hunlisted h.patchedResponses h.tracked
  have hmodes (p : String) :
      (w.daemon.pre P env uid request).1.config.packageModes.lookup p = none := by
    rw [show (w.daemon.pre P env uid request).1.config.packageModes = _ from
      (Daemon.onPreTransact_frame P env uid w.daemon request).config.packageModes]
    exact h.packageModes p
  have hqueue (pk : PersistedKey) := not_mem_queue hpersist (h.queue pk)
  unfold World.arrive
  split
  · exact h
  · dsimp only
    split
    · next hcontinue =>
      refine ⟨hmodes, hpatched, htracked, fun id' t ht => ?_, hqueue⟩
      rcases HashMap.lookup_insert_eq_some.1 ht with ⟨-, rfl⟩ | ⟨-, ht⟩
      · exact Daemon.modeFree_of_continue hunlisted h.patchedResponses hcontinue
      · exact h.inFlight id' t ht
    · exact ⟨hmodes, hpatched, htracked, h.inFlight, hqueue⟩

theorem Quiet.complete (h : w.Quiet) (id : ℕ) (resultCode : Int) (reply : Option Parcel) (env : Env) :
    (w.complete P id resultCode reply env).Quiet := by
  unfold World.complete
  split
  · exact h
  · next t ht =>
    have hfree := h.inFlight id t ht
    have hgenerate : t.request.isGenerateKey = false := by
      rcases hfree with ⟨kd, hr⟩ | ⟨kd, cert, chain, hr⟩ <;> rw [hr] <;> rfl
    have hread (kd : Option KeyDescriptor) : t.request ≠ .getKeyEntry kd := by
      rcases hfree with ⟨kd', hr⟩ | ⟨kd', cert, chain, hr⟩ <;> rw [hr] <;> simp
    obtain ⟨hpatched, htracked⟩ :=
      (Daemon.post_steps P env t.request resultCode reply).unowned hgenerate hread h.patchedResponses
        h.tracked
    refine ⟨fun p => ?_, hpatched, htracked, fun id' t' ht' => ?_, fun pk => ?_⟩
    · show (w.daemon.post P env t.uid t.request resultCode reply).1.config.packageModes.lookup p = none
      rw [show (w.daemon.post P env t.uid t.request resultCode reply).1.config.packageModes = _ from
        (Daemon.onPostTransact_frame P env t.uid w.daemon t.request resultCode reply).config.packageModes]
      exact h.packageModes p
    · exact h.inFlight id' t' (HashMap.lookup_erase_eq_some.1 ht').2
    · exact not_mem_queue (Daemon.post_persistence P env t.uid w.daemon t.request resultCode reply)
        (h.queue pk)

/-- A call on an operation, a keybox or a restored key does not make anything be targeted. -/
theorem Quiet.of_daemon {d : Daemon} (h : w.Quiet)
    (hmodes : d.config.packageModes = w.daemon.config.packageModes)
    (hpatched : ∀ k, d.cache.patchedResponses.lookup k = none)
    (htracked : ∀ k, d.passthrough.isTracked k = false)
    (hqueue : ∀ pk, .saveKey pk ∉ d.persistence.queue) : (w.withDaemon d).Quiet :=
  ⟨fun p => by rw [show (w.withDaemon d).daemon.config.packageModes = _ from hmodes]
               exact h.packageModes p, hpatched, htracked, h.inFlight, hqueue⟩

theorem quiet_of_fresh {d : Daemon} (hconfig : d.config = {}) (hcache : d.cache = {})
    (hpassthrough : d.passthrough = {}) (hqueue : d.persistence.queue = []) :
    ({ daemon := d } : World).Quiet := by
  refine ⟨fun p => ?_, fun k => ?_, fun k => ?_, fun _ _ h => (by cases h), fun pk => ?_⟩
  · show d.config.packageModes.lookup p = none
    rw [hconfig]
    rfl
  · show d.cache.patchedResponses.lookup k = none
    rw [hcache]
    rfl
  · show d.passthrough.isTracked k = false
    rw [hpassthrough]
    rfl
  · show .saveKey pk ∉ d.persistence.queue
    rw [hqueue]
    exact List.not_mem_nil

theorem quiet_init : ({} : World).Quiet := quiet_of_fresh rfl rfl rfl rfl

/-- Until it has read its configuration, the process is quiet. -/
theorem quiet_step (h : w.starting = true → w.Quiet) (he : w.Observed e)
    (hstarting : (w.next P e).starting = true) : (w.next P e).Quiet := by
  cases e with
  | arrive id uid request env =>
    have hs : w.starting = true := by
      rw [← hstarting, next, World.arrive]
      repeat' split
      all_goals rfl
    exact (h hs).arrive id uid request env
  | complete id resultCode reply env =>
    have hs : w.starting = true := by
      rw [← hstarting, next, World.complete]
      split <;> rfl
    exact (h hs).complete id resultCode reply env
  | abandon id =>
    obtain ⟨hmodes, hpatched, htracked, hinFlight, hqueue⟩ := h hstarting
    exact ⟨hmodes, hpatched, htracked,
      fun id' t ht => hinFlight id' t (HashMap.lookup_erase_eq_some.1 ht).2, hqueue⟩
  | operate op call =>
    have hq := h hstarting
    dsimp only [next, Daemon.operate]
    split
    · exact hq
    · exact hq.of_daemon rfl hq.patchedResponses hq.tracked hq.queue
  | targetChanged modes =>
    have hstarted : w.starting = false := he
    exact absurd (hstarted.symm.trans hstarting) Bool.false_ne_true
  | keyboxChanged keyboxes =>
    have hq := h hstarting
    refine hq.of_daemon rfl (fun _ => rfl) (fun _ => rfl) fun pk hmem => ?_
    rcases List.mem_append.1 hmem with hmem | hmem
    · exact hq.queue pk hmem
    · cases List.mem_singleton.1 hmem
  | packageManagerDied =>
    have hq := h hstarting
    exact hq.of_daemon rfl hq.patchedResponses hq.tracked hq.queue
  | persist =>
    have hq := h hstarting
    refine hq.of_daemon rfl hq.patchedResponses hq.tracked fun pk hmem => ?_
    refine hq.queue pk ?_
    unfold PersistenceManager.step at hmem
    split at hmem
    · exact hmem
    · next t ts ht =>
      rw [ht]
      exact List.mem_cons_of_mem _ hmem
  | restart => exact quiet_of_fresh rfl rfl rfl rfl
  | loadPersistedKeys level env =>
    dsimp only [next] at hstarting ⊢
    split_ifs at hstarting ⊢
    · have hq := h hstarting
      refine Daemon.loadPersistedKeys_invariant
        (I := fun d => (w.withDaemon d.tick).Quiet) ?_ fun d pk _ hd => ?_
      · exact hq.of_daemon rfl hq.patchedResponses hq.tracked hq.queue
      · exact hd.of_daemon (d := (d.restoreKey P env level pk).tick) rfl hd.patchedResponses hd.tracked
          hd.queue
    · exact h hstarting
  | initializeConfig modes keyboxes =>
    dsimp only [next] at hstarting ⊢
    split_ifs at hstarting ⊢ with hs
    exact absurd hstarting hs

end World

end TrickyStore
