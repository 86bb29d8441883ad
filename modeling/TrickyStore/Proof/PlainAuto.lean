import TrickyStore.Proof.HookFrame

/-!
# A plain AUTO caller gets the real entry

`getKeyEntry` must not answer a plain AUTO caller from the caches nor re-sign for it.  The hooks ask
`isPlainAuto`, which reads the package cache, before and after `checkNeed`, which fills it: the grant
shortcut and the policy of the post-hook ask too early.
-/

open Lib

namespace TrickyStore

/-- Some package is AUTO, and none has a `!` or `?` line. -/
def plainAuto (modes : HashMap String Mode) (packages : List String) : Bool :=
  packages.any (fun p => modes.lookup p = some .AUTO) &&
    packages.all fun p => modes.lookup p ≠ some .GENERATE && modes.lookup p ≠ some .LEAF_HACK

/-- Nothing cached and nothing re-signed: the request is forwarded or refused. -/
def Result.keepsReal : Result → Bool
  | .Skip | .Continue => true
  | .OverrideReply _ (.error code _) _ => code = ResponseCode.PERMISSION_DENIED
  | .OverrideReply .. => false

namespace Daemon

variable (env : Env) (uid : Int) (d : Daemon)

/-- The packages that `PackageManager` reports for the caller are plain AUTO. -/
def PlainAutoCaller : Prop :=
  ∃ ps, env.packageManager.getPackagesForUid uid = some ps ∧ plainAuto d.config.packageModes ps = true

/-- The cached packages of the caller, if any, are those that `PackageManager` reports. -/
def CacheFresh : Prop :=
  ∀ ps, d.config.uidPackages.lookup uid = some ps →
    env.packageManager.getPackagesForUid uid = some ps

def packagesCached : Bool := d.config.uidPackages.containsKey uid

/-- The descriptor names a grant that lets the caller read an entry in the cache. -/
def grantServes (desc : KeyDescriptor) : Bool :=
  (d.grantFor uid desc.nspace).any fun g =>
    g.allows KeyPermission.GET_INFO && (d.cache.cachedResponse g.key).isSome

/-- There is an entry in the cache that the post-hook would deliver. -/
def ownerCached (kd : Option KeyDescriptor) : Bool :=
  (d.postHookInput env uid kd).hasCachedPatch || (d.postHookInput env uid kd).hasGeneratedOwner

end Daemon

namespace World

variable (P : Platform) (w : World)

/-- A `getKeyEntry` of a plain AUTO caller leaves the real keystore's answer alone. -/
def Trusted : Event → Prop
  | .arrive _ uid (.getKeyEntry kd) env => w.daemon.PlainAutoCaller env uid →
      (w.daemon.pre P env uid (.getKeyEntry kd)).2.keepsReal = true
  | .complete id resultCode reply env => ∀ t kd, w.inFlight.lookup id = some t →
      t.request = .getKeyEntry kd → w.daemon.PlainAutoCaller env t.uid →
        (w.daemon.post P env t.uid t.request resultCode reply).2 = .Skip
  | _ => True

/-- When a plain AUTO caller's `getKeyEntry` runs into a hook, the package cache agrees with
`PackageManager` and has the caller, unless nothing cached could be delivered. -/
def PackagesKnown : Event → Prop
  | .arrive _ uid (.getKeyEntry kd) env => w.daemon.PlainAutoCaller env uid →
      w.daemon.hasKeyboxes = true → w.daemon.CacheFresh env uid ∧
        (w.daemon.packagesCached uid = true ∨ kd.any (w.daemon.grantServes uid) = false)
  | .complete id _ (some reply) env => ∀ t kd, w.inFlight.lookup id = some t →
      t.request = .getKeyEntry kd → w.daemon.PlainAutoCaller env t.uid →
        reply.readException.isSome = true → w.daemon.CacheFresh env t.uid ∧
          (w.daemon.packagesCached t.uid = true ∨
            kd.any (w.daemon.isPassthroughDescriptor t.uid) = true ∨
              w.daemon.ownerCached env t.uid kd = false)
  | _ => True

end World

/-! ## What the predicates answer for a plain AUTO caller -/

namespace PkgConfig

variable {c : PkgConfig} {pm : PackageManager} {tee : TeeState} {uid : Int} {ps : List String}

theorem plainAuto_iff {modes : HashMap String Mode} :
    plainAuto modes ps = true ↔ (∃ p ∈ ps, modes.lookup p = some .AUTO) ∧
      ∀ p ∈ ps, modes.lookup p ≠ some .GENERATE ∧ modes.lookup p ≠ some .LEAF_HACK := by
  simp [plainAuto]

theorem needGenerate_of_plainAuto (hps : c.packages pm uid = some ps)
    (h : plainAuto c.packageModes ps = true) : c.needGenerate pm uid = false := by
  simp only [needGenerate, checkNeed, hps, TeeProbeClassifier.autoGenerateAllowed, List.any_eq_false]
  intro p hp
  have hne := (plainAuto_iff.1 h).2 p hp
  cases hm : c.packageModes.lookup p with
  | none => simp
  | some m => cases m <;> simp_all

theorem needHack_of_plainAuto (hps : c.packages pm uid = some ps)
    (h : plainAuto c.packageModes ps = true) : c.needHack pm uid = true := by
  obtain ⟨p, hp, hm⟩ := (plainAuto_iff.1 h).1
  simp only [needHack, checkNeed, hps, TeeProbeClassifier.autoLeafHackAllowed, List.any_eq_true]
  exact ⟨p, hp, by simp [hm]⟩

theorem hasTargetMode_of_plainAuto (hps : c.uidPackages.lookup uid = some ps)
    (h : plainAuto c.packageModes ps = true) :
    c.hasTargetMode uid .GENERATE = false ∧ c.hasTargetMode uid .LEAF_HACK = false ∧
      c.hasTargetMode uid .AUTO = true := by
  obtain ⟨hauto, hne⟩ := plainAuto_iff.1 h
  simp only [hasTargetMode, hps, List.any_eq_false, List.any_eq_true, decide_eq_true_eq]
  exact ⟨fun p hp => (hne p hp).1, fun p hp => (hne p hp).2, hauto⟩

theorem isPlainAuto_of_plainAuto (hps : c.uidPackages.lookup uid = some ps)
    (h : plainAuto c.packageModes ps = true) : c.isPlainAuto uid = true := by
  obtain ⟨hgenerate, hleaf, hauto⟩ := hasTargetMode_of_plainAuto hps h
  simp [isPlainAuto, isExplicitGenerate, isExplicitLeafHack, hgenerate, hleaf, hauto]

end PkgConfig

namespace Daemon

variable {P : Platform} {env : Env} {uid : Int} {d : Daemon} {ps : List String}

theorem CacheFresh.packages (h : d.CacheFresh env uid)
    (hps : env.packageManager.getPackagesForUid uid = some ps) :
    d.config.packages env.packageManager uid = some ps := by
  unfold PkgConfig.packages
  cases hc : d.config.uidPackages.lookup uid with
  | none => exact hps
  | some ps' => exact (h ps' hc).symm.trans hps

/-- Once `checkNeed` has run, a plain AUTO caller is known as one. -/
theorem preGetKeyEntryByMode_of_packages {desc : KeyDescriptor}
    (hpackages : d.config.packages env.packageManager uid = some ps)
    (hauto : plainAuto d.config.packageModes ps = true) :
    (d.preGetKeyEntryByMode env uid desc).2 = .Continue := by
  have hchecked : (d.checked env uid).config.uidPackages.lookup uid = some ps := by
    rw [checked, PkgConfig.checked_lookup, if_pos rfl]
    exact hpackages
  have hplain : (d.checked env uid).config.isPlainAuto uid = true :=
    PkgConfig.isPlainAuto_of_plainAuto hchecked (by simpa [checked] using hauto)
  have hneed : (d.checked env uid).needHack env uid = true :=
    (PkgConfig.checked_needHack uid).trans (PkgConfig.needHack_of_plainAuto hpackages hauto)
  simp only [preGetKeyEntryByMode, needGenerate,
    PkgConfig.needGenerate_of_plainAuto hpackages hauto, hneed, hplain, Bool.false_eq_true, if_false,
    if_true]
  split_ifs <;> rfl

theorem preGetKeyEntryByMode_of_plainAuto {desc : KeyDescriptor} (hplain : d.PlainAutoCaller env uid)
    (hfresh : d.CacheFresh env uid) : (d.preGetKeyEntryByMode env uid desc).2 = .Continue := by
  obtain ⟨ps, hps, hauto⟩ := hplain
  exact preGetKeyEntryByMode_of_packages (hfresh.packages hps) hauto

theorem preGetKeyEntry_of_plainAuto {kd : Option KeyDescriptor} (hplain : d.PlainAutoCaller env uid)
    (hknown : d.hasKeyboxes = true → d.CacheFresh env uid ∧
      (d.packagesCached uid = true ∨ kd.any (d.grantServes uid) = false)) :
    (d.preGetKeyEntry env uid kd).2.keepsReal = true := by
  unfold preGetKeyEntry
  split
  · next hkeyboxes =>
    obtain ⟨hfresh, hknown⟩ := hknown hkeyboxes
    have hmode {desc : KeyDescriptor} :
        (d.preGetKeyEntryByMode env uid desc).2.keepsReal = true := by
      rw [preGetKeyEntryByMode_of_plainAuto hplain hfresh]
      rfl
    split
    · rfl
    · next desc =>
      split
      · exact hmode
      · next g hg =>
        split
        · next hallows =>
          split
          · exact hmode
          · next r hr =>
            -- the shortcut finds `r`, so the condition says that the cache has the caller
            have hcached : d.packagesCached uid = true := by
              refine hknown.resolve_right ?_
              simp [grantServes, hg, hallows, hr]
            obtain ⟨ps', hps'⟩ := HashMap.containsKey_eq_true.1 hcached
            obtain ⟨ps, hps, hauto⟩ := hplain
            obtain rfl : ps' = ps := Option.some.inj ((hfresh ps' hps').symm.trans hps)
            rw [PkgConfig.isPlainAuto_of_plainAuto hps' hauto]
            exact hmode
        · rfl
  · rfl

theorem postGetKeyEntry_of_plainAuto {kd : Option KeyDescriptor} {reply : Parcel}
    (hplain : d.PlainAutoCaller env uid)
    (hknown : reply.readException.isSome = true → d.CacheFresh env uid ∧
      (d.packagesCached uid = true ∨ kd.any (d.isPassthroughDescriptor uid) = true ∨
        d.ownerCached env uid kd = false)) :
    (d.postGetKeyEntry env uid P kd reply).2 = .Skip := by
  unfold postGetKeyEntry
  split
  · rfl
  · next body hbody =>
    obtain ⟨hfresh, hknown⟩ := hknown (by rw [hbody]; rfl)
    obtain ⟨ps, hps, hauto⟩ := hplain
    suffices h : GetKeyEntryPostPolicy.decide (d.postHookInput env uid kd) =
        .PASSTHROUGH_UNMODIFIED by
      simp only [h]
    unfold GetKeyEntryPostPolicy.decide
    by_cases hcached : d.packagesCached uid = true
    · obtain ⟨ps', hps'⟩ := HashMap.containsKey_eq_true.1 hcached
      obtain rfl : ps' = ps := Option.some.inj ((hfresh ps' hps').symm.trans hps)
      have hmode : (d.postHookInput env uid kd).plainAutoMode = true :=
        PkgConfig.isPlainAuto_of_plainAuto hps' hauto
      simp only [hmode, if_true, ite_self]
    · -- the caller is unknown, and no entry of its is found: AUTO preserves the real one
      have hnone : d.config.uidPackages.lookup uid = none := by
        simpa [packagesCached, HashMap.containsKey] using hcached
      have hleaf : (d.postHookInput env uid kd).explicitLeafHack = false := by
        simp [postHookInput, PkgConfig.isExplicitLeafHack, PkgConfig.hasTargetMode, hnone]
      have hpreserve : (d.postHookInput env uid kd).autoPreserveUntrackedReal = true := by
        have hpackages := hfresh.packages hps
        have hleaf' : d.config.isExplicitLeafHack uid = false := hleaf
        simp [postHookInput, needHack, needGenerate, hleaf',
          PkgConfig.needGenerate_of_plainAuto hpackages hauto,
          PkgConfig.needHack_of_plainAuto hpackages hauto]
      rcases hknown.resolve_left hcached with htracked | howner
      · have ht : (d.postHookInput env uid kd).isPassthroughTracked = true := htracked
        simp only [ht, if_true]
      · have ho : ((d.postHookInput env uid kd).hasCachedPatch ||
            (d.postHookInput env uid kd).hasGeneratedOwner) = false := howner
        simp only [ho, hleaf, hpreserve, Bool.false_eq_true, if_false, if_true, ite_self]

end Daemon

/-! ## Runs -/

namespace World

variable {P : Platform} {w : World}

theorem PackagesKnown.trusted {e : Event} (h : w.PackagesKnown e) : w.Trusted P e := by
  cases e with
  | arrive id uid request env =>
    cases request with
    | getKeyEntry kd =>
      intro hplain
      exact Daemon.preGetKeyEntry_of_plainAuto hplain (h hplain)
    | _ => trivial
  | complete id resultCode reply env =>
    intro t kd ht hrequest hplain
    show (w.daemon.onPostTransact P env t.uid t.request resultCode reply).2 = .Skip
    rw [hrequest]
    cases reply with
    | none => rfl
    | some p => exact Daemon.postGetKeyEntry_of_plainAuto hplain (h t kd ht hrequest hplain)
  | _ => trivial

/-- In a run whose hooks know the packages of their plain AUTO callers, these get nothing but the real
keystore's answers. -/
theorem trusted_of_packagesKnown (P : Platform) (es : List Event)
    (h : Machine.AllSteps (World.next P) PackagesKnown {} es) :
    Machine.AllSteps (World.next P) (Trusted P) {} es :=
  fun es₁ e es₂ he => (h es₁ e es₂ he).trusted

end World

namespace Demo

/-- The owner forges the key 5 and grants GET_INFO on it under the id 6. -/
def forgeAndGrant : List Event :=
  start .GENERATE .AUTO ++ [.arrive 1 owner (generate ecParams) (env 5),
    .arrive 2 owner (.grant (some byAlias) other KeyPermission.GET_INFO) (env 6)]

/-- The grantee reads the entry by the grant id. -/
def readGranted : Event := .arrive 4 other (.getKeyEntry (some (byId 6))) (env 7)

/-- The grantee is resolved first. -/
def listThenRead : List Event := forgeAndGrant ++ [.arrive 3 other (.listEntries 0 none) (env 7), readGranted]

end Demo

namespace World

open Demo

theorem trusted_listThenRead :
    Machine.AllSteps (World.next platform) (Trusted platform) {} listThenRead := by
  have hfresh {d : Daemon} (h : d.config.uidPackages.lookup other = some ["com.other"]) :
      d.CacheFresh (env 7) other := by
    intro ps hps
    rw [h] at hps
    exact hps
  refine trusted_of_packagesKnown platform listThenRead ?_
  refine Machine.allSteps_cons trivial (Machine.allSteps_cons trivial ?_)
  refine Machine.allSteps_cons trivial (Machine.allSteps_cons trivial ?_)
  refine Machine.allSteps_cons (fun _ _ => ⟨hfresh (by decide), .inl (by decide)⟩) ?_
  exact Machine.allSteps_nil

/-- The grant shortcut asks for the mode of a caller whose packages nobody has looked up yet. -/
theorem unresolved_grantee_gets_forged_entry :
    ¬ ∀ P es, Machine.AllSteps (World.next P) (Trusted P) {} es := by
  intro h
  have htrusted := h platform (forgeAndGrant ++ [readGranted]) forgeAndGrant readGranted [] rfl
    ⟨["com.other"], rfl, by decide⟩
  exact absurd htrusted (by decide)

end World

end TrickyStore
