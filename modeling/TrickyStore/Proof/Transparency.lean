import TrickyStore.Proof.Sequential

/-!
# Callers that the interceptors have nothing to do with

A uid without a listed package, without an entry of its own and without a grant sees the real
keystore: whatever it asks for is forwarded, the reply is left alone, and what the daemon clears on
the way is the caller's own.  The packages are those that the package manager reports; the daemon asks
it once and keeps the answer in `uidPackages`, which nothing but the death of the package manager clears.
-/

open Lib

namespace TrickyStore

open CertificateAliasCache

namespace PkgConfig

variable (c : PkgConfig) (pm : PackageManager) (uid : Int)

/-- None of the packages that the package manager reports for the uid is listed in `target.txt`. -/
def Unlisted : Prop :=
  ∀ ps, pm.getPackagesForUid uid = some ps → ∀ pkg ∈ ps, c.packageModes.lookup pkg = none

/-- None of the packages that `uidPackages` has for the uid is listed. -/
def CachedUnlisted : Prop :=
  ∀ ps, c.uidPackages.lookup uid = some ps → ∀ pkg ∈ ps, c.packageModes.lookup pkg = none

/-- None of the packages that the daemon goes by is listed. -/
def FoundUnlisted : Prop :=
  ∀ ps, c.packages pm uid = some ps → ∀ pkg ∈ ps, c.packageModes.lookup pkg = none

end PkgConfig

/-- The uid has no listed package, owns no entry and was granted none. -/
structure Daemon.Uninvolved (d : Daemon) (pm : PackageManager) (uid : Int) : Prop where
  unlisted : d.config.Unlisted pm uid
  keys : ∀ k, k.uid = uid → d.cache.keys.lookup k = none
  patchedResponses : ∀ k, k.uid = uid → d.cache.patchedResponses.lookup k = none
  grants : ∀ n g, d.cache.grants.lookup n = some g → g.granteeUid ≠ uid

/-- A `generateKey` that one of the three checks refuses. -/
def Exchange.refused (P : Platform) (x : Exchange) (d : Daemon) : Bool :=
  match x.request with
  | .generateKey _ (some descriptor) _ (some params) =>
    ((KeyGenParameters.ofParams P.x500Name params).attestationChallenge.any fun c =>
        c.length > MAX_ATTESTATION_CHALLENGE_BYTES) ||
      descriptor.keyAlias.isSome &&
        ((params.any fun p => p.tag = Tag.CREATION_DATETIME) ||
          (params.any fun p => isDeviceIdTag p.tag) &&
            !d.config.hasPermissionForUid x.preEnv.packageManager x.uid
              "android.permission.READ_PRIVILEGED_PHONE_STATE")
  | _ => false

/-- The packages of the caller decide about the request, even if the caller has no entry and no grant: they
do for a `generateKey`, and for a `getKeyEntry` if its reply has a second header behind the first. -/
def Exchange.goesByMode (x : Exchange) : Bool :=
  match x.request with
  | .generateKey .. => true
  | .getKeyEntry _ => ((x.reply.bind Parcel.readException).bind Parcel.readException).isSome
  | _ => false

/-- The request's post-hook has nothing to put into the reply of a caller without forged keys. -/
def Request.keepsReply : Request → Bool
  | .deleteKey .. | .updateSubcomponent .. | .importKey .. | .listEntries .. => true
  | _ => false

/-- Nothing of another uid has changed: the maps have the same entries under its keys, for its grants
and in the registry. -/
structure Daemon.OthersKept (uid : Int) (d d' : Daemon) : Prop where
  keys : ∀ k, k.uid ≠ uid → d'.cache.keys.lookup k = d.cache.keys.lookup k
  keyPairs : ∀ k, k.uid ≠ uid → d'.cache.keyPairs.lookup k = d.cache.keyPairs.lookup k
  skipLeafHacks : ∀ k, k.uid ≠ uid → d'.cache.skipLeafHacks.lookup k = d.cache.skipLeafHacks.lookup k
  patchedResponses : ∀ k, k.uid ≠ uid →
    d'.cache.patchedResponses.lookup k = d.cache.patchedResponses.lookup k
  usageRemaining : ∀ k, k.uid ≠ uid →
    d'.cache.usageRemaining.lookup k = d.cache.usageRemaining.lookup k
  keysByNspace : ∀ n k, k.uid ≠ uid →
    (d'.cache.keysByNspace.lookup n = some k ↔ d.cache.keysByNspace.lookup n = some k)
  grants : ∀ n g, g.ownerUid ≠ uid →
    (d'.cache.grants.lookup n = some g ↔ d.cache.grants.lookup n = some g)
  tracked : ∀ k, k.uid ≠ uid → d'.passthrough.isTracked k = d.passthrough.isTracked k
  byNspace : ∀ n k, k.uid ≠ uid →
    (d'.passthrough.byNspace.lookup n = some k ↔ d.passthrough.byNspace.lookup n = some k)

/-- The request goes to the real keystore and its reply to the client, and nothing of another uid changes. -/
def Exchange.SeesRealKeystore (P : Platform) (x : Exchange) (d : Daemon) : Prop :=
  x.isForwarded P d = true ∧ (d.serve P x).2 = .fromKeystore x.resultCode x.reply ∧
    d.OthersKept x.uid (d.serve P x).1

/-! ## Grants belong to the owner of their key -/

/-- The owner of a grant is the owner of its key. -/
def CertificateAliasCache.GrantsOwned (c : CertificateAliasCache) : Prop :=
  ∀ n g, c.grants.lookup n = some g → g.key.uid = g.ownerUid

theorem HookStep.grantsOwned {uid : Int} {request : Request} {now : ℕ} {ids : Int → Prop}
    {c c' : CertificateAliasCache} {p p' : PassthroughKeyRegistry}
    (h : HookStep uid request now ids c p c' p') (hc : c.GrantsOwned) : c'.GrantsOwned := by
  have hclear {k : Key} : (c.clear k).GrantsOwned := by
    intro n g hg
    rw [clear_grants, HashMap.lookup_removeIf_eq_some] at hg
    exact hc n g hg.1
  cases h with
  | unchanged | unskipped | resigned | updated => exact hc
  | cleared | relinquished | generated => exact hclear
  | patched =>
    intro n g hg
    simp only [storePatched, register_grants] at hg
    exact hclear n g hg
  | promoted =>
    intro n g hg
    rw [register_grants] at hg
    exact hclear n g hg
  | regranted n g kd accessVector hrequest hkey hg =>
    intro m g' hg'
    rcases HashMap.lookup_insert_eq_some.1 hg' with ⟨-, rfl⟩ | ⟨-, hg'⟩
    · exact hc n g hg
    · exact hc m g' hg'
  | granted n k kd granteeUid accessVector hrequest hkey =>
    intro m g' hg'
    rcases HashMap.lookup_insert_eq_some.1 hg' with ⟨-, rfl⟩ | ⟨-, hg'⟩
    · obtain ⟨desc, -, hkey⟩ := Option.bind_eq_some_iff.1 hkey
      exact resolveKey_uid hkey
    · exact hc m g' hg'
  | ungranted =>
    intro n g hg
    exact hc n g (HashMap.lookup_removeIf_eq_some.1 hg).1

theorem World.run_grantsOwned (P : Platform) (es : List Event) :
    (World.run P {} es).daemon.cache.GrantsOwned :=
  World.run_daemon P {} (I := fun d => d.cache.GrantsOwned)
    (fun _ _ h hs => Daemon.owners_step (I := fun c _ => c.GrantsOwned) h hs
      (fun n g hg => by cases hg) (fun hc hstep => hstep.grantsOwned hc) (fun hc => hc) (fun hc => hc))
    (fun n g hg => by cases hg) es

/-! ## What clearing a key of the caller leaves alone -/

namespace Daemon

variable {P : Platform} {env : Env} {uid : Int} {d d' d'' : Daemon} {a : String}

namespace OthersKept

theorem of_owners (hc : d'.cache = d.cache) (hp : d'.passthrough = d.passthrough) :
    d.OthersKept uid d' := by
  constructor <;> simp [hc, hp]

theorem trans (h : d.OthersKept uid d') (h' : d'.OthersKept uid d'') : d.OthersKept uid d'' where
  keys := fun k hk => (h'.keys k hk).trans (h.keys k hk)
  keyPairs := fun k hk => (h'.keyPairs k hk).trans (h.keyPairs k hk)
  skipLeafHacks := fun k hk => (h'.skipLeafHacks k hk).trans (h.skipLeafHacks k hk)
  patchedResponses := fun k hk => (h'.patchedResponses k hk).trans (h.patchedResponses k hk)
  usageRemaining := fun k hk => (h'.usageRemaining k hk).trans (h.usageRemaining k hk)
  keysByNspace := fun n k hk => (h'.keysByNspace n k hk).trans (h.keysByNspace n k hk)
  grants := fun n g hg => (h'.grants n g hg).trans (h.grants n g hg)
  tracked := fun k hk => (h'.tracked k hk).trans (h.tracked k hk)
  byNspace := fun n k hk => (h'.byNspace n k hk).trans (h.byNspace n k hk)

end OthersKept

/-- Clearing a key of the caller that is not forged leaves the others alone. -/
theorem othersKept_clear (howned : d.cache.GrantsOwned) (hforged : d.cache.keys.lookup ⟨uid, a⟩ = none)
    (hc : d'.cache = d.cache.clear ⟨uid, a⟩)
    (hp : d'.passthrough = d.passthrough ∨ d'.passthrough = d.passthrough.remove ⟨uid, a⟩) :
    d.OthersKept uid d' := by
  have hne {k : Key} (hk : k.uid ≠ uid) : k ≠ ⟨uid, a⟩ := by
    rintro rfl
    exact hk rfl
  constructor
  · intro k hk
    rw [hc, clear_keys, HashMap.lookup_erase_ite, if_neg (hne hk)]
  · intro k hk
    rw [hc, clear_keyPairs, HashMap.lookup_erase_ite, if_neg (hne hk)]
  · intro k hk
    rw [hc, clear_skipLeafHacks, HashMap.lookup_erase_ite, if_neg (hne hk)]
  · intro k hk
    rw [hc, clear_patchedResponses, HashMap.lookup_erase_ite, if_neg (hne hk)]
  · intro k hk
    rw [hc, clear_usageRemaining, HashMap.lookup_erase_ite, if_neg (hne hk)]
  · intro n k hk
    rw [hc, clear_keysByNspace_eq_some]
    refine ⟨fun h => h.1, fun h => ⟨h, hne hk, fun i hi => ?_⟩⟩
    rw [hforged] at hi
    cases hi
  · intro n g hg
    rw [hc, clear_grants, HashMap.lookup_removeIf_eq_some, decide_eq_false_iff_not]
    refine ⟨fun h => h.1, fun h => ⟨h, hne ?_⟩⟩
    rw [howned n g h]
    exact hg
  · intro k hk
    rcases hp with hp | hp <;> rw [hp]
    rw [PassthroughKeyRegistry.isTracked, PassthroughKeyRegistry.remove, HashMap.containsKey_erase,
      if_neg (hne hk)]
    rfl
  · intro n k hk
    rcases hp with hp | hp <;> rw [hp]
    rw [PassthroughKeyRegistry.remove, HashMap.lookup_removeIf_eq_some, decide_eq_false_iff_not]
    exact ⟨fun h => h.1, fun h => ⟨h, hne hk⟩⟩

theorem othersKept_removeGrants (howned : d.cache.GrantsOwned) {k : Key} (hk : k.uid = uid)
    (granteeUid : Int) : d.OthersKept uid (d.removeGrants k granteeUid) := by
  refine ⟨fun _ _ => rfl, fun _ _ => rfl, fun _ _ => rfl, fun _ _ => rfl, fun _ _ => rfl,
    fun _ _ _ => Iff.rfl, fun n g hg => ?_, fun _ _ => rfl, fun _ _ _ => Iff.rfl⟩
  rw [removeGrants, HashMap.lookup_removeIf_eq_some]
  refine ⟨fun h => h.1, fun h => ⟨h, ?_⟩⟩
  have hne : g.key ≠ k := by
    rintro rfl
    exact hg ((howned n g h).symm.trans hk)
  simp [hne]

end Daemon

/-! ## The pre-hooks -/

namespace PkgConfig

variable {c : PkgConfig} {pm : PackageManager} {uid : Int}

theorem Unlisted.found (h : c.Unlisted pm uid) (hcached : c.CachedUnlisted uid) : c.FoundUnlisted pm uid := by
  intro ps hps
  rcases Option.or_eq_some_iff.1 hps with hps | ⟨-, hps⟩
  · exact hcached ps hps
  · exact h ps hps

theorem checkNeed_of_unlisted (h : c.FoundUnlisted pm uid) (targetMode : Mode) (autoPredicate : Bool) :
    c.checkNeed pm uid targetMode autoPredicate = false := by
  unfold checkNeed
  cases hps : c.packages pm uid with
  | none => rfl
  | some ps =>
    refine List.any_eq_false.2 fun pkg hpkg => ?_
    simp [h ps hps pkg hpkg]

theorem needHack_of_unlisted (h : c.FoundUnlisted pm uid) : c.needHack pm uid = false :=
  checkNeed_of_unlisted h ..

theorem needGenerate_of_unlisted (h : c.FoundUnlisted pm uid) : c.needGenerate pm uid = false :=
  checkNeed_of_unlisted h ..

theorem getOrPut_packages : (c.getOrPut pm uid).packages pm uid = c.packages pm uid := by
  unfold packages
  rw [getOrPut_lookup, if_pos rfl]
  unfold packages
  cases c.uidPackages.lookup uid <;> cases pm.getPackagesForUid uid <;> rfl

theorem FoundUnlisted.getOrPut (h : c.FoundUnlisted pm uid) : (c.getOrPut pm uid).FoundUnlisted pm uid := by
  intro ps hps
  rw [getOrPut_packages] at hps
  rw [getOrPut_packageModes]
  exact h ps hps

end PkgConfig

namespace Daemon

variable {P : Platform} {x : Exchange} {d : Daemon} {desc : KeyDescriptor}

/-- Without a grant, a descriptor means keys of the caller only. -/
theorem resolveOwnerKeys_own {c : CertificateAliasCache} {uid : Int} {k : Key}
    (hgrants : ∀ n g, c.grants.lookup n = some g → g.granteeUid ≠ uid)
    (h : k ∈ c.resolveOwnerKeys uid desc) : k.uid = uid := by
  rcases mem_resolveOwnerKeys.1 h with ⟨-, hown | hgranted⟩ | ⟨a, -, rfl⟩
  · exact (ownKey_eq_some.1 hown).2
  · obtain ⟨g, hg, hgrantee, -⟩ := grantedKey_eq_some.1 hgranted
    exact absurd hgrantee (hgrants _ g hg)
  · rfl

namespace Uninvolved

variable {pm : PackageManager} {uid : Int}

theorem findGeneratedOwner (h : d.Uninvolved pm uid) :
    d.cache.findGeneratedOwner uid desc = none := by
  refine List.findSome?_eq_none_iff.2 fun k hk => ?_
  rw [h.keys k (resolveOwnerKeys_own h.grants hk)]
  rfl

theorem resolvePatchedOwner (h : d.Uninvolved pm uid) :
    d.cache.resolvePatchedOwner uid desc = none := by
  refine List.findSome?_eq_none_iff.2 fun k hk => ?_
  rw [h.patchedResponses k (resolveOwnerKeys_own h.grants hk)]
  rfl

theorem cachedOwner (h : d.Uninvolved pm uid) : d.cachedOwner uid desc = none := by
  rw [Daemon.cachedOwner, h.findGeneratedOwner, h.resolvePatchedOwner]
  rfl

theorem grantFor (h : d.Uninvolved pm uid) {n : Int} : d.grantFor uid n = none := by
  rw [Option.eq_none_iff_forall_ne_some]
  intro g hg
  obtain ⟨-, hlookup, hgrantee⟩ := grantFor_eq_some hg
  exact h.grants n g hlookup hgrantee

theorem not_isPatchedKey (h : d.Uninvolved pm uid) {k : Key} (hk : k.uid = uid) :
    d.cache.isPatchedKey k = false := by
  simp [isPatchedKey, h.keys k hk, h.patchedResponses k hk]

end Uninvolved

theorem checkGenerateKey_of_not_refused {level : SecurityLevel} {kd ak : Option KeyDescriptor}
    {params : Option (List KeyParameter)} {d₁ : Daemon} {r : Result}
    (hrequest : x.request = .generateKey level kd ak params) (hrefused : x.refused P d = false)
    (h : d.checkGenerateKey P x.preEnv x.uid kd ak params = (d₁, .error r)) : r = .Skip := by
  unfold checkGenerateKey at h
  split at h
  · next descriptor params =>
    simp only [Exchange.refused, hrequest, Bool.or_eq_false_iff] at hrefused
    obtain ⟨hchallenge, hrest⟩ := hrefused
    simp only [hchallenge, Bool.false_eq_true, if_false] at h
    split at h
    · cases h
      rfl
    · next keyAlias halias =>
      simp only [halias, Option.isSome_some, Bool.true_and, Bool.or_eq_false_iff] at hrest
      obtain ⟨hdate, hdevice⟩ := hrest
      simp only [hdate, Bool.false_eq_true, if_false] at h
      split_ifs at h with hid hpermission
      · cases h
      · simp only [hid, Bool.true_and, Bool.not_eq_false'] at hdevice
        exact absurd hdevice hpermission
      · cases h
  · cases h
    rfl

/-- A `generateKey` of a caller without listed package is refused by the checks or left alone. -/
theorem preGenerateKey_of_unlisted {env : Env} {uid : Int} (P : Platform) (level : SecurityLevel)
    (kd ak : Option KeyDescriptor) (params : Option (List KeyParameter))
    (h : d.config.FoundUnlisted env.packageManager uid) :
    ((d.preGenerateKey P env level uid kd ak params).2 = .Skip ∨ ∃ d₁,
        d.checkGenerateKey P env uid kd ak params =
          (d₁, .error (d.preGenerateKey P env level uid kd ak params).2)) ∧
      (d.preGenerateKey P env level uid kd ak params).1.cache = d.cache ∧
      (d.preGenerateKey P env level uid kd ak params).1.passthrough = d.passthrough ∧
      (d.preGenerateKey P env level uid kd ak params).1.persistence = d.persistence := by
  have hroute {d₁ : Daemon} (r : KeygenRequest) (h : d₁.config.FoundUnlisted env.packageManager uid) :
      d₁.routeGenerateKey P env level uid r = (d₁.checked env uid, .Skip) := by
    have hselected : d₁.selectedRoute env uid r = none := by
      simp [selectedRoute, needGenerate, needHack, PkgConfig.needGenerate_of_unlisted h,
        PkgConfig.needHack_of_unlisted h, GenerateKeyRoute.computeForceForge]
    simp only [routeGenerateKey, hselected]
  have hfst := checkGenerateKey_fst P env uid d kd ak params
  unfold preGenerateKey
  split
  · next d₁ r hcheck =>
    rw [hcheck] at hfst
    refine ⟨.inr ⟨d₁, hcheck⟩, ?_⟩
    rcases hfst with rfl | rfl <;> exact ⟨rfl, rfl, rfl⟩
  · next d₁ r hcheck =>
    rw [hcheck] at hfst
    rcases hfst with rfl | rfl
    · rw [hroute r h]
      exact ⟨.inl rfl, rfl, rfl, rfl⟩
    · rw [hroute r h.getOrPut]
      exact ⟨.inl rfl, rfl, rfl, rfl⟩

namespace Uninvolved

variable {env : Env} {uid : Int} {kd : Option KeyDescriptor}

theorem not_forged (h : d.Uninvolved env.packageManager uid) {k : Key} (hk : k.uid = uid) :
    d.cache.keys.containsKey k = false :=
  HashMap.containsKey_eq_false.2 (h.keys k hk)

theorem resolveKey_uid {k : Key} (hk : kd.bind (d.cache.resolveKey uid) = some k) : k.uid = uid := by
  obtain ⟨desc, -, hk⟩ := Option.bind_eq_some_iff.1 hk
  exact CertificateAliasCache.resolveKey_uid hk

theorem preCreateOperation (h : d.Uninvolved env.packageManager uid)
    (opParams : List KeyParameter) (force : Bool) :
    d.preCreateOperation P env uid kd opParams force = (d, .Skip) := by
  unfold Daemon.preCreateOperation
  cases kd with
  | none => rfl
  | some desc => simp only [h.findGeneratedOwner]

theorem preDeleteKey (h : d.Uninvolved env.packageManager uid) (kd : Option KeyDescriptor) :
    d.preDeleteKey uid kd = (d, .Continue) ∨
      ∃ a, d.preDeleteKey uid kd = (d.cleanupKey ⟨uid, a⟩, .Continue) := by
  unfold Daemon.preDeleteKey
  cases kd.bind KeyDescriptor.keyAlias with
  | none => exact .inl rfl
  | some a =>
    simp only [h.not_forged (k := ⟨uid, a⟩) rfl, Bool.false_and, Bool.false_eq_true, if_false]
    exact .inr ⟨a, rfl⟩

theorem preUpdateSubcomponent (h : d.Uninvolved env.packageManager uid) (kd : Option KeyDescriptor)
    (cert chain : Option Bytes) :
    d.preUpdateSubcomponent uid kd cert chain = (d, .Continue) ∨
      ∃ a, d.preUpdateSubcomponent uid kd cert chain =
        (d.invalidateCertificateResponseState ⟨uid, a⟩ false, .Continue) := by
  unfold Daemon.preUpdateSubcomponent
  cases kd with
  | none => exact .inl rfl
  | some desc =>
    simp only [updateTarget, h.grantFor]
    cases hk : d.cache.resolveKey uid desc with
    | none => exact .inl rfl
    | some k =>
      simp only [h.not_forged (CertificateAliasCache.resolveKey_uid hk), Bool.false_eq_true, if_false]
      exact .inr ⟨k.keyAlias, rfl⟩

theorem preGrant (h : d.Uninvolved env.packageManager uid) (granteeUid : Int)
    (accessVector : BitVec 32) : d.preGrant env uid kd granteeUid accessVector = (d, .Skip) := by
  unfold Daemon.preGrant
  split_ifs
  · split
    · rfl
    · next k hk =>
      simp only [h.not_forged (resolveKey_uid hk), h.not_isPatchedKey (resolveKey_uid hk),
        Bool.false_eq_true, if_false]
  · rfl

theorem preUngrant (h : d.Uninvolved env.packageManager uid) (kd : Option KeyDescriptor)
    (granteeUid : Int) :
    d.preUngrant uid kd granteeUid = (d, .Skip) ∨
      ∃ k, k.uid = uid ∧ d.preUngrant uid kd granteeUid = (d.removeGrants k granteeUid, .Skip) := by
  unfold Daemon.preUngrant
  cases hk : kd.bind (d.cache.resolveKey uid) with
  | none => exact .inl rfl
  | some k =>
    simp only [h.not_forged (resolveKey_uid hk), Bool.false_eq_true, if_false]
    exact .inr ⟨k, resolveKey_uid hk, rfl⟩

theorem preGetKeyEntry (h : d.Uninvolved env.packageManager uid) (hcached : d.config.CachedUnlisted uid)
    (kd : Option KeyDescriptor) : d.preGetKeyEntry env uid kd = (d, .Skip) ∨
      d.preGetKeyEntry env uid kd = (d.checked env uid, .Skip) := by
  have hmode (desc : KeyDescriptor) :
      d.preGetKeyEntryByMode env uid desc = (d.checked env uid, .Skip) := by
    have hnone : (d.checked env uid).cachedOwner uid desc = none := h.cachedOwner
    have hfound := h.unlisted.found hcached
    have hgenerate : d.needGenerate env uid = false := PkgConfig.needGenerate_of_unlisted hfound
    have hhack : (d.checked env uid).needHack env uid = false :=
      (PkgConfig.checked_needHack uid).trans (PkgConfig.needHack_of_unlisted hfound)
    simp only [preGetKeyEntryByMode, hgenerate, hhack, hnone, Bool.false_eq_true, if_false]
    rfl
  unfold Daemon.preGetKeyEntry
  split
  · cases kd with
    | none => exact .inl rfl
    | some desc =>
      simp only [h.grantFor]
      exact .inr (hmode desc)
  · exact .inl rfl

/-- In no mode is there anything to serve or to clear. -/
theorem preGetKeyEntry_cases (h : d.Uninvolved env.packageManager uid) (kd : Option KeyDescriptor) :
    d.preGetKeyEntry env uid kd = (d, .Skip) ∨ ∃ r, d.preGetKeyEntry env uid kd = (d.checked env uid, r) ∧
      (r = .Skip ∨ r = .Continue) := by
  have hmode (desc : KeyDescriptor) : ∃ r, d.preGetKeyEntryByMode env uid desc = (d.checked env uid, r) ∧
      (r = .Skip ∨ r = .Continue) := by
    have hforged : (d.checked env uid).cache.findGeneratedOwner uid desc = none := h.findGeneratedOwner
    have hpatched : (d.checked env uid).cache.resolvePatchedOwner uid desc = none := h.resolvePatchedOwner
    have hnone : (d.checked env uid).cachedOwner uid desc = none := h.cachedOwner
    have hreject : (d.checked env uid).rejectHistoricalOwners uid desc = d.checked env uid := by
      unfold rejectHistoricalOwners
      simp only [findGeneratedKey, resolvePatchedResponse, hforged, hpatched]
      cases desc.keyAlias <;> rfl
    simp only [preGetKeyEntryByMode, hnone, hforged, hpatched, hreject, serveCached, Option.map_none]
    split_ifs <;> simp
  unfold Daemon.preGetKeyEntry
  split
  · cases kd with
    | none => exact .inl rfl
    | some desc =>
      simp only [h.grantFor]
      exact .inr (hmode desc)
  · exact .inl rfl

end Uninvolved

/-- An entry behind a single header is not signed again. -/
theorem postGetKeyEntry_of_unowned (P : Platform) (env : Env) {uid : Int} {kd : Option KeyDescriptor} {reply : Parcel}
    (hforged : ∀ desc, d.cache.findGeneratedOwner uid desc = none)
    (hpatched : ∀ k, k.uid = uid → d.cache.patchedResponses.lookup k = none)
    (hheader : reply.readException.bind Parcel.readException = none) :
    d.postGetKeyEntry env uid P kd reply = (d, .Skip) ∨
      d.postGetKeyEntry env uid P kd reply = (d.checked env uid, .Skip) := by
  have hnone : (d.checked env uid).ownedResponse uid kd = none := by
    refine Option.or_eq_none_iff.2 ⟨Option.bind_eq_none_iff.2 fun k hk => ?_, ?_⟩
    · exact Option.map_eq_none_iff.2 (hpatched k (Uninvolved.resolveKey_uid hk))
    · exact Option.map_eq_none_iff.2 (Option.bind_eq_none_iff.2 fun desc _ => hforged desc)
  unfold postGetKeyEntry
  cases hbody : reply.readException with
  | none => exact .inl rfl
  | some body =>
    rw [hbody, Option.bind_some] at hheader
    refine .inr ?_
    dsimp only
    split
    · rfl
    · rw [hnone]
      rfl
    · rw [patchLeaf, hheader]
      rfl

/-- Clearing an alias keeps the keys of the caller out of `keys`. -/
theorem lookup_clear_eq_none {c : CertificateAliasCache} {k k' : Key} (h : c.keys.lookup k = none) :
    (c.clear k').keys.lookup k = none := by
  rw [clear_keys, HashMap.lookup_erase_ite, h, ite_self]

theorem mem_aliasesToAdd {uid : Int} {startPastAlias : Option String} {existing : List String}
    {a : String} : a ∈ d.aliasesToAdd uid startPastAlias existing ↔
      (d.cache.keys.containsKey ⟨uid, a⟩ = true ∧ (startPastAlias.any fun s => stringLe a s) = false) ∧
        a ∉ existing := by
  simp only [aliasesToAdd, List.mem_filter, List.mem_map, decide_eq_true_eq,
    HashMap.containsKey_eq_true, Bool.and_eq_true, Bool.not_eq_true', List.contains_eq_mem,
    decide_eq_false_iff_not, ← and_assoc]
  refine and_congr_left fun _ => and_congr_left fun _ => ?_
  constructor
  · rintro ⟨k', ⟨⟨e, he, rfl⟩, huid⟩, rfl⟩
    exact ⟨e.2, HashMap.lookup_eq_some_iff.2 (huid ▸ he)⟩
  · rintro ⟨v, hv⟩
    exact ⟨⟨uid, a⟩, ⟨⟨_, HashMap.lookup_eq_some_iff.1 hv, rfl⟩, rfl⟩, rfl⟩

/-- A caller without forged keys gets its listing as it is. -/
theorem mergeListEntries_of_unforged {uid domain : Int} {startPastAlias : Option String} {resultCode : Int}
    {p : Parcel} (hforged : ∀ a, d.cache.keys.lookup ⟨uid, a⟩ = none) :
    d.mergeListEntries uid domain startPastAlias resultCode p = .Skip := by
  have hnone (existing : List String) : d.aliasesToAdd uid startPastAlias existing = [] := by
    refine List.eq_nil_iff_forall_not_mem.2 fun a ha => ?_
    obtain ⟨i, hi⟩ := HashMap.containsKey_eq_true.1 (mem_aliasesToAdd.1 ha).1.1
    rw [hforged] at hi
    cases hi
  unfold mergeListEntries
  split_ifs
  · rfl
  · cases p.readException.bind readDescriptors with
    | none => rfl
    | some existing =>
      dsimp only
      rw [hnone]
      rfl

/-- The post-hooks of the four requests clear at most an alias of the caller, and leave the reply alone. -/
theorem post_of_unforged {uid : Int} {request : Request} (P : Platform) (env : Env)
    (resultCode : Int) (reply : Option Parcel) (howned : d.cache.GrantsOwned)
    (hforged : ∀ a, d.cache.keys.lookup ⟨uid, a⟩ = none) (hrequest : request.keepsReply = true) :
    (d.post P env uid request resultCode reply).2 = .Skip ∧
      d.OthersKept uid (d.post P env uid request resultCode reply).1 := by
  cases request with
  | deleteKey kd =>
    cases reply with
    | none => exact ⟨rfl, .of_owners rfl rfl⟩
    | some p =>
      simp only [Daemon.post, onPostTransact, postDeleteKey]
      cases kd.bind KeyDescriptor.keyAlias with
      | none => exact ⟨rfl, .of_owners rfl rfl⟩
      | some a =>
        dsimp only
        split_ifs
        · exact ⟨rfl, othersKept_clear howned (hforged a) rfl (.inr rfl)⟩
        · exact ⟨rfl, .of_owners rfl rfl⟩
  | updateSubcomponent kd cert chain =>
    cases reply with
    | none => exact ⟨rfl, .of_owners rfl rfl⟩
    | some p =>
      cases kd with
      | none => exact ⟨rfl, .of_owners rfl rfl⟩
      | some desc =>
        simp only [Daemon.post, onPostTransact, postUpdateSubcomponent]
        split
        · next a _ =>
          dsimp only
          split_ifs
          · exact ⟨rfl, othersKept_clear howned (hforged a) rfl (.inr rfl)⟩
          · exact ⟨rfl, .of_owners rfl rfl⟩
        · exact ⟨rfl, .of_owners rfl rfl⟩
  | importKey level kd =>
    simp only [Daemon.post, onPostTransact, postImportKey]
    split
    · next a _ _ => exact ⟨rfl, othersKept_clear howned (hforged a) rfl (.inr rfl)⟩
    · exact ⟨rfl, .of_owners rfl rfl⟩
  | listEntries domain startPastAlias =>
    cases reply with
    | none => exact ⟨rfl, .of_owners rfl rfl⟩
    | some p =>
      simp only [Daemon.post, onPostTransact, postListEntries, mergeListEntries_of_unforged hforged, ite_self]
      split_ifs
      · exact ⟨rfl, .of_owners rfl rfl⟩
      · exact ⟨rfl, .of_owners rfl rfl⟩
  | _ => cases hrequest

/-- The outcome of a pre-hook for an uninvolved caller: the state it leaves, and whether the post-hook
will run. -/
theorem pre_of_uninvolved (howned : d.cache.GrantsOwned)
    (h : d.Uninvolved x.preEnv.packageManager x.uid) (hrefused : x.refused P d = false)
    (hcached : x.goesByMode = true → d.config.CachedUnlisted x.uid)
    (hentry : ∀ kd, x.request = .getKeyEntry kd → x.goesByMode = true) :
    d.OthersKept x.uid (x.preHook P d).1 ∧
      (∀ a, (x.preHook P d).1.cache.keys.lookup ⟨x.uid, a⟩ = none) ∧
      ((x.preHook P d).2 = .Skip ∨ (x.preHook P d).2 = .Continue ∧ x.request.keepsReply = true) := by
  have hforged (a : String) : d.cache.keys.lookup ⟨x.uid, a⟩ = none := h.keys _ rfl
  cases hrequest : x.request with
  | generateKey level kd ak params =>
    have hfound := h.unlisted.found (hcached (by rw [Exchange.goesByMode, hrequest]))
    obtain ⟨hresult, hcache, hpassthrough, -⟩ := preGenerateKey_of_unlisted P level kd ak params hfound
    have hskip : (d.preGenerateKey P x.preEnv level x.uid kd ak params).2 = .Skip := by
      rcases hresult with hskip | ⟨d₁, hcheck⟩
      · exact hskip
      · exact checkGenerateKey_of_not_refused hrequest hrefused hcheck
    simp only [Exchange.preHook, Daemon.pre, hrequest, onPreTransact]
    exact ⟨.of_owners hcache hpassthrough, by rw [tick, hcache]; exact hforged, .inl hskip⟩
  | importKey level kd =>
    simp only [Exchange.preHook, Daemon.pre, hrequest, onPreTransact, preImportKey]
    refine ⟨.of_owners rfl rfl, hforged, ?_⟩
    split_ifs
    · exact .inr ⟨rfl, rfl⟩
    · exact .inl rfl
  | createOperation level kd opParams force =>
    simp only [Exchange.preHook, Daemon.pre, hrequest, onPreTransact, h.preCreateOperation]
    exact ⟨.of_owners rfl rfl, hforged, .inl trivial⟩
  | deleteKey kd =>
    simp only [Exchange.preHook, Daemon.pre, hrequest, onPreTransact]
    rcases h.preDeleteKey kd with hpre | ⟨a, hpre⟩ <;> rw [hpre]
    · exact ⟨.of_owners rfl rfl, hforged, .inr ⟨rfl, rfl⟩⟩
    · exact ⟨othersKept_clear howned (hforged a) rfl (.inr rfl),
        fun b => lookup_clear_eq_none (hforged b), .inr ⟨rfl, rfl⟩⟩
  | updateSubcomponent kd cert chain =>
    simp only [Exchange.preHook, Daemon.pre, hrequest, onPreTransact]
    rcases h.preUpdateSubcomponent kd cert chain with hpre | ⟨a, hpre⟩ <;> rw [hpre]
    · exact ⟨.of_owners rfl rfl, hforged, .inr ⟨rfl, rfl⟩⟩
    · exact ⟨othersKept_clear howned (hforged a) rfl (.inl rfl),
        fun b => lookup_clear_eq_none (hforged b), .inr ⟨rfl, rfl⟩⟩
  | grant kd granteeUid accessVector =>
    simp only [Exchange.preHook, Daemon.pre, hrequest, onPreTransact, h.preGrant]
    exact ⟨.of_owners rfl rfl, hforged, .inl trivial⟩
  | ungrant kd granteeUid =>
    simp only [Exchange.preHook, Daemon.pre, hrequest, onPreTransact]
    rcases h.preUngrant kd granteeUid with hpre | ⟨k, hk, hpre⟩ <;> rw [hpre]
    · exact ⟨.of_owners rfl rfl, hforged, .inl rfl⟩
    · exact ⟨(othersKept_removeGrants howned hk granteeUid).trans (.of_owners rfl rfl), hforged,
        .inl rfl⟩
  | getKeyEntry kd =>
    simp only [Exchange.preHook, Daemon.pre, hrequest, onPreTransact]
    rcases h.preGetKeyEntry (hcached (hentry kd hrequest)) kd with hpre | hpre <;> rw [hpre] <;>
      exact ⟨.of_owners rfl rfl, hforged, .inl rfl⟩
  | listEntries domain startPastAlias =>
    simp only [Exchange.preHook, Daemon.pre, hrequest, onPreTransact, preListEntries]
    split_ifs
    · exact ⟨.of_owners rfl rfl, hforged, .inr ⟨rfl, rfl⟩⟩
    · exact ⟨.of_owners rfl rfl, hforged, .inl rfl⟩
    · exact ⟨.of_owners rfl rfl, hforged, .inl rfl⟩

/-- Whatever packages the daemon has for the caller, it gets its own entries. -/
theorem Uninvolved.getKeyEntry {kd : Option KeyDescriptor} (h : d.Uninvolved x.preEnv.packageManager x.uid)
    (hrequest : x.request = .getKeyEntry kd) (hmode : x.goesByMode = false) : x.SeesRealKeystore P d := by
  have hheader : (x.reply.bind Parcel.readException).bind Parcel.readException = none := by
    simpa only [Exchange.goesByMode, hrequest, Option.isSome_eq_false_iff, Option.isNone_iff_eq_none] using hmode
  have hpost {d₁ : Daemon} (hcache : d₁.cache = d.cache) : (x.postHook P d₁).2 = .Skip ∧
      (x.postHook P d₁).1.cache = d₁.cache ∧ (x.postHook P d₁).1.passthrough = d₁.passthrough := by
    simp only [Exchange.postHook, Daemon.post, hrequest, onPostTransact]
    cases hreply : x.reply with
    | none => exact ⟨rfl, rfl, rfl⟩
    | some reply =>
      rw [hreply, Option.bind_some] at hheader
      dsimp only
      have hforged (desc : KeyDescriptor) : d₁.cache.findGeneratedOwner x.uid desc = none := by
        rw [hcache]
        exact h.findGeneratedOwner
      have hpatched : ∀ k, k.uid = x.uid → d₁.cache.patchedResponses.lookup k = none := by
        rw [hcache]
        exact h.patchedResponses
      rcases postGetKeyEntry_of_unowned P x.postEnv hforged hpatched hheader with hpost | hpost
      · rw [hpost]
        exact ⟨rfl, rfl, rfl⟩
      · rw [hpost]
        exact ⟨rfl, rfl, rfl⟩
  have hpre : (x.preHook P d).1.cache = d.cache ∧ (x.preHook P d).1.passthrough = d.passthrough ∧
      ((x.preHook P d).2 = .Skip ∨ (x.preHook P d).2 = .Continue) := by
    simp only [Exchange.preHook, Daemon.pre, hrequest, onPreTransact]
    rcases h.preGetKeyEntry_cases kd with hpre | ⟨r, hpre, hr⟩
    · rw [hpre]
      exact ⟨rfl, rfl, .inl rfl⟩
    · rw [hpre]
      exact ⟨rfl, rfl, hr⟩
  obtain ⟨hcache, hpassthrough, hskip | hcont⟩ := hpre
  · refine ⟨Exchange.isForwarded_eq_true.2 (.inl hskip), ?_⟩
    rw [Daemon.serve_of_skip hskip]
    exact ⟨rfl, .of_owners hcache hpassthrough⟩
  · obtain ⟨hkept, hcache', hpassthrough'⟩ := hpost hcache
    refine ⟨Exchange.isForwarded_eq_true.2 (.inr hcont), Daemon.serve_of_kept hcont hkept, ?_⟩
    rw [Daemon.serve_of_continue hcont]
    exact .of_owners (hcache'.trans hcache) (hpassthrough'.trans hpassthrough)

end Daemon

/-- Whatever an uninvolved caller asks for is forwarded, its reply is the real keystore's, and nothing
of another uid changes, unless the request goes by the mode of packages that the uid no longer has. -/
theorem transparent_to_uninvolved (P : Platform) (es : List Event) (x : Exchange)
    (h : (World.run P {} es).daemon.Uninvolved x.preEnv.packageManager x.uid)
    (hrefused : x.refused P (World.run P {} es).daemon = false)
    (hcached : x.goesByMode = true → (World.run P {} es).daemon.config.CachedUnlisted x.uid) :
    x.SeesRealKeystore P (World.run P {} es).daemon := by
  have howned : (World.run P {} es).daemon.cache.GrantsOwned := World.run_grantsOwned P es
  generalize (World.run P {} es).daemon = d at h hrefused hcached howned ⊢
  by_cases hentry : ∃ kd, x.request = .getKeyEntry kd ∧ x.goesByMode = false
  · obtain ⟨kd, hrequest, hmode⟩ := hentry
    exact h.getKeyEntry hrequest hmode
  have hentry' (kd : Option KeyDescriptor) (hrequest : x.request = .getKeyEntry kd) : x.goesByMode = true :=
    Bool.not_eq_false _ ▸ fun hmode => hentry ⟨kd, hrequest, hmode⟩
  obtain ⟨hkept, hforged, hskip | ⟨hcont, hrequest⟩⟩ :=
    Daemon.pre_of_uninvolved howned h hrefused hcached hentry'
  · refine ⟨Exchange.isForwarded_eq_true.2 (.inl hskip), ?_⟩
    rw [Daemon.serve_of_skip hskip]
    exact ⟨rfl, hkept⟩
  · have howned' : (x.preHook P d).1.cache.GrantsOwned :=
      (Daemon.pre_steps P x.preEnv x.request).grantsOwned howned
    obtain ⟨hpost, hkept'⟩ := Daemon.post_of_unforged P x.postEnv x.resultCode x.reply howned'
      hforged hrequest
    refine ⟨Exchange.isForwarded_eq_true.2 (.inr hcont), Daemon.serve_of_kept hcont hpost, ?_⟩
    rw [Daemon.serve_of_continue hcont]
    exact hkept.trans hkept'

namespace Demo

/-- A package manager that reports this package for every uid. -/
def reporting (package : String) : Env :=
  { env 7 with packageManager := ⟨fun _ => some [package], fun _ _ _ => false⟩ }

def forgedByOwner (m : Mode) : List Event := start .GENERATE m ++ [.arrive 1 owner (generate ecParams) (env 5)]

/-- Another uid has forged a key when a uid is resolved to this package. -/
def resolved (package : String) : List Event :=
  forgedByOwner .GENERATE ++ [.arrive 2 10003 (.listEntries 0 none) (reporting package)]

/-- The uid, which has an unlisted package only, generates a key. -/
def strangerGenerates : Exchange :=
  { uid := 10003, request := generate ecParams, preEnv := reporting "com.stranger"
    postEnv := reporting "com.stranger", reply := some (created 9 (some [10])) }

theorem uninvolved_stranger {d : Daemon} (hmodes : d.config.packageModes = modes .GENERATE .GENERATE)
    (hkeys : (d.cache.keys.entries.all fun e => decide (e.1.uid ≠ 10003)) = true)
    (hpatched : d.cache.patchedResponses = ∅) (hgrants : d.cache.grants = ∅) :
    d.Uninvolved (reporting "com.stranger").packageManager 10003 where
  unlisted ps hps pkg hpkg := by
    cases hps
    rw [List.mem_singleton.1 hpkg, hmodes]
    rfl
  keys k hk := by
    refine Option.eq_none_iff_forall_ne_some.2 fun i hi => ?_
    have hall := HashMap.of_entries_all (p := fun k _ => k.uid ≠ 10003) hkeys hi
    exact of_decide_eq_true hall hk
  patchedResponses k _ := by
    rw [hpatched]
    rfl
  grants n g hg := by
    rw [hgrants] at hg
    cases hg

end Demo

open Demo in
theorem transparent_to_stranger :
    strangerGenerates.SeesRealKeystore platform (World.run platform {} (resolved "com.stranger")).daemon := by
  refine transparent_to_uninvolved platform (resolved "com.stranger") strangerGenerates
    (uninvolved_stranger rfl (by decide) rfl rfl) (by decide) ?_
  intro _ ps hps pkg hpkg
  cases hps
  rw [List.mem_singleton.1 hpkg]
  rfl

open Demo in
/-- A uid that had a listed package when it was resolved gets a forged key. -/
theorem formerly_listed_gets_forged_key :
    ¬ ∀ (P : Platform) (es : List Event) (x : Exchange),
      (World.run P {} es).daemon.Uninvolved x.preEnv.packageManager x.uid →
      x.refused P (World.run P {} es).daemon = false → x.SeesRealKeystore P (World.run P {} es).daemon := by
  intro h
  have hforwarded := (h platform (resolved "com.other") strangerGenerates
    (uninvolved_stranger rfl (by decide) rfl rfl) (by decide)).1
  exact absurd hforwarded (by decide)

end TrickyStore
