import TrickyStore.Proof.DiskAgreement
import TrickyStore.Proof.UidHandlers
import TrickyStore.Proof.UsageLimit

/-!
# Files that are up to date

`storeGeneratedKey` writes the file of a forged key, and nothing ever writes it again: neither
`updateSubcomponent`, which replaces the certificates in the maps, nor `finish`, which charges the
counter.  A file is up to date as long as the certificates stay what they were and no use of a limited
key is spent.
-/

open Lib

namespace TrickyStore

open CertificateAliasCache

/-- A step in the life of keys: a request, or a call on a software operation. -/
inductive KeyStep where
  | exchange (x : Exchange)
  | operate (op : ℕ) (call : SoftwareOperationBinder.Call)

/-- One of the three requests that make keys, use them and change their certificates. -/
def Request.isLifecycle : Request → Bool
  | .generateKey .. | .createOperation .. | .updateSubcomponent .. => true
  | _ => false

def KeyStep.isLifecycle : KeyStep → Bool
  | .exchange x => x.request.isLifecycle
  | .operate .. => true

namespace Daemon

variable (P : Platform) (d : Daemon)

/-- The state after a step. -/
def keyStep (d : Daemon) : KeyStep → Daemon
  | .exchange x => (d.serve P x).1
  | .operate op call => d.operate op call

/-- The certificates of the request are those that the forged key has already. -/
def SameCertificates (uid : Int) (desc : KeyDescriptor) (publicCert certificateChain : Option Bytes) :
    Prop :=
  ∀ k info, d.updateTarget uid desc = some (some k) → d.cache.keys.lookup k = some info →
    publicCert = info.response.metadata.certificate ∧
      certificateChain = info.response.metadata.certificateChain

/-- The call is a `finish` that spends a use of the forged key `k`, which has a limit. -/
structure SpendsUse (op : SoftwareOperationBinder) (call : SoftwareOperationBinder.Call) (k : Key) :
    Prop where
  finish : ∃ input engine, call = .finish input engine ∧
    SoftwareOperationBinder.checkInput input = .ok ()
  active : op.active = true
  charged : op.usageKey = some k ∧ 0 < op.usageCountLimit
  left : 0 < (d.cache.usageRemaining.lookup k).getD op.usageCountLimit
  limited : ∃ info, d.cache.keys.lookup k = some info ∧ 0 < info.params.usageCountLimit

/-- The pre-hook of `generateKey` forges a key: it is routed there, and a pair and a chain can be made. -/
def Forges (env : Env) (level : SecurityLevel) (uid : Int) (kd ak : Option KeyDescriptor)
    (params : Option (List KeyParameter)) : Prop :=
  match d.checkGenerateKey P env uid kd ak params with
  | (_, .error _) => False
  | (d₁, .ok r) => d₁.selectedRoute env uid r = some .generate ∧
      ((d₁.checked env uid).generateKeyPair P env uid r.attestationKeyDescriptor r.kgp
        level.toInt).isSome = true

/-- The file of every forged key stays up to date. -/
def KeepsCurrent (d : Daemon) : KeyStep → Prop
  | .exchange x =>
    match x.request with
    | .generateKey level kd ak params => d.Forges P x.preEnv level x.uid kd ak params → x.AliasFits
    | .updateSubcomponent (some desc) cert chain => d.SameCertificates x.uid desc cert chain
    | _ => True
  | .operate i call => ∀ op k, d.operations[i]? = some op → ¬ d.SpendsUse op call k

/-- The key `k`, whose owner is in the generate mode, has the file `pk`, and its ids are that of the
file. -/
structure HasFile (k : Key) (pk : PersistedKey) : Prop where
  file : d.persistence.settled.lookup k = some pk
  level : ∃ level : SecurityLevel, pk.securityLevel = level.toInt
  owner : ∀ n, d.cache.keysByNspace.lookup n = some k → pk.nspace = n
  untracked : d.passthrough.isTracked k = false
  generating : d.config.isExplicitGenerate k.uid = true
  keyboxes : d.hasKeyboxes = true

/-- The file `pk` tells what the owner of the forged key `k` can observe. -/
structure CurrentFile (k : Key) (info : Info) (pk : PersistedKey) : Prop where
  hasFile : d.HasFile k pk
  metadata : pk.metadataBytes = some info.response.metadata
  limit : pk.params.usageCountLimit = info.params.usageCountLimit
  unused : 0 < info.params.usageCountLimit →
    d.cache.usageRemaining.lookup k = some info.params.usageCountLimit

/-- Every file stands under its key, which has an alias that fits into a file. -/
def AllFiled : Prop :=
  ∀ k pk, d.persistence.settled.lookup k = some pk →
    pk.key = k ∧ modifiedUtf8Length k.keyAlias ≤ 65535

/-- Every forged key has an up-to-date file. -/
structure UpToDate : Prop where
  files : ∀ k info, d.cache.keys.lookup k = some info → ∃ pk, d.CurrentFile k info pk
  filed : d.AllFiled
  ungranted : d.cache.Ungranted

end Daemon

/-! ## The mode of the owner -/

namespace PkgConfig

variable {c c' : PkgConfig} {pm : PackageManager} {tee : TeeState} {uid u : Int}

theorem isExplicitGenerate_eq_true : c.isExplicitGenerate uid = true ↔
    ∃ ps, c.uidPackages.lookup uid = some ps ∧ ∃ p ∈ ps, c.packageModes.lookup p = some .GENERATE := by
  unfold isExplicitGenerate hasTargetMode
  cases c.uidPackages.lookup uid with
  | none => simp
  | some ps => simp

/-- Resolving a uid keeps the modes of the uids that were resolved before. -/
theorem isExplicitGenerate_mono (hmodes : c'.packageModes = c.packageModes)
    (hlookup : ∀ v, c'.uidPackages.lookup v = if v = u then c.packages pm u
      else c.uidPackages.lookup v) (h : c.isExplicitGenerate uid = true) :
    c'.isExplicitGenerate uid = true := by
  obtain ⟨ps, hps, hmode⟩ := isExplicitGenerate_eq_true.1 h
  refine isExplicitGenerate_eq_true.2 ⟨ps, ?_, hmodes ▸ hmode⟩
  rw [hlookup]
  split_ifs with huid
  · rw [packages, ← huid, hps]
    rfl
  · exact hps

/-- In the generate mode a uid keeps it, whatever the package manager says. -/
theorem needGenerate_of_isExplicitGenerate (h : c.isExplicitGenerate uid = true) :
    c.needGenerate pm uid = true := by
  obtain ⟨ps, hps, p, hp, hmode⟩ := isExplicitGenerate_eq_true.1 h
  have hpackages : c.packages pm uid = some ps := by
    rw [packages, hps]
    rfl
  simp only [needGenerate, checkNeed, hpackages, List.any_eq_true]
  exact ⟨p, hp, by simp [hmode]⟩

/-- A uid for which keys are generated has the generate mode once it is resolved. -/
theorem isExplicitGenerate_checked (h : c.needGenerate pm uid = true) :
    (c.checked pm tee uid).isExplicitGenerate uid = true := by
  unfold needGenerate checkNeed at h
  cases hpackages : c.packages pm uid with
  | none =>
    rw [hpackages] at h
    cases h
  | some ps =>
    simp only [hpackages, TeeProbeClassifier.autoGenerateAllowed, List.any_eq_true] at h
    obtain ⟨p, hp, hmode⟩ := h
    refine isExplicitGenerate_eq_true.2 ⟨ps, ?_, p, hp, ?_⟩
    · rw [checked_lookup, if_pos rfl, hpackages]
    · rw [checked_packageModes]
      cases hm : c.packageModes.lookup p with
      | none => simp [hm] at hmode
      | some m => simpa [hm] using hmode

end PkgConfig

namespace Daemon

variable {P : Platform} {env : Env} {uid : Int} {level : SecurityLevel} {d d' d'' : Daemon} {k : Key}
  {a : String}

theorem needGenerate_of_generate {req : KeygenRequest}
    (h : d.selectedRoute env uid req = some .generate) : d.needGenerate env uid = true := by
  by_contra hne
  rw [Bool.not_eq_true] at hne
  unfold selectedRoute at h
  simp only [hne, GenerateKeyRoute.computeForceForge, GenerateKeyRoute.selectTopLevelRoute] at h
  split_ifs at h <;> simp_all

/-- A chain ends in a keybox. -/
theorem hasKeyboxes_of_generateKeyPair {ak : Option KeyDescriptor} {params : KeyGenParameters}
    {securityLevel : Int} {pair : KeyPair × List Certificate}
    (h : d.generateKeyPair P env uid ak params securityLevel = some pair) : d.hasKeyboxes = true := by
  by_contra hempty
  have hentries : d.keyboxes.entries = [] := by simpa [hasKeyboxes] using hempty
  have hlookup (n : String) : d.keyboxes.lookup n = none := by
    refine Option.eq_none_iff_forall_ne_some.2 fun keybox hkeybox => ?_
    have hmem := HashMap.lookup_eq_some_iff.1 hkeybox
    rw [hentries] at hmem
    cases hmem
  have hnone : d.getKeyboxForAlgorithm params.algorithm = none := by
    unfold getKeyboxForAlgorithm
    simp [hlookup, hentries]
  unfold Daemon.generateKeyPair at h
  simp [hnone] at h

/-! ## Changes of one key -/

/-- Of what concerns forged keys and their files, only that of `k` has changed. -/
structure ChangesOnly (k : Key) (d d' : Daemon) : Prop where
  keys : ∀ k', k' ≠ k → d'.cache.keys.lookup k' = d.cache.keys.lookup k'
  usageRemaining : ∀ k', k' ≠ k →
    d'.cache.usageRemaining.lookup k' = d.cache.usageRemaining.lookup k'
  owner : ∀ k', k' ≠ k → ∀ n, d'.cache.keysByNspace.lookup n = some k' →
    d.cache.keysByNspace.lookup n = some k'
  tracked : ∀ k', k' ≠ k → d'.passthrough.isTracked k' = d.passthrough.isTracked k'
  files : ∀ k', k' ≠ k → d'.persistence.settled.lookup k' = d.persistence.settled.lookup k'
  filed : ∀ pk, d'.persistence.settled.lookup k = some pk →
    (pk.key = k ∧ modifiedUtf8Length k.keyAlias ≤ 65535) ∨ d.persistence.settled.lookup k = some pk
  ungranted : d.cache.Ungranted → d'.cache.Ungranted
  generating : ∀ uid, d.config.isExplicitGenerate uid = true → d'.config.isExplicitGenerate uid = true
  keyboxes : d'.keyboxes = d.keyboxes

namespace ChangesOnly

theorem trans (h : ChangesOnly k d d') (h' : ChangesOnly k d' d'') : ChangesOnly k d d'' where
  keys := fun k' hk => (h'.keys k' hk).trans (h.keys k' hk)
  usageRemaining := fun k' hk => (h'.usageRemaining k' hk).trans (h.usageRemaining k' hk)
  owner := fun k' hk n hn => h.owner k' hk n (h'.owner k' hk n hn)
  tracked := fun k' hk => (h'.tracked k' hk).trans (h.tracked k' hk)
  files := fun k' hk => (h'.files k' hk).trans (h.files k' hk)
  filed := fun pk hpk => (h'.filed pk hpk).elim .inl (h.filed pk)
  ungranted := fun hg => h'.ungranted (h.ungranted hg)
  generating := fun uid hm => h'.generating uid (h.generating uid hm)
  keyboxes := h'.keyboxes.trans h.keyboxes

theorem clear (k : Key) (b : Bool) : ChangesOnly k d (d.clearSyntheticCertificateState k b) where
  keys := fun k' hk => AList.lookup_erase_ne hk
  usageRemaining := fun k' hk => AList.lookup_erase_ne hk
  owner := fun k' _ n hn => (clear_keysByNspace_eq_some.1 hn).1
  tracked := fun _ _ => rfl
  files := by
    intro k' hk
    cases b with
    | false => rfl
    | true =>
      show (d.persistence.deleteKey k).settled.lookup k' = _
      rw [PersistenceManager.settled_deleteKey, AList.lookup_erase_ne hk]
  filed := by
    intro pk hpk
    cases b with
    | false => exact .inr hpk
    | true =>
      change (d.persistence.deleteKey k).settled.lookup k = some pk at hpk
      rw [PersistenceManager.settled_deleteKey, AList.lookup_erase] at hpk
      cases hpk
  ungranted := by
    intro hg n
    show (d.cache.grants.removeIf fun _ g => g.key = k).lookup n = none
    rw [HashMap.lookup_removeIf, hg]
    rfl
  generating := fun _ hm => hm
  keyboxes := rfl

theorem relinquish (k : Key) : ChangesOnly k d (d.relinquishPassthroughOwnership k) where
  keys := fun _ _ => rfl
  usageRemaining := fun _ _ => rfl
  owner := fun _ _ _ hn => hn
  tracked := fun k' hk => by
    show HashMap.containsKey (d.passthrough.tracked.erase k) k' = _
    rw [HashMap.containsKey_erase, if_neg hk]
    rfl
  files := fun _ _ => rfl
  filed := fun _ hpk => .inr hpk
  ungranted := id
  generating := fun _ hm => hm
  keyboxes := rfl

theorem register (k : Key) (n : Option Int) :
    ChangesOnly k d { d with cache := d.cache.register k n } where
  keys := fun k' _ => by rw [register_keys]
  usageRemaining := fun k' _ => by rw [register_usageRemaining]
  owner := fun k' hk m hm => by
    rcases register_keysByNspace_eq_some.1 hm with ⟨-, -, rfl⟩ | ⟨-, hm⟩
    · exact absurd rfl hk
    · exact hm
  tracked := fun _ _ => rfl
  files := fun _ _ => rfl
  filed := fun _ hpk => .inr hpk
  ungranted := fun hg n => by
    show (d.cache.register k _).grants.lookup n = none
    rw [register_grants, hg]
  generating := fun _ hm => hm
  keyboxes := rfl

theorem promote (k : Key) (n : Option Int) :
    ChangesOnly k d { d with passthrough := d.passthrough.promote k n } where
  keys := fun _ _ => rfl
  usageRemaining := fun _ _ => rfl
  owner := fun _ _ _ hn => hn
  tracked := fun k' hk => by
    show HashMap.containsKey (d.passthrough.tracked.insert k ()) k' = _
    rw [HashMap.containsKey_insert, if_neg hk]
    rfl
  files := fun _ _ => rfl
  filed := fun _ hpk => .inr hpk
  ungranted := id
  generating := fun _ hm => hm
  keyboxes := rfl

theorem storePatched (k : Key) (r : KeyEntryResponse) :
    ChangesOnly k d { d with cache := d.cache.storePatched k r } := by
  have hinsert : ChangesOnly k d { d with cache := { d.cache with
      patchedResponses := d.cache.patchedResponses.insert k r } } :=
    ⟨fun _ _ => rfl, fun _ _ => rfl, fun _ _ _ hn => hn, fun _ _ => rfl, fun _ _ => rfl,
      fun _ hpk => .inr hpk, id, fun _ hm => hm, rfl⟩
  exact hinsert.trans (.register k r.nspace)

/-- A forged key and its file. -/
theorem store {info : Info} {pair : KeyPair} {chain : List Certificate} {n : Int} {skip : Bool}
    {pk : PersistedKey} (hkey : pk.key = k) (hfit : modifiedUtf8Length pk.keyAlias ≤ 65535) :
    ChangesOnly k d { d with
      cache := d.cache.storeGenerated k info pair chain n skip
      persistence := d.persistence.saveKey pk } where
  keys := fun k' hk => AList.lookup_insert_ne hk
  usageRemaining := fun k' hk => by
    simp only [storeGenerated]
    split_ifs
    · exact AList.lookup_insert_ne hk
    · rfl
  owner := fun k' hk m hm => by
    rcases HashMap.lookup_insert_eq_some.1 hm with ⟨-, rfl⟩ | ⟨-, hm⟩
    · exact absurd rfl hk
    · exact hm
  tracked := fun _ _ => rfl
  files := fun k' hk => by
    rw [PersistenceManager.settled_saveKey _ _ hfit, hkey]
    exact AList.lookup_insert_ne hk
  filed := fun pk' hpk' => by
    rw [PersistenceManager.settled_saveKey _ _ hfit, hkey, AList.lookup_insert] at hpk'
    obtain rfl := Option.some.inj hpk'
    refine .inl ⟨hkey, ?_⟩
    rw [← hkey]
    exact hfit
  ungranted := id
  generating := fun _ hm => hm
  keyboxes := rfl

end ChangesOnly

/-- The file of a key where nothing of it has changed but its entry and its counter. -/
theorem HasFile.congr {pk : PersistedKey} (h : d.HasFile k pk)
    (hids : d'.cache.keysByNspace = d.cache.keysByNspace) (hpassthrough : d'.passthrough = d.passthrough)
    (hpersistence : d'.persistence = d.persistence) (hkeyboxes : d'.keyboxes = d.keyboxes)
    (hmode : ∀ uid, d.config.isExplicitGenerate uid = true → d'.config.isExplicitGenerate uid = true) :
    d'.HasFile k pk where
  file := by
    rw [hpersistence]
    exact h.file
  level := h.level
  owner := by
    rw [hids]
    exact h.owner
  untracked := by
    rw [hpassthrough]
    exact h.untracked
  generating := hmode _ h.generating
  keyboxes := by
    rw [hasKeyboxes, hkeyboxes]
    exact h.keyboxes

namespace UpToDate

/-- A change of one key keeps the files up to date if it does so for that key. -/
theorem change (h : d.UpToDate) (hs : ChangesOnly k d d')
    (hk : ∀ info, d'.cache.keys.lookup k = some info → ∃ pk, d'.CurrentFile k info pk) :
    d'.UpToDate where
  files := by
    intro k' info hinfo
    by_cases hkk : k' = k
    · subst hkk
      exact hk info hinfo
    · rw [hs.keys k' hkk] at hinfo
      obtain ⟨pk, hpk⟩ := h.files k' info hinfo
      have hfile := hpk.hasFile
      refine ⟨pk, ⟨(hs.files k' hkk).trans hfile.file, hfile.level,
        fun n hn => hfile.owner n (hs.owner k' hkk n hn), (hs.tracked k' hkk).trans hfile.untracked,
        hs.generating _ hfile.generating, ?_⟩, hpk.metadata, hpk.limit,
        fun hlimit => (hs.usageRemaining k' hkk).trans (hpk.unused hlimit)⟩
      rw [hasKeyboxes, hs.keyboxes]
      exact hfile.keyboxes
  filed := by
    intro k' pk hpk
    by_cases hkk : k' = k
    · subst hkk
      rcases hs.filed pk hpk with hkey | hold
      · exact hkey
      · exact h.filed k' pk hold
    · rw [hs.files k' hkk] at hpk
      exact h.filed k' pk hpk
  ungranted := hs.ungranted h.ungranted

/-- A key that is forged no longer needs no file. -/
theorem dropped (h : d.UpToDate) (hs : ChangesOnly k d d') (hk : d'.cache.keys.lookup k = none) :
    d'.UpToDate := by
  refine h.change hs fun info hinfo => ?_
  rw [hk] at hinfo
  cases hinfo

/-- A change of nothing that the owners of forged keys observe. -/
theorem congr (h : d.UpToDate) (hkeys : ∀ k, d'.cache.keys.lookup k = d.cache.keys.lookup k)
    (husage : ∀ k info, d.cache.keys.lookup k = some info → 0 < info.params.usageCountLimit →
      d'.cache.usageRemaining.lookup k = d.cache.usageRemaining.lookup k)
    (hids : d'.cache.keysByNspace = d.cache.keysByNspace) (hgrants : d'.cache.grants = d.cache.grants)
    (hpassthrough : d'.passthrough = d.passthrough) (hpersistence : d'.persistence = d.persistence)
    (hkeyboxes : d'.keyboxes = d.keyboxes)
    (hmode : ∀ uid, d.config.isExplicitGenerate uid = true → d'.config.isExplicitGenerate uid = true) :
    d'.UpToDate where
  files := by
    intro k info hinfo
    rw [hkeys] at hinfo
    obtain ⟨pk, hpk⟩ := h.files k info hinfo
    refine ⟨pk, hpk.hasFile.congr hids hpassthrough hpersistence hkeyboxes hmode, hpk.metadata,
      hpk.limit, fun hlimit => ?_⟩
    rw [husage k info hinfo hlimit]
    exact hpk.unused hlimit
  filed := by
    intro k pk hpk
    rw [hpersistence] at hpk
    exact h.filed k pk hpk
  ungranted := by
    intro n
    rw [hgrants, h.ungranted]

theorem tick (h : d.UpToDate) : d.tick.UpToDate :=
  h.congr (fun _ => rfl) (fun _ _ _ _ => rfl) rfl rfl rfl rfl rfl fun _ hm => hm

theorem checked (h : d.UpToDate) : (d.checked env uid).UpToDate :=
  h.congr (fun _ => rfl) (fun _ _ _ _ => rfl) rfl rfl rfl rfl rfl fun _ hm =>
    PkgConfig.isExplicitGenerate_mono PkgConfig.checked_packageModes PkgConfig.checked_lookup hm

theorem resolved (h : d.UpToDate) : (d.resolved env uid).UpToDate :=
  h.congr (fun _ => rfl) (fun _ _ _ _ => rfl) rfl rfl rfl rfl rfl fun _ hm =>
    PkgConfig.isExplicitGenerate_mono PkgConfig.getOrPut_packageModes PkgConfig.getOrPut_lookup hm

theorem clear (h : d.UpToDate) (k : Key) (b : Bool) : (d.clearSyntheticCertificateState k b).UpToDate :=
  h.dropped (.clear k b) (AList.lookup_erase _ _)

/-! ## Requests -/

/-- The file of a new key is up to date. -/
theorem storeGeneratedKey {domain : Int} {kgp : KeyGenParameters} {pair : KeyPair}
    {chain : List Certificate} {skip : Bool} (h : d.UpToDate)
    (hmode : d.config.isExplicitGenerate uid = true) (hkeyboxes : d.hasKeyboxes = true)
    (hfit : modifiedUtf8Length a ≤ 65535) :
    (d.storeGeneratedKey P env level uid a domain kgp pair chain skip).1.UpToDate := by
  refine h.change (.trans (.relinquish ⟨uid, a⟩) (.trans (.clear ⟨uid, a⟩ false) (.store rfl hfit)))
    fun info hinfo => ?_
  obtain rfl := Option.some.inj ((AList.lookup_insert _).symm.trans hinfo)
  have hsettled : (d.storeGeneratedKey P env level uid a domain kgp pair chain
      skip).1.persistence.settled = _ := PersistenceManager.settled_saveKey _ _ hfit
  refine ⟨_, ⟨(congrArg (AList.lookup _) hsettled).trans (AList.lookup_insert _), ⟨level, rfl⟩,
    fun n hn => ?_, ?_, hmode, hkeyboxes⟩, rfl, rfl, fun hlimit => ?_⟩
  · rcases HashMap.lookup_insert_eq_some.1 hn with ⟨rfl, -⟩ | ⟨-, hn⟩
    · rfl
    · exact absurd rfl (clear_keysByNspace_eq_some.1 hn).2.1
  · show HashMap.containsKey (d.passthrough.tracked.erase _) _ = false
    rw [HashMap.containsKey_erase, if_pos rfl]
  · show (CertificateAliasCache.storeGenerated _ _ _ _ _ _ _).usageRemaining.lookup _ = _
    simp only [storeGenerated, if_pos hlimit]
    exact AList.lookup_insert _

theorem looksUp {d₁ : Daemon} (h : d.UpToDate) (hlook : LooksUp env uid d d₁) : d₁.UpToDate := by
  induction hlook with
  | refl => exact h
  | resolved _ ih => exact ih.resolved
  | checked _ ih => exact ih.checked

theorem preGenerateKey {kd ak : Option KeyDescriptor} {params : Option (List KeyParameter)}
    (h : d.UpToDate) (hfit : d.Forges P env level uid kd ak params →
      ∀ a, kd.bind KeyDescriptor.keyAlias = some a → modifiedUtf8Length a ≤ 65535) :
    (d.preGenerateKey P env level uid kd ak params).1.UpToDate := by
  have houtcome := preGenerateKey_outcome P env uid level d kd ak params
  unfold Forges at hfit
  generalize d.preGenerateKey P env level uid kd ak params = outcome at houtcome ⊢
  cases houtcome with
  | answered hlook => exact h.looksUp hlook
  | forged skip hlook hcheck hselected hpair =>
    rw [hcheck] at hfit
    exact (h.looksUp hlook.checked).storeGeneratedKey
      (PkgConfig.isExplicitGenerate_checked (needGenerate_of_generate hselected))
      (hasKeyboxes_of_generateKeyPair hpair)
      (hfit ⟨hselected, by rw [hpair]; rfl⟩ _ (checkGenerateKey_ok hcheck))
  | @forwarded d₁ a r hlook =>
    have h₁ : d₁.UpToDate := h.looksUp hlook
    cases r with
    | passthroughRealTee =>
      refine UpToDate.clear ?_ ⟨uid, a⟩ false
      exact h₁.congr (fun _ => rfl) (fun _ _ _ _ => rfl) rfl rfl rfl rfl rfl fun _ hm => hm
    | _ => exact h₁.congr (fun _ => rfl) (fun _ _ _ _ => rfl) rfl rfl rfl rfl rfl fun _ hm => hm

theorem promotePassthrough {m : Option KeyMetadata} (h : d.UpToDate) :
    (d.promotePassthrough uid a m).UpToDate := by
  refine h.dropped (.trans (.clear ⟨uid, a⟩ true) (.trans (.register ⟨uid, a⟩ _) (.promote ⟨uid, a⟩ _))) ?_
  show ((d.cache.clear ⟨uid, a⟩).register ⟨uid, a⟩ _).keys.lookup _ = none
  rw [register_keys]
  exact AList.lookup_erase _ _

theorem patchGenerateKeyReply {m : KeyMetadata} {chain : List Certificate} (h : d.UpToDate) :
    (d.patchGenerateKeyReply env level uid a m chain).1.UpToDate := by
  have hpatched : ∃ r, ((d.relinquishPassthroughOwnership ⟨uid, a⟩).clearSyntheticCertificateState
      ⟨uid, a⟩ false).cache.storePatched ⟨uid, a⟩ r =
        (d.patchGenerateKeyReply env level uid a m chain).1.cache := ⟨_, rfl⟩
  obtain ⟨r, hr⟩ := hpatched
  have hdropped := h.dropped (.trans (.relinquish ⟨uid, a⟩) (.trans (.clear ⟨uid, a⟩ false)
    (.storePatched ⟨uid, a⟩ r))) ?_
  · refine hdropped.congr (fun k => by rw [hr]) (fun k _ _ _ => by rw [hr]) (by rw [hr]) (by rw [hr])
      rfl rfl rfl fun _ hm => ?_
    show (ite _ _ _ : PkgConfig).isExplicitGenerate _ = true
    split_ifs
    · exact PkgConfig.isExplicitGenerate_mono PkgConfig.getOrPut_packageModes PkgConfig.getOrPut_lookup hm
    · exact hm
  · show (CertificateAliasCache.storePatched _ _ _).keys.lookup _ = none
    rw [storePatched, register_keys]
    exact AList.lookup_erase _ _

theorem postGenerateKey {kd : Option KeyDescriptor} {reply : Option Parcel} (h : d.UpToDate) :
    (d.postGenerateKey P env level uid kd reply).1.UpToDate := by
  rcases postGenerateKey_cases P env uid level d kd reply with hd | ⟨a, -, hd⟩
  · rw [hd]
    exact h
  · have htaken : (d.takeMark level ⟨uid, a⟩).UpToDate :=
      h.congr (fun _ => rfl) (fun _ _ _ _ => rfl) rfl rfl rfl rfl rfl fun _ hm => hm
    rcases hd with hd | ⟨m, hd⟩ | ⟨m, chain, hd⟩
    · rw [hd]
      exact htaken
    · rw [hd]
      exact htaken.promotePassthrough
    · rw [hd]
      exact htaken.patchGenerateKeyReply

/-- Certificates that are what they were leave the entry as it was. -/
theorem preUpdateSubcomponent {desc : KeyDescriptor} {cert chain : Option Bytes} (h : d.UpToDate)
    (hsame : d.SameCertificates uid desc cert chain) :
    (d.preUpdateSubcomponent uid (some desc) cert chain).1.UpToDate := by
  have houtcome := preUpdateSubcomponent_outcome uid d desc cert chain
  generalize d.preUpdateSubcomponent uid (some desc) cert chain = outcome at houtcome ⊢
  cases houtcome with
  | refused => exact h
  | untouched => exact h
  | updated k htarget =>
    refine h.congr (fun k' => ?_) (fun _ _ _ _ => rfl) rfl rfl rfl rfl rfl fun _ hm => hm
    rw [updateKeyCertChain_keys_lookup]
    cases hinfo : d.cache.keys.lookup k' with
    | none => rfl
    | some info =>
      rw [Option.map_some]
      split_ifs with hk
      · subst hk
        obtain ⟨rfl, rfl⟩ := hsame k' info htarget hinfo
        rfl
      · rfl
  | cleared k => exact h.clear ⟨uid, k.keyAlias⟩ false

theorem postUpdateSubcomponent {kd : Option KeyDescriptor} {resultCode : Int} (h : d.UpToDate) :
    (d.postUpdateSubcomponent uid kd resultCode).1.UpToDate := by
  unfold Daemon.postUpdateSubcomponent
  cases kd with
  | none => exact h
  | some desc =>
    dsimp only
    split
    · next a _ =>
      split_ifs
      · exact h.dropped (.trans (.clear ⟨uid, a⟩ false) (.relinquish ⟨uid, a⟩)) (AList.lookup_erase _ _)
      · exact h
    · exact h

theorem preCreateOperation {kd : Option KeyDescriptor} {opParams : List KeyParameter} {force : Bool}
    (h : d.UpToDate) : (d.preCreateOperation P env uid kd opParams force).1.UpToDate := by
  rcases preCreateOperation_fst P env uid d kd opParams force with hd | ⟨op, hd⟩
  · rw [hd]
    exact h
  · rw [hd]
    exact h.congr (fun _ => rfl) (fun _ _ _ _ => rfl) rfl rfl rfl rfl rfl fun _ hm => hm

variable {x : Exchange}

theorem preHook (h : d.UpToDate) (hx : x.request.isLifecycle = true)
    (hc : KeepsCurrent P d (.exchange x)) : (x.preHook P d).1.UpToDate := by
  unfold Exchange.preHook Daemon.pre
  refine UpToDate.tick ?_
  cases hr : x.request with
  | generateKey level kd ak params =>
    simp only [KeepsCurrent, hr] at hc
    exact h.preGenerateKey fun hforges a ha => hc hforges _ (Exchange.namedKey_of_request hr ha)
  | createOperation level kd opParams force => exact h.preCreateOperation
  | updateSubcomponent kd cert chain =>
    cases kd with
    | none => exact h
    | some desc =>
      simp only [KeepsCurrent, hr] at hc
      exact h.preUpdateSubcomponent hc
  | _ =>
    rw [hr] at hx
    cases hx

theorem postHook (h : d.UpToDate) (hx : x.request.isLifecycle = true) :
    (x.postHook P d).1.UpToDate := by
  unfold Exchange.postHook Daemon.post
  refine UpToDate.tick ?_
  cases hr : x.request with
  | generateKey level kd ak params => exact h.postGenerateKey
  | createOperation level kd opParams force => exact h
  | updateSubcomponent kd cert chain =>
    cases x.reply with
    | none => exact h
    | some reply => exact h.postUpdateSubcomponent
  | _ =>
    rw [hr] at hx
    cases hx

theorem serve (h : d.UpToDate) (hx : x.request.isLifecycle = true)
    (hc : KeepsCurrent P d (.exchange x)) : (d.serve P x).1.UpToDate := by
  rcases serve_fst (P := P) (d := d) (x := x) with ⟨-, hs⟩ | ⟨-, hs⟩
  · rw [hs]
    exact h.preHook hx hc
  · rw [hs]
    exact (h.preHook hx hc).postHook hx

/-! ## Calls on operations -/

/-- A call that spends no use of a forged key leaves the counters of the limited ones alone. -/
theorem operate {i : ℕ} {call : SoftwareOperationBinder.Call} (h : d.UpToDate)
    (hc : KeepsCurrent P d (.operate i call)) : (d.operate i call).UpToDate := by
  cases hop : d.operations[i]? with
  | none =>
    have hd : d.operate i call = d := by simp only [Daemon.operate, hop]
    rw [hd]
    exact h
  | some op =>
    rw [operate_eq_called hop]
    refine h.congr (fun _ => rfl) (fun k info hinfo hlimit => ?_) rfl rfl rfl rfl rfl fun _ hm => hm
    show (op.call d.cache.usageRemaining call).2.1.lookup k = _
    obtain ⟨-, ⟨-, hu⟩ | ⟨-, hactive, ⟨input, engine, rfl, hinput⟩, ⟨-, hu⟩ | ⟨k', hkey, hpos, hleft, hu⟩⟩⟩ :=
      op.call_cases d.cache.usageRemaining call
    · exact hu k
    · rw [hu]
    · rw [hu]
      refine AList.lookup_insert_ne ?_
      rintro rfl
      exact hc op k hop ⟨⟨input, engine, rfl, hinput⟩, hactive, ⟨hkey, hpos⟩, hleft, info, hinfo, hlimit⟩

theorem keyStep {s : KeyStep} (h : d.UpToDate) (hs : s.isLifecycle = true) (hc : KeepsCurrent P d s) :
    (d.keyStep P s).UpToDate := by
  cases s with
  | exchange x => exact h.serve hs hc
  | operate i call => exact h.operate hc

end UpToDate

end Daemon

end TrickyStore
