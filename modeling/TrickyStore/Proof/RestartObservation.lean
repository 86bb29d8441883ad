import TrickyStore.Proof.CurrentFiles
import TrickyStore.Proof.ForgedRequests
import TrickyStore.Proof.ReadPaths
import TrickyStore.Proof.Reload

/-!
# What the owner of a key observes across a restart

The owner reads the certificates of a forged key by `getKeyEntry`, and may use a limited key as often as
its counter says.  A restart replaces the maps by what the key files say.
-/

open Lib

namespace TrickyStore

open CertificateAliasCache

namespace Daemon

variable (P : Platform) (d : Daemon) (k : Key)

/-- A fresh process that has loaded the files, under the configuration and with the keyboxes of the old
one. -/
def resumed (env : Env) : Daemon :=
  { d.drained.reloaded P env with config := d.config, keyboxes := d.keyboxes }

/-- The owner's descriptor names the key `k`, and its id, if it has one, is that of no other key. -/
structure NamesOnly (desc : KeyDescriptor) : Prop where
  names : d.Names k.uid k desc
  alone : desc.nspace ≠ 0 → ∀ k', k' ≠ k →
    d.cache.keysByNspace.lookup desc.nspace ≠ some k' ∧
      d.passthrough.byNspace.lookup desc.nspace ≠ some k' ∧
      ∀ pk, d.persistence.settled.lookup k' = some pk → pk.nspace ≠ desc.nspace

/-- How often the forged key may still be used; `none` is as often as one likes. -/
def remainingUses (info : Info) : Option Int :=
  if 0 < info.params.usageCountLimit then some (d.budget k info) else none

/-- The owners of the forged keys read the same certificates after a restart. -/
def KeepsCertificates : Prop :=
  ∀ env k info x desc, d.cache.keys.lookup k = some info → x.uid = k.uid →
    x.request = .getKeyEntry (some desc) → d.NamesOnly k desc →
      ((d.resumed P env).serve P x).2.certificates = (d.serve P x).2.certificates

/-- The forged keys are there after a restart and may be used as often as before. -/
def KeepsUses : Prop :=
  ∀ env k info, d.cache.keys.lookup k = some info →
    ∃ info', (d.resumed P env).cache.keys.lookup k = some info' ∧
      (d.resumed P env).remainingUses k info' = d.remainingUses k info

/-! ## Reading the entry of a forged key -/

/-- Nothing stands between the owner of a forged key and its entry. -/
structure Readable (info : Info) (desc : KeyDescriptor) : Prop where
  lookup : d.cache.keys.lookup k = some info
  names : d.Names k.uid k desc
  owner : desc.nspace ≠ 0 → ∀ k', d.cache.keysByNspace.lookup desc.nspace = some k' → k' = k
  passthrough : desc.nspace ≠ 0 → ∀ k', d.passthrough.byNspace.lookup desc.nspace = some k' → k' = k
  untracked : d.passthrough.isTracked k = false
  ungranted : d.cache.Ungranted
  generating : d.config.isExplicitGenerate k.uid = true
  keyboxes : d.hasKeyboxes = true

variable {P d k} {env : Env} {info : Info} {desc : KeyDescriptor}

namespace Readable

variable (h : d.Readable k info desc)

include h

theorem eq_of_mem {k' : Key} (hk' : k' ∈ d.cache.resolveOwnerKeys k.uid desc) : k' = k := by
  rcases mem_resolveOwnerKeys.1 hk' with ⟨hn, hk' | hk'⟩ | ⟨a, ha, rfl⟩
  · exact h.owner hn k' (ownKey_eq_some.1 hk').1
  · rw [h.ungranted.grantedKey] at hk'
    cases hk'
  · obtain ⟨-, hnamed | ⟨hnone, -⟩⟩ := h.names
    · rw [Option.some.inj (ha.symm.trans hnamed)]
    · rw [hnone] at ha
      cases ha

theorem findGeneratedOwner : d.cache.findGeneratedOwner k.uid desc = some (k, info) := by
  obtain ⟨k', info', hfound⟩ := h.names.findGeneratedOwner
    (HashMap.containsKey_eq_true.2 ⟨info, h.lookup⟩)
  obtain ⟨hmem, hlookup⟩ := findGeneratedOwner_eq_some hfound
  obtain rfl := h.eq_of_mem hmem
  obtain rfl := Option.some.inj (h.lookup.symm.trans hlookup)
  exact hfound

theorem isPassthroughDescriptor : d.isPassthroughDescriptor k.uid desc = false := by
  have hresolve : d.passthrough.resolve k.uid desc.keyAlias desc.nspace = none := by
    refine Option.or_eq_none_iff.2 ⟨?_, ?_⟩
    · split_ifs with hn
      · refine Option.filter_eq_none_iff.2 fun k' hk' => ?_
        obtain rfl := h.passthrough hn k' hk'
        simp [h.untracked]
      · rfl
    · refine Option.filter_eq_none_iff.2 fun k' hk' => ?_
      obtain ⟨a, ha, rfl⟩ := Option.map_eq_some_iff.1 hk'
      rw [h.eq_of_mem (mem_resolveOwnerKeys.2 (.inr ⟨a, ha, rfl⟩)), h.untracked]
      exact Bool.false_ne_true
  have hany : ((d.cache.resolveOwnerKeys k.uid desc).any fun k' => d.passthrough.isTracked k') = false := by
    refine List.any_eq_false.2 fun k' hk' => ?_
    rw [h.eq_of_mem hk', h.untracked]
    exact Bool.false_ne_true
  unfold Daemon.isPassthroughDescriptor TrickyStore.isPassthroughDescriptor
    PassthroughKeyRegistry.isTrackedDescriptor
  rw [hresolve, hany]
  rfl

/-- The pre-hook delivers the entry. -/
theorem preGetKeyEntry :
    (d.preGetKeyEntry env k.uid (some desc)).2 = .typedObjectReply k info.response := by
  have hmode : d.needGenerate env k.uid = true :=
    PkgConfig.needGenerate_of_isExplicitGenerate h.generating
  have hpassthrough : (d.checked env k.uid).isPassthroughDescriptor k.uid desc = false :=
    h.isPassthroughDescriptor
  have hcached : (d.checked env k.uid).cachedOwner k.uid desc = some (k, info.response) := by
    show Option.or ((d.cache.findGeneratedOwner k.uid desc).map _) _ = _
    rw [h.findGeneratedOwner]
    rfl
  simp only [Daemon.preGetKeyEntry, h.keyboxes, if_true, grantFor_eq_none h.ungranted,
    preGetKeyEntryByMode, hmode, hpassthrough, Bool.false_eq_true, if_false, hcached, serveCached]

theorem certificates {x : Exchange} (hx : x.uid = k.uid) (hr : x.request = .getKeyEntry (some desc)) :
    (d.serve P x).2.certificates = some info.response.certificates := by
  have hpre : (x.preHook P d).2 = (d.preGetKeyEntry x.preEnv x.uid (some desc)).2 := by
    rw [Exchange.preHook_of_request d hr]
    rfl
  refine certificates_of_cached (k := k) (hpre.trans ?_)
  rw [hx]
  exact h.preGetKeyEntry

end Readable

/-! ## After the restart -/

variable {pk : PersistedKey}

theorem HasFile.readable (h : d.HasFile k pk) (hinfo : d.cache.keys.lookup k = some info)
    (hungranted : d.cache.Ungranted) (hdesc : d.NamesOnly k desc) : d.Readable k info desc where
  lookup := hinfo
  names := hdesc.names
  owner := fun hn k' hk' => by_contra fun hne => (hdesc.alone hn k' hne).1 hk'
  passthrough := fun hn k' hk' => by_contra fun hne => (hdesc.alone hn k' hne).2.1 hk'
  untracked := h.untracked
  ungranted := hungranted
  generating := h.generating
  keyboxes := h.keyboxes

variable (P env) in
/-- The fresh process has the key of a file, with all its uses, and its owner reads the entry. -/
theorem HasFile.resumed (h : d.HasFile k pk) (hfiled : d.AllFiled) :
    ∃ info', (d.resumed P env).cache.keys.lookup k = some info' ∧ info'.RestoredFrom pk ∧
      (d.resumed P env).budget k info' = pk.params.usageCountLimit ∧
      ∀ desc, d.NamesOnly k desc → (d.resumed P env).Readable k info' desc := by
  obtain rfl := (hfiled k pk h.file).1
  have hloaded := hasLoaded_reloaded P env d.drained fun k pk hpk => (hfiled k pk hpk).1
  obtain ⟨info', hinfo', hfrom⟩ := hloaded.keys pk ⟨h.file, h.level⟩
  refine ⟨info', hinfo', hfrom, ?_, fun desc hdesc => ?_⟩
  · show ((d.drained.reloaded P env).cache.usageRemaining.lookup pk.key).getD _ = _
    rw [hloaded.usageRemaining, hfrom.params]
    rfl
  · have howner (hn : desc.nspace ≠ 0) (k' : Key)
        (hk' : (d.drained.reloaded P env).cache.keysByNspace.lookup desc.nspace = some k') :
        k' = pk.key := by
      obtain ⟨pk', ⟨hpk', -⟩, rfl, hid⟩ := hloaded.owner _ _ hk'
      exact by_contra fun hne => (hdesc.alone hn _ hne).2.2 pk' hpk' hid
    refine ⟨hinfo', ⟨rfl, ?_⟩, howner, fun _ k' hk' => ?_, ?_, fun n => ?_, h.generating, h.keyboxes⟩
    · rcases hdesc.names.2 with hnamed | ⟨hnone, hn, hid⟩
      · exact .inl hnamed
      · -- the file of the key has the id, and no other file has it
        refine .inr ⟨hnone, hn, ?_⟩
        have hn' : pk.nspace = desc.nspace := h.owner _ hid
        obtain ⟨k', hk'⟩ := hloaded.owned pk ⟨h.file, h.level⟩ (hn' ▸ hn)
        rw [hn'] at hk'
        obtain rfl := howner hn k' hk'
        exact hk'
    · change (d.drained.reloaded P env).passthrough.byNspace.lookup _ = _ at hk'
      rw [hloaded.passthrough] at hk'
      cases hk'
    · show (d.drained.reloaded P env).passthrough.isTracked _ = false
      rw [hloaded.passthrough]
      rfl
    · show (d.drained.reloaded P env).cache.grants.lookup n = none
      rw [hloaded.grants]
      rfl

/-- The fresh process has no key without a file. -/
theorem exists_file_of_resumed (hfiled : d.AllFiled)
    (h : (d.resumed P env).cache.keys.lookup k = some info) :
    ∃ pk, d.persistence.settled.lookup k = some pk := by
  have hkey : (d.drained.reloaded P env).cache.keys.containsKey k = true :=
    HashMap.containsKey_eq_true.2 ⟨info, h⟩
  have hempty : ¬ d.drained.restart.cache.keys.containsKey k = true := by
    show ¬ (∅ : HashMap Key Info).containsKey k = true
    simp [HashMap.containsKey]
  rw [reloaded, (World.run_loads env _ rfl).2.2, or_iff_left hempty] at hkey
  obtain ⟨pk, hpk, -, rfl⟩ := hkey
  obtain ⟨⟨k', pk'⟩, he, rfl⟩ := List.mem_map.1 hpk
  have hlookup := HashMap.lookup_eq_some_iff.2 he
  exact ⟨pk', (hfiled k' pk' hlookup).1 ▸ hlookup⟩

/-! ## Up-to-date files -/

theorem UpToDate.keepsCertificates (h : d.UpToDate) : d.KeepsCertificates P := by
  intro env k info x desc hinfo hx hr hdesc
  obtain ⟨pk, hpk⟩ := h.files k info hinfo
  obtain ⟨info', -, hfrom, -, hreadable⟩ := hpk.hasFile.resumed P env h.filed
  rw [(hpk.hasFile.readable hinfo h.ungranted hdesc).certificates hx hr,
    (hreadable desc hdesc).certificates hx hr, KeyEntryResponse.certificates,
    hfrom.metadata _ hpk.metadata]
  rfl

theorem UpToDate.keepsUses (h : d.UpToDate) : d.KeepsUses P := by
  intro env k info hinfo
  obtain ⟨pk, hpk⟩ := h.files k info hinfo
  obtain ⟨info', hinfo', hfrom, hbudget, -⟩ := hpk.hasFile.resumed P env h.filed
  refine ⟨info', hinfo', ?_⟩
  rw [remainingUses, remainingUses, hbudget, hfrom.params, hpk.limit]
  split_ifs with hlimit
  · rw [budget, hpk.unused hlimit]
    rfl
  · rfl

/-- After the start no key is forged and no file is left. -/
theorem upToDate_initializeConfig (modes : Option (HashMap String Mode))
    (keyboxes : Option (HashMap String KeyBox)) :
    (({} : Daemon).initializeConfig modes keyboxes).UpToDate := by
  have hcache : (({} : Daemon).initializeConfig modes keyboxes).cache = {} := by
    cases modes <;> cases keyboxes <;> rfl
  have hsettled : (({} : Daemon).initializeConfig modes keyboxes).persistence.settled = ∅ := by
    cases modes <;> cases keyboxes <;> rfl
  refine ⟨fun k info hinfo => ?_, fun k pk hpk => ?_, fun n => ?_⟩
  · rw [hcache] at hinfo
    cases hinfo
  · rw [hsettled] at hpk
    cases hpk
  · rw [hcache]
    rfl

/-! ## What makes a restart visible -/

variable {level : SecurityLevel} {uid : Int} {kd ak : Option KeyDescriptor}
  {params : Option (List KeyParameter)} {x : Exchange}

theorem Forges.preGenerateKey (h : d.Forges P env level uid kd ak params) :
    ∃ a domain kgp pair chain skip, ∃ d₁ : Daemon, kd.bind KeyDescriptor.keyAlias = some a ∧
      d₁.persistence = d.persistence ∧ d.preGenerateKey P env level uid kd ak params =
        d₁.storeGeneratedKey P env level uid a domain kgp pair chain skip := by
  have hfst := checkGenerateKey_fst P env uid d kd ak params
  unfold Forges at h
  unfold Daemon.preGenerateKey
  cases hcheck : d.checkGenerateKey P env uid kd ak params with
  | mk d₁ res =>
    rw [hcheck] at h hfst
    cases res with
    | error res => exact h.elim
    | ok req =>
      obtain ⟨hroute, hpair⟩ := h
      obtain ⟨⟨pair, chain⟩, hpair⟩ := Option.isSome_iff_exists.1 hpair
      refine ⟨req.keyAlias, req.descriptor.domain, req.kgp, pair, chain,
        (d₁.checked env uid).needHack env uid, d₁.checked env uid, checkGenerateKey_ok hcheck, ?_, ?_⟩
      · rcases hfst with rfl | rfl <;> rfl
      · dsimp only
        rw [routeGenerateKey, hroute]
        dsimp only
        rw [hpair]

/-- A key that is forged under an alias too long for a file is gone after a restart. -/
theorem UpToDate.aliasFits (h : d.UpToDate) (hr : x.request = .generateKey level kd ak params)
    (hforges : d.Forges P x.preEnv level x.uid kd ak params) (huses : (d.serve P x).1.KeepsUses P) :
    x.AliasFits := by
  intro k hk
  by_contra hlong
  obtain ⟨a, domain, kgp, pair, chain, skip, d₁, ha, hpers, hpre⟩ := hforges.preGenerateKey
  obtain rfl : (⟨x.uid, a⟩ : Key) = k :=
    Option.some.inj ((Exchange.namedKey_of_request hr ha).symm.trans hk)
  have hserve : (d.serve P x).1 =
      (d₁.storeGeneratedKey P x.preEnv level x.uid a domain kgp pair chain skip).1.tick := by
    have hhook : x.preHook P d =
        ((d₁.storeGeneratedKey P x.preEnv level x.uid a domain kgp pair chain skip).1.tick,
          (d₁.storeGeneratedKey P x.preEnv level x.uid a domain kgp pair chain skip).2) := by
      rw [← hpre]
      exact Exchange.preHook_of_request d hr
    rw [serve_of_override (congrArg Prod.snd hhook), hhook]
  rw [hserve] at huses
  have hsettled : (d₁.storeGeneratedKey P x.preEnv level x.uid a domain kgp pair chain
      skip).1.tick.persistence.settled = d.persistence.settled := by
    rw [← hpers]
    exact (PersistenceManager.settled_execute _ _).trans (if_neg hlong)
  obtain ⟨info', hinfo', -⟩ := huses x.preEnv ⟨x.uid, a⟩ _ (AList.lookup_insert _)
  have hfiled : (d₁.storeGeneratedKey P x.preEnv level x.uid a domain kgp pair chain
      skip).1.tick.AllFiled := by
    unfold AllFiled
    rw [hsettled]
    exact h.filed
  obtain ⟨pk, hpk⟩ := exists_file_of_resumed hfiled hinfo'
  rw [hsettled] at hpk
  exact hlong (h.filed _ pk hpk).2

/-- The owner reads the certificates of the file again after a restart. -/
theorem UpToDate.sameCertificates {cert chain : Option Bytes} (h : d.UpToDate)
    (hr : x.request = .updateSubcomponent (some desc) cert chain)
    (hcert : (d.serve P x).1.KeepsCertificates P) : d.SameCertificates x.uid desc cert chain := by
  intro k info htarget hinfo
  obtain ⟨pk, hpk⟩ := h.files k info hinfo
  have hserve : (d.serve P x).1 =
      { d with cache := d.cache.updateKeyCertChain k cert chain }.tick := by
    have hhook : x.preHook P d =
        ({ d with cache := d.cache.updateKeyCertChain k cert chain }.tick, .successReply) := by
      have hforged : d.cache.keys.containsKey k = true := HashMap.containsKey_eq_true.2 ⟨info, hinfo⟩
      simp only [Exchange.preHook, pre, hr, onPreTransact, Daemon.preUpdateSubcomponent, htarget,
        hforged, if_true]
    rw [serve_of_override (congrArg Prod.snd hhook), hhook]
  rw [hserve] at hcert
  set d' : Daemon := { d with cache := d.cache.updateKeyCertChain k cert chain }.tick with hd'
  have hinfo' : d'.cache.keys.lookup k =
      some { info with response := setCertificates cert chain info.response } := by
    show (d.cache.updateKeyCertChain k cert chain).keys.lookup k = _
    rw [updateKeyCertChain_keys_lookup, hinfo, Option.map_some, if_pos rfl]
  have hfile : d'.HasFile k pk := hpk.hasFile.congr rfl rfl rfl rfl fun _ hm => hm
  have hdesc : d'.NamesOnly k { keyAlias := some k.keyAlias } :=
    ⟨⟨rfl, .inl rfl⟩, fun hn => absurd rfl hn⟩
  obtain ⟨info'', -, hfrom, -, hreadable⟩ := hfile.resumed P x.preEnv h.filed
  have hread := hcert x.preEnv k _ { x with uid := k.uid, request := .getKeyEntry _ } _ hinfo' rfl rfl
    hdesc
  rw [(hfile.readable hinfo' h.ungranted hdesc).certificates rfl rfl,
    (hreadable _ hdesc).certificates rfl rfl, KeyEntryResponse.certificates,
    KeyEntryResponse.certificates, hfrom.metadata _ hpk.metadata] at hread
  obtain ⟨hleaf, hrest⟩ := Prod.mk.inj (Option.some.inj hread)
  exact ⟨hleaf.symm, hrest.symm⟩

/-- A `finish` that spends a use charges the counter of the key. -/
theorem SpendsUse.call {op : SoftwareOperationBinder} {call : SoftwareOperationBinder.Call}
    (h : d.SpendsUse op call k) : (op.call d.cache.usageRemaining call).2.1 =
      d.cache.usageRemaining.insert k
        ((d.cache.usageRemaining.lookup k).getD op.usageCountLimit - 1) := by
  obtain ⟨input, engine, rfl, hinput⟩ := h.finish
  have hactive : op.checkActive = .ok () := by
    rw [SoftwareOperationBinder.checkActive, if_pos h.active]
  have hconsume : op.consumeUsage d.cache.usageRemaining = (true, d.cache.usageRemaining.insert k
      ((d.cache.usageRemaining.lookup k).getD op.usageCountLimit - 1)) := by
    simp only [SoftwareOperationBinder.consumeUsage, h.charged.1]
    rw [if_neg (Int.not_le.2 h.charged.2), if_neg (Int.not_le.2 h.left)]
  simp only [SoftwareOperationBinder.call, SoftwareOperationBinder.finish, hactive, hinput, hconsume]

/-- A use that was spent is there again after a restart. -/
theorem UpToDate.not_spendsUse {i : ℕ} {op : SoftwareOperationBinder}
    {call : SoftwareOperationBinder.Call} (h : d.UpToDate) (hop : d.operations[i]? = some op)
    (huses : (d.operate i call).KeepsUses P) : ¬ d.SpendsUse op call k := by
  intro hspends
  obtain ⟨info, hinfo, hlimit⟩ := hspends.limited
  obtain ⟨pk, hpk⟩ := h.files k info hinfo
  rw [operate_eq_called hop] at huses
  set d' := d.called i (op.call d.cache.usageRemaining call).1
    (op.call d.cache.usageRemaining call).2.1 with hd'
  have hbudget : d'.budget k info = info.params.usageCountLimit - 1 := by
    show ((op.call d.cache.usageRemaining call).2.1.lookup k).getD _ = _
    rw [hspends.call, AList.lookup_insert, hpk.unused hlimit]
    rfl
  have hfile : d'.HasFile k pk := hpk.hasFile.congr rfl rfl rfl rfl fun _ hm => hm
  let env : Env := { packageManager := ⟨fun _ => none, fun _ _ _ => false⟩ }
  obtain ⟨info', hinfo', hfrom, hfull, -⟩ := hfile.resumed P env h.filed
  obtain ⟨info'', hinfo'', hsame⟩ := huses env k info hinfo
  obtain rfl := Option.some.inj (hinfo'.symm.trans hinfo'')
  rw [remainingUses, remainingUses, hfrom.params, hpk.limit, if_pos hlimit, if_pos hlimit, hfull,
    hpk.limit, hbudget] at hsame
  have := Option.some.inj hsame
  omega

/-- A step after which a restart goes unnoticed keeps the files up to date. -/
theorem UpToDate.keepsCurrent {s : KeyStep} (h : d.UpToDate) (hcert : (d.keyStep P s).KeepsCertificates P)
    (huses : (d.keyStep P s).KeepsUses P) : d.KeepsCurrent P s := by
  cases s with
  | exchange x =>
    dsimp only [KeepsCurrent]
    split
    · next hr => exact fun hforges => h.aliasFits hr hforges huses
    · next hr => exact h.sameCertificates hr hcert
    · trivial
  | operate i call => exact fun op k hop => h.not_spendsUse hop huses

end Daemon

namespace Demo

/-- The owner makes a signing key that may be used once. -/
def makeOnce : KeyStep := .exchange (creation onceParams none)

/-- The owner starts to sign with the key. -/
def startToSign : KeyStep :=
  .exchange {
    uid := owner
    request := .createOperation .trustedEnvironment (some byAlias)
      [⟨Tag.PURPOSE, .keyPurpose KeyPurpose.SIGN⟩] false
    preEnv := env 7, postEnv := env 8 }

/-- The owner replaces the certificates of the key. -/
def replaceCertificates (certificate certificateChain : Option Bytes) : KeyStep :=
  .exchange {
    uid := owner
    request := .updateSubcomponent (some byAlias) certificate certificateChain
    preEnv := env 7, postEnv := env 8 }

/-- The state after the steps of a run in the generate mode. -/
def after (steps : List KeyStep) : Daemon :=
  Machine.run (Daemon.keyStep platform)
    (({} : Daemon).initializeConfig (some (modes .GENERATE .AUTO)) (some keyboxes)) steps

/-- No use of the key is spent, and its certificates are replaced by themselves. -/
def unspent : List KeyStep :=
  [makeOnce, replaceCertificates (some [3]) (some [7]), startToSign, .operate 0 .abort]

end Demo

/-- The owners of the forged keys never observe a restart exactly if every step of the run keeps the files
up to date. -/
theorem restart_unobserved_iff (P : Platform) (modes : Option (HashMap String Mode))
    (keyboxes : Option (HashMap String KeyBox)) (steps : List KeyStep)
    (hsteps : ∀ s ∈ steps, s.isLifecycle = true) :
    Machine.AllSteps (Daemon.keyStep P) (Daemon.KeepsCurrent P)
        (({} : Daemon).initializeConfig modes keyboxes) steps ↔
      ∀ before, before <+: steps →
        (Machine.run (Daemon.keyStep P) (({} : Daemon).initializeConfig modes keyboxes)
            before).KeepsCertificates P ∧
          (Machine.run (Daemon.keyStep P) (({} : Daemon).initializeConfig modes keyboxes)
            before).KeepsUses P :=
  Machine.allSteps_iff_forall_prefix (I := Daemon.UpToDate)
    (G := fun d => d.KeepsCertificates P ∧ d.KeepsUses P) (E := fun s => s.isLifecycle = true)
    (Daemon.upToDate_initializeConfig modes keyboxes) hsteps (fun _ _ hd => hd.keyStep)
    (fun _ hd => ⟨hd.keepsCertificates, hd.keepsUses⟩)
    fun _ _ hd _ hgood => hd.keepsCurrent hgood.1 hgood.2

open Demo in
theorem restart_unobserved_unspent :
    (after unspent).KeepsCertificates platform ∧ (after unspent).KeepsUses platform := by
  refine (restart_unobserved_iff platform (some (modes .GENERATE .AUTO)) (some keyboxes) unspent
    (by decide)).1 ?_ unspent List.prefix_rfl
  refine Machine.allSteps_cons (fun _ => creation_aliasFits) (Machine.allSteps_cons ?_
    (Machine.allSteps_cons trivial (Machine.allSteps_cons ?_ Machine.allSteps_nil)))
  · intro k info htarget hinfo
    obtain rfl := Option.some.inj (Option.some.inj htarget)
    obtain rfl := Option.some.inj hinfo
    exact ⟨rfl, rfl⟩
  · rintro op k - ⟨⟨input, engine, hcall, -⟩, -⟩
    cases hcall

open Demo in
/-- After a restart the owner reads the replaced certificate again, and the spent use is there again. -/
theorem restart_forgets :
    (¬ ∀ P modes keyboxes (steps : List KeyStep), (∀ s ∈ steps, s.isLifecycle = true) →
      (Machine.run (Daemon.keyStep P) (({} : Daemon).initializeConfig modes keyboxes)
        steps).KeepsCertificates P) ∧
      ¬ ∀ P modes keyboxes (steps : List KeyStep), (∀ s ∈ steps, s.isLifecycle = true) →
        (Machine.run (Daemon.keyStep P) (({} : Daemon).initializeConfig modes keyboxes)
          steps).KeepsUses P := by
  refine ⟨fun h => ?_, fun h => ?_⟩
  · have hread := h platform (some (modes .GENERATE .AUTO)) (some keyboxes)
      [makeOnce, replaceCertificates (some [9]) none] (by decide) (env 12) key _ reading byAlias rfl rfl
      rfl ⟨⟨rfl, .inl rfl⟩, fun hn => absurd rfl hn⟩
    revert hread
    decide
  · obtain ⟨info', hinfo', huses⟩ := h platform (some (modes .GENERATE .AUTO)) (some keyboxes)
      [makeOnce, startToSign, .operate 0 (.finish none (.ok none))] (by decide) (env 12) key _ rfl
    obtain rfl := Option.some.inj hinfo'
    revert huses
    decide

end TrickyStore
