import TrickyStore.Proof.PlainAuto
import TrickyStore.Proof.Sequential

/-!
# The read paths of a cached key

A cached key can be read by its owner, by alias or by id, and by a grantee.  The grant shortcut takes
the forged entry, else the re-signed one; the hooks of the owner's mode each look in one of the maps,
and the leaf-hack branch sees a forged key only while its flag in `skipLeafHacks` is set.
-/

open Lib

namespace TrickyStore

open CertificateAliasCache

/-- The certificate and its chain. -/
def KeyEntryResponse.certificates (r : KeyEntryResponse) : Option Bytes × Option Bytes :=
  (r.metadata.certificate, r.metadata.certificateChain)

/-- The certificates of the entry that an answer delivers, if it delivers one. -/
def Answer.certificates : Answer → Option (Option Bytes × Option Bytes)
  | .fromHook (.entry r) _ => some r.certificates
  | .fromHook .. => none
  | .fromKeystore _ reply =>
    match (reply.bind Parcel.readException).bind
        (Parcel.readTypedObject Parcel.keyEntryResponseCreator) with
    | some (some r, _) => some r.certificates
    | _ => none

/-- Nothing is known under the id. -/
structure Daemon.UnusedId (d : Daemon) (n : Int) : Prop where
  key : d.cache.keysByNspace.lookup n = none
  grant : d.cache.grants.lookup n = none
  tracked : d.passthrough.byNspace.lookup n = none

section Reads

variable (pm : PackageManager) (d : Daemon) (k : Key)

/-- The packages of the uid, as far as the daemon can tell, are not plain AUTO. -/
def Daemon.NotPlainAuto (uid : Int) : Prop :=
  ∀ ps, d.config.packages pm uid = some ps → plainAuto d.config.packageModes ps = false

/-- A descriptor in the hands of the uid reads the key `k`: its owner's with the alias or the id of
`k`, or a grantee's with the id of a grant that allows GET_INFO. -/
inductive Daemon.Reads : Int → KeyDescriptor → Prop
  | byAlias (desc : KeyDescriptor) (ha : desc.keyAlias = some k.keyAlias)
      (hn : desc.nspace = 0 ∨ d.UnusedId desc.nspace) : Reads k.uid desc
  | byId (desc : KeyDescriptor) (ha : desc.keyAlias = none) (hn : desc.nspace ≠ 0)
      (hk : d.cache.keysByNspace.lookup desc.nspace = some k) : Reads k.uid desc
  | byGrant (desc : KeyDescriptor) (g : GrantInfo) (hn : desc.nspace ≠ 0)
      (hg : d.cache.grants.lookup desc.nspace = some g) (hk : g.key = k)
      (hallows : g.allows KeyPermission.GET_INFO = true) (hv : d.NotPlainAuto pm g.granteeUid) :
    Reads g.granteeUid desc

/-- A `getKeyEntry` of `k`; the real keystore does not know a forged key. -/
structure Exchange.ReadsKey (x : Exchange) : Prop where
  names : ∃ desc, x.request = .getKeyEntry (some desc) ∧ d.Reads pm k x.uid desc
  packageManager : x.preEnv.packageManager = pm
  notFound : d.cache.keys.containsKey k = true → x.reply.bind Parcel.readException = none

/-- All reads of `k` deliver the same certificates. -/
def ReadsAgree (P : Platform) : Prop :=
  ∃ certificates, ∀ x : Exchange, x.ReadsKey pm d k →
    (d.serve P x).2.certificates = some certificates

/-- A grantee that is not plain AUTO can read `k`. -/
def Daemon.Granted : Prop :=
  ∃ n g, n ≠ 0 ∧ d.cache.grants.lookup n = some g ∧ g.key = k ∧
    g.allows KeyPermission.GET_INFO = true ∧ d.NotPlainAuto pm g.granteeUid

/-- The owner's mode makes the hook look where the grant shortcut looks: the owner is in `!` mode, the
key is not forged, or its flag sends the leaf-hack branch to the forged entry.  Else that branch needs
a re-signed entry, with the certificates of the forged one if a grantee reads that. -/
def Daemon.FoundTogether : Prop :=
  d.config.needGenerate pm k.uid = true ∨ d.cache.keys.containsKey k = false ∨
    d.cache.skipLeafHacks.lookup k = some true ∨
      ∃ i r, d.cache.keys.lookup k = some i ∧ d.cache.patchedResponses.lookup k = some r ∧
        (d.Granted pm k → r.certificates = i.response.certificates)

end Reads

/-! ## What runs keep -/

/-- The flag is set for forged keys only. -/
def CertificateAliasCache.FlagsForged (c : CertificateAliasCache) : Prop :=
  ∀ k b, c.skipLeafHacks.lookup k = some b → c.keys.containsKey k = true

/-- The id of a key is not that of a grant nor that of another tracked key. -/
def DistinctIds (c : CertificateAliasCache) (p : PassthroughKeyRegistry) : Prop :=
  ∀ n k, c.keysByNspace.lookup n = some k →
    c.grants.lookup n = none ∧ ∀ k', p.byNspace.lookup n = some k' → k' = k

/-- An id that a hook of the request brings in is not in use: that of a key for no grant and no
tracked key, that of a grant for no key. -/
structure FreshFor (c : CertificateAliasCache) (p : PassthroughKeyRegistry) (request : Request)
    (n : Int) : Prop where
  key : request.isGenerateKey = true → c.grants.lookup n = none ∧ p.byNspace.lookup n = none
  grant : ∀ kd granteeUid accessVector, request = .grant kd granteeUid accessVector →
    c.keysByNspace.lookup n = none

/-- The ids that the event brings in are not in use. -/
def World.FreshIds (w : World) : Event → Prop
  | .arrive _ _ request env =>
    FreshFor w.daemon.cache w.daemon.passthrough request env.nextLong
  | .complete id _ reply _ => ∀ t, w.inFlight.lookup id = some t →
    ∀ n ∈ Parcel.keyIds (reply.getD []),
      FreshFor w.daemon.cache w.daemon.passthrough t.request n
  | .loadPersistedKeys _ _ => ∀ pk ∈ w.daemon.persistence.loadAll,
    w.daemon.cache.grants.lookup pk.nspace = none ∧
      w.daemon.passthrough.byNspace.lookup pk.nspace = none
  | _ => True

namespace CertificateAliasCache

variable {c : CertificateAliasCache} {k : Key}

theorem FlagsForged.clear (h : c.FlagsForged) : (c.clear k).FlagsForged := by
  intro k' b hb
  rw [clear_skipLeafHacks, HashMap.lookup_erase_eq_some] at hb
  rw [clear_keys, HashMap.containsKey_erase, if_neg hb.1]
  exact h k' b hb.2

theorem FlagsForged.storeGenerated {info : Info} {pair : KeyPair} {chain : List Certificate} {n : Int}
    {skipLeafHack : Bool} (h : c.FlagsForged) :
    (c.storeGenerated k info pair chain n skipLeafHack).FlagsForged := by
  intro k' b hb
  have hkeys : (c.storeGenerated k info pair chain n skipLeafHack).keys.containsKey k' =
      if k' = k then true else c.keys.containsKey k' := HashMap.containsKey_insert ..
  rw [hkeys]
  by_cases hk : k' = k
  · rw [if_pos hk]
  · have hb' : c.skipLeafHacks.lookup k' = some b := by
      cases skipLeafHack with
      | false => exact hb
      | true =>
        rcases HashMap.lookup_insert_eq_some.1 hb with ⟨hk', -⟩ | ⟨-, hb⟩
        · exact absurd hk' hk
        · exact hb
    rw [if_neg hk]
    exact h k' b hb'

end CertificateAliasCache

theorem HookStep.flagsForged {uid : Int} {request : Request} {now : ℕ} {ids : Int → Prop}
    {c c' : CertificateAliasCache} {p p' : PassthroughKeyRegistry}
    (h : HookStep uid request now ids c p c' p') (hc : c.FlagsForged) : c'.FlagsForged := by
  cases h with
  | unchanged | regranted | granted | ungranted | resigned => exact hc
  | cleared | relinquished => exact hc.clear
  | generated => exact hc.clear.storeGenerated
  | patched =>
    intro k b hb
    simp only [storePatched, register_skipLeafHacks] at hb
    simp only [storePatched, register_keys]
    exact hc.clear k b hb
  | promoted =>
    intro k b hb
    rw [register_skipLeafHacks] at hb
    rw [register_keys]
    exact hc.clear k b hb
  | unskipped => exact fun k b hb => hc k b (HashMap.lookup_erase_eq_some.1 hb).2
  | updated k' =>
    intro k b hb
    obtain ⟨i, hi⟩ := HashMap.containsKey_eq_true.1 (hc k b (HashMap.lookup_erase_eq_some.1 hb).2)
    rw [HashMap.containsKey, updateKeyCertChain_keys_lookup, hi]
    rfl

section Ids

variable {c : CertificateAliasCache} {p : PassthroughKeyRegistry} {k : Key} {n : Int}

theorem clear_grants_none (h : c.grants.lookup n = none) : (c.clear k).grants.lookup n = none := by
  rw [clear_grants, HashMap.lookup_removeIf, h]
  rfl

theorem remove_byNspace {k' : Key} (h : (p.remove k).byNspace.lookup n = some k') : p.byNspace.lookup n = some k' :=
  (HashMap.lookup_removeIf_eq_some.1 h).1

theorem DistinctIds.clear (hc : DistinctIds c p) : DistinctIds (c.clear k) p := by
  intro m k' hk'
  obtain ⟨hgrant, htracked⟩ := hc m k' (clear_keysByNspace_eq_some.1 hk').1
  exact ⟨clear_grants_none hgrant, htracked⟩

theorem DistinctIds.remove (hc : DistinctIds c p) : DistinctIds c (p.remove k) :=
  fun m k' hk' => ⟨(hc m k' hk').1, fun k'' h => (hc m k' hk').2 k'' (remove_byNspace h)⟩

/-- An id that is not in use is distinct after a key was dropped. -/
theorem distinct_of_unused {k' : Key} (hgrant : c.grants.lookup n = none) (htracked : p.byNspace.lookup n = none) :
    (c.clear k).grants.lookup n = none ∧ ∀ k'', (p.remove k).byNspace.lookup n = some k'' → k'' = k' := by
  refine ⟨clear_grants_none hgrant, fun k'' h => ?_⟩
  rw [remove_byNspace h] at htracked
  cases htracked

/-- A grant under an id that no forged key has. -/
theorem DistinctIds.grant {g : GrantInfo} (hc : DistinctIds c p) (hn : ∀ k, c.keysByNspace.lookup n ≠ some k) :
    DistinctIds { c with grants := c.grants.insert n g } p := by
  intro m k hk
  obtain ⟨hgrant, htracked⟩ := hc m k hk
  refine ⟨?_, htracked⟩
  have hne : m ≠ n := by
    rintro rfl
    exact hn k hk
  rw [HashMap.lookup_insert_ite, if_neg hne, hgrant]

end Ids

theorem HookStep.distinctIds {uid : Int} {request : Request} {now : ℕ} {ids : Int → Prop}
    {c c' : CertificateAliasCache} {p p' : PassthroughKeyRegistry}
    (h : HookStep uid request now ids c p c' p') (hfresh : ∀ n, ids n → FreshFor c p request n)
    (hc : DistinctIds c p) : DistinctIds c' p' := by
  cases h with
  | unchanged | unskipped | updated | resigned => exact hc
  | cleared => exact hc.clear
  | relinquished => exact hc.clear.remove
  | generated a info pair chain n skip hserial hid hn hrequest =>
    obtain ⟨hgrant, htracked⟩ := (hfresh n hn).key hrequest
    intro m k hk
    rcases HashMap.lookup_insert_eq_some.1 hk with ⟨rfl, -⟩ | ⟨-, hk⟩
    · exact distinct_of_unused hgrant htracked
    · exact hc.clear.remove m k hk
  | patched a r hserial hid hrequest =>
    intro m k hk
    simp only [storePatched, register_grants]
    rcases register_keysByNspace_eq_some.1 hk with ⟨hm, -, -⟩ | ⟨-, hk⟩
    · obtain ⟨hgrant, htracked⟩ := (hfresh m (hid m hm)).key hrequest
      exact distinct_of_unused hgrant htracked
    · exact hc.clear.remove m k hk
  | promoted a n hid hrequest =>
    intro m k hk
    rw [register_grants]
    rcases register_keysByNspace_eq_some.1 hk with ⟨rfl, hm, rfl⟩ | ⟨hm, hk⟩
    · refine ⟨clear_grants_none ((hfresh m (hid m rfl)).key hrequest).1, fun k' h => ?_⟩
      simp only [PassthroughKeyRegistry.promote, hm, ne_eq, not_false_eq_true, if_true,
        AList.lookup_insert, Option.some.injEq] at h
      exact h.symm
    · obtain ⟨hgrant, htracked⟩ := hc.clear m k hk
      refine ⟨hgrant, fun k' h => htracked k' ?_⟩
      unfold PassthroughKeyRegistry.promote at h
      dsimp only at h
      split at h
      · next n' =>
        split_ifs at h with hn'
        · refine ((HashMap.lookup_insert_eq_some.1 h).resolve_left fun ⟨he, _⟩ => hm ?_).2
          exact ⟨by rw [he], he ▸ hn'⟩
        · exact h
      · exact h
  | regranted n g kd accessVector hrequest hkey hg =>
    apply hc.grant
    intro k hk
    rw [(hc n k hk).1] at hg
    cases hg
  | granted n k' kd granteeUid accessVector hrequest hkey hk' hn =>
    apply hc.grant
    intro k hk
    rw [(hfresh n hn).grant kd granteeUid accessVector hrequest] at hk
    cases hk
  | ungranted =>
    intro m k hk
    obtain ⟨hgrant, htracked⟩ := hc m k hk
    refine ⟨?_, htracked⟩
    rw [HashMap.lookup_removeIf, hgrant]
    rfl

namespace Daemon

variable {P : Platform} {env : Env} {d d' : Daemon} {level : SecurityLevel} {pk : PersistedKey}

theorem restoreKey_flagsForged (h : d.cache.FlagsForged) :
    (d.restoreKey P env level pk).cache.FlagsForged := by
  intro k b hb
  rw [restoreKey_containsKey]
  unfold restoreKey at hb
  dsimp only at hb
  split at hb
  · rcases HashMap.lookup_insert_eq_some.1 hb with ⟨hk, -⟩ | ⟨-, hb⟩
    · exact .inl hk
    · exact .inr (h k b hb)
  · exact .inr (h k b hb)

theorem flagsForged_step (h : d.cache.FlagsForged) (hs : DaemonStep P d d') :
    d'.cache.FlagsForged :=
  owners_step (I := fun c _ => c.FlagsForged) h hs (fun k b hb => by cases hb)
    (fun hc hstep => hstep.flagsForged hc) (fun hc => hc) restoreKey_flagsForged

theorem loadPersistedKeys_distinctIds
    (hfresh : ∀ pk ∈ d.persistence.loadAll, d.cache.grants.lookup pk.nspace = none ∧
      d.passthrough.byNspace.lookup pk.nspace = none)
    (h : DistinctIds d.cache d.passthrough) :
    DistinctIds (d.loadPersistedKeys P env level).cache
      (d.loadPersistedKeys P env level).passthrough := by
  refine (loadPersistedKeys_invariant (I := fun d' => d'.cache.grants = d.cache.grants ∧
    d'.passthrough = d.passthrough ∧ DistinctIds d'.cache d'.passthrough) ⟨rfl, rfl, h⟩ ?_).2.2
  rintro d' pk hpk ⟨hgrants, hpassthrough, hd'⟩
  refine ⟨hgrants, hpassthrough, fun n k hk => ?_⟩
  have hold (hk : d'.cache.keysByNspace.lookup n = some k) := hd' n k hk
  unfold restoreKey at hk
  dsimp only at hk
  split at hk
  · rcases HashMap.lookup_insert_eq_some.1 hk with ⟨rfl, -⟩ | ⟨-, hk⟩
    · obtain ⟨hgrant, htracked⟩ := hfresh pk hpk
      refine ⟨(congrArg _ hgrants).trans hgrant, fun k' h => ?_⟩
      change d'.passthrough.byNspace.lookup pk.nspace = some k' at h
      rw [hpassthrough, htracked] at h
      cases h
    · exact hold hk
  · exact hold hk

end Daemon

namespace World

variable {P : Platform} {w : World}

theorem distinctIds_step {e : Event} (h : DistinctIds w.daemon.cache w.daemon.passthrough)
    (hfresh : w.FreshIds e) :
    DistinctIds (w.next P e).daemon.cache (w.next P e).daemon.passthrough := by
  have hempty : DistinctIds {} {} := by
    intro n k hk
    cases hk
  cases e with
  | arrive id uid request env =>
    rcases w.arrive_daemon P id uid request env with hd | hd
    · rw [next, hd]
      exact h
    · rw [next, hd]
      refine (Daemon.pre_steps P env request).distinctIds (fun n hn => ?_) h
      rw [hn]
      exact hfresh
  | complete id resultCode reply env =>
    rcases w.complete_daemon P id resultCode reply env with hd | ⟨t, ht, hd⟩
    · rw [next, hd]
      exact h
    · rw [next, hd]
      exact (Daemon.post_steps P env t.request resultCode reply).distinctIds (hfresh t ht) h
  | operate op call =>
    dsimp only [next, withDaemon, Daemon.operate]
    split <;> exact h
  | keyboxChanged | restart => exact hempty
  | loadPersistedKeys level env =>
    dsimp only [next]
    split_ifs
    · exact Daemon.loadPersistedKeys_distinctIds hfresh h
    · exact h
  | initializeConfig modes keyboxes =>
    dsimp only [next]
    split_ifs
    · cases modes <;> cases keyboxes
      · exact h
      · exact hempty
      · exact h
      · exact hempty
    · exact h
  | _ => exact h

end World

/-! ## What the owner is answered from -/

namespace Daemon

variable {P : Platform} {env : Env} {pm : PackageManager} {d : Daemon} {k : Key}
  {desc : KeyDescriptor} {uid : Int}

/-- The entry in which the pre-hook looks for an owner that is not plain AUTO. -/
def ownerRead (pm : PackageManager) (k : Key) (d : Daemon) : Option KeyEntryResponse :=
  if d.config.needGenerate pm k.uid then d.cache.cachedResponse k
  else if (d.cache.skipLeafHacks.lookup k).getD false then (d.cache.keys.lookup k).map Info.response
  else d.cache.patchedResponses.lookup k

/-- The descriptor of the owner means the key `k` and nothing else. -/
structure OnlyMeans (d : Daemon) (k : Key) (desc : KeyDescriptor) : Prop where
  resolves : ∀ k', k' ∈ d.cache.resolveOwnerKeys k.uid desc ↔ k' = k
  grant : d.grantFor k.uid desc.nspace = none
  tracked : d.isPassthroughDescriptor k.uid desc = d.passthrough.isTracked k

theorem findSome?_of_only {α β : Type} {l : List α} {a : α} (h : ∀ a', a' ∈ l ↔ a' = a)
    (f : α → Option β) : l.findSome? f = f a := by
  cases hf : l.findSome? f with
  | none => exact (List.findSome?_eq_none_iff.1 hf a ((h a).2 rfl)).symm
  | some b =>
    obtain ⟨a', ha', hb⟩ := List.exists_of_findSome?_eq_some hf
    rw [← (h a').1 ha', hb]

theorem plainAuto_of_isPlainAuto {c : PkgConfig} (h : c.isPlainAuto uid = true) :
    ∃ ps, c.uidPackages.lookup uid = some ps ∧ plainAuto c.packageModes ps = true := by
  unfold PkgConfig.isPlainAuto PkgConfig.isExplicitGenerate PkgConfig.isExplicitLeafHack
    PkgConfig.hasTargetMode at h
  cases hps : c.uidPackages.lookup uid with
  | none =>
    rw [hps] at h
    cases h
  | some ps =>
    rw [hps] at h
    split_ifs at h with hexplicit
    obtain ⟨p, hp, hm⟩ := List.any_eq_true.1 h
    simp only [Bool.or_eq_true, List.any_eq_true, decide_eq_true_eq, not_or, not_exists,
      not_and] at hexplicit
    exact ⟨ps, rfl, PkgConfig.plainAuto_iff.2 ⟨⟨p, hp, by simpa using hm⟩, fun p hp =>
      ⟨hexplicit.1 p hp, hexplicit.2 p hp⟩⟩⟩

theorem NotPlainAuto.isPlainAuto (h : d.NotPlainAuto pm uid) : d.config.isPlainAuto uid = false := by
  by_contra hauto
  obtain ⟨ps, hps, hplain⟩ := plainAuto_of_isPlainAuto (Bool.not_eq_false _ ▸ hauto)
  have := h ps (by rw [PkgConfig.packages, hps]; rfl)
  rw [hplain] at this
  cases this

theorem NotPlainAuto.isPlainAuto_checked (h : d.NotPlainAuto env.packageManager uid) :
    (d.checked env uid).config.isPlainAuto uid = false := by
  have hchecked : (d.checked env uid).NotPlainAuto env.packageManager uid := by
    intro ps hps
    rw [checked, PkgConfig.checked_packages] at hps
    rw [checked, PkgConfig.checked_packageModes]
    exact h ps hps
  exact hchecked.isPlainAuto

theorem onlyMeans_of (hresolves : ∀ k', k' ∈ d.cache.resolveOwnerKeys k.uid desc ↔ k' = k)
    (hid : desc.nspace ≠ 0 → d.cache.grants.lookup desc.nspace = none ∧
      ∀ k', d.passthrough.byNspace.lookup desc.nspace = some k' → k' = k) :
    d.OnlyMeans k desc := by
  refine ⟨hresolves, ?_, ?_⟩
  · unfold grantFor
    split_ifs with hn
    · rw [(hid hn).1]
      rfl
    · rfl
  · have hdesc : d.passthrough.isTrackedDescriptor k.uid desc = true →
        d.passthrough.isTracked k = true := by
      intro h
      obtain ⟨k', hk'⟩ := Option.isSome_iff_exists.1 h
      rcases Option.or_eq_some_iff.1 hk' with hk' | ⟨-, hk'⟩
      · split_ifs at hk' with hn
        obtain ⟨hlookup, hk'⟩ := Option.filter_eq_some_iff.1 hk'
        obtain rfl := (hid hn).2 k' hlookup
        exact (Bool.and_eq_true_iff.1 hk').2
      · obtain ⟨hmap, hk'⟩ := Option.filter_eq_some_iff.1 hk'
        obtain ⟨a, ha, rfl⟩ := Option.map_eq_some_iff.1 hmap
        rwa [← (hresolves ⟨k.uid, a⟩).1 (mem_resolveOwnerKeys.2 (.inr ⟨a, ha, rfl⟩))]
    have hany : ((d.cache.resolveOwnerKeys k.uid desc).any fun k' => d.passthrough.isTracked k') =
        d.passthrough.isTracked k := by
      rw [Bool.eq_iff_iff, List.any_eq_true]
      constructor
      · rintro ⟨k', hk', h⟩
        rwa [(hresolves k').1 hk'] at h
      · exact fun h => ⟨k, (hresolves k).2 rfl, h⟩
    rw [isPassthroughDescriptor, TrickyStore.isPassthroughDescriptor, hany]
    cases h : d.passthrough.isTracked k with
    | true => exact Bool.or_true _
    | false =>
      rw [Bool.or_false]
      by_contra hd
      rw [hdesc (Bool.not_eq_false _ ▸ hd)] at h
      cases h

theorem onlyMeans_byAlias (ha : desc.keyAlias = some k.keyAlias)
    (hn : desc.nspace = 0 ∨ d.UnusedId desc.nspace) : d.OnlyMeans k desc := by
  have hunused (h : desc.nspace ≠ 0) : d.UnusedId desc.nspace := hn.resolve_left h
  refine onlyMeans_of (fun k' => ?_) fun hne => ⟨(hunused hne).grant, fun k' hk' => ?_⟩
  · rw [mem_resolveOwnerKeys]
    constructor
    · rintro (⟨hne, h | h⟩ | ⟨a, ha', rfl⟩)
      · rw [ownKey_eq_some, (hunused hne).key] at h
        cases h.1
      · obtain ⟨g, hg, -⟩ := grantedKey_eq_some.1 h
        rw [(hunused hne).grant] at hg
        cases hg
      · obtain rfl := Option.some.inj (ha.symm.trans ha')
        rfl
    · rintro rfl
      exact .inr ⟨_, ha, rfl⟩
  · rw [(hunused hne).tracked] at hk'
    cases hk'

theorem onlyMeans_byId (hids : DistinctIds d.cache d.passthrough) (ha : desc.keyAlias = none)
    (hn : desc.nspace ≠ 0) (hk : d.cache.keysByNspace.lookup desc.nspace = some k) :
    d.OnlyMeans k desc := by
  obtain ⟨hgrant, htracked⟩ := hids _ _ hk
  refine onlyMeans_of (fun k' => ?_) fun _ => ⟨hgrant, htracked⟩
  rw [mem_resolveOwnerKeys]
  constructor
  · rintro (⟨-, h | h⟩ | ⟨a, ha', -⟩)
    · exact Option.some.inj ((ownKey_eq_some.1 h).1.symm.trans hk)
    · obtain ⟨g, hg, -⟩ := grantedKey_eq_some.1 h
      rw [hgrant] at hg
      cases hg
    · rw [ha] at ha'
      cases ha'
  · rintro rfl
    exact .inl ⟨hn, .inl (ownKey_eq_some.2 ⟨hk, rfl⟩)⟩

/-- The pre-hook answers an owner that is targeted and not plain AUTO from `ownerRead`. -/
theorem preGetKeyEntry_owner (hkeyboxes : d.hasKeyboxes = true) (h : d.OnlyMeans k desc)
    (htracked : d.passthrough.isTracked k = false)
    (htargeted : d.config.needHack env.packageManager k.uid = true ∨
      d.config.needGenerate env.packageManager k.uid = true)
    (hplain : d.NotPlainAuto env.packageManager k.uid) :
    (d.preGetKeyEntry env k.uid (some desc)).2 =
      serveCached ((d.ownerRead env.packageManager k).map fun r => (k, r))
        (if d.config.needGenerate env.packageManager k.uid then .Skip else .Continue) := by
  have hpass : (d.checked env k.uid).isPassthroughDescriptor k.uid desc = false :=
    h.tracked.trans htracked
  have hgenerated : d.cache.findGeneratedOwner k.uid desc =
      (d.cache.keys.lookup k).map fun i => (k, i) := findSome?_of_only h.resolves _
  have hpatched : d.cache.resolvePatchedOwner k.uid desc =
      (d.cache.patchedResponses.lookup k).map fun r => (k, r) := findSome?_of_only h.resolves _
  have hflag : (d.checked env k.uid).cache.shouldSkipLeafHackFor k.uid desc =
      (d.cache.skipLeafHacks.lookup k).getD false :=
    congrArg (Option.getD · false) (findSome?_of_only h.resolves d.cache.skipLeafHacks.lookup)
  simp only [preGetKeyEntry, hkeyboxes, if_true, h.grant, preGetKeyEntryByMode, needGenerate, hpass,
    Bool.false_eq_true, if_false, hplain.isPlainAuto_checked, ownerRead, hflag]
  by_cases hgenerate : d.config.needGenerate env.packageManager k.uid = true
  · rw [if_pos hgenerate, if_pos hgenerate, if_pos hgenerate]
    show serveCached (d.cachedOwner k.uid desc) .Skip = _
    rw [cachedOwner, hgenerated, hpatched, cachedResponse]
    cases d.cache.keys.lookup k <;> rfl
  · have hhack : (d.checked env k.uid).needHack env k.uid = true :=
      (PkgConfig.checked_needHack k.uid).trans (htargeted.resolve_right hgenerate)
    rw [if_neg hgenerate, if_neg hgenerate, if_neg hgenerate, if_pos hhack]
    split_ifs
    · show serveCached ((d.cache.findGeneratedOwner k.uid desc).map _) .Continue = _
      rw [hgenerated, Option.map_map, Option.map_map]
      rfl
    · show serveCached (d.cache.resolvePatchedOwner k.uid desc) .Continue = _
      rw [hpatched]

/-- A grantee that is not plain AUTO is answered from the cached response. -/
theorem preGetKeyEntry_grantee {g : GrantInfo} {r : KeyEntryResponse} (hkeyboxes : d.hasKeyboxes = true)
    (hn : desc.nspace ≠ 0) (hg : d.cache.grants.lookup desc.nspace = some g)
    (hallows : g.allows KeyPermission.GET_INFO = true) (hplain : d.NotPlainAuto pm g.granteeUid)
    (hr : d.cache.cachedResponse g.key = some r) :
    (d.preGetKeyEntry env g.granteeUid (some desc)).2 = .typedObjectReply g.key r := by
  have hgrant : d.grantFor g.granteeUid desc.nspace = some g := by
    rw [grantFor, if_pos hn, hg, Option.filter_some, if_pos (by simp)]
  simp only [preGetKeyEntry, hkeyboxes, if_true, hgrant, hallows, hr, hplain.isPlainAuto,
    GetKeyEntryCurrentModeAuthority.shouldServeGrantCachedResponse, Bool.not_false]

theorem certificates_of_cached {x : Exchange} {r : KeyEntryResponse}
    (h : (x.preHook P d).2 = .typedObjectReply k r) :
    (d.serve P x).2.certificates = some r.certificates := by
  rw [serve_of_override h]
  rfl

/-- The post-hook leaves an exception of the real keystore alone. -/
theorem certificates_of_notFound {x : Exchange} (hrequest : x.request = .getKeyEntry (some desc))
    (h : (x.preHook P d).2 = .Continue) (hreply : x.reply.bind Parcel.readException = none) :
    (d.serve P x).2.certificates = none := by
  have hpost : (x.postHook P (x.preHook P d).1).2 = .Skip := by
    simp only [Exchange.postHook, post, hrequest, onPostTransact]
    cases hx : x.reply with
    | none => rfl
    | some p =>
      rw [hx] at hreply
      simp only [postGetKeyEntry, show p.readException = none from hreply]
  rw [serve_of_kept h hpost]
  simp only [Answer.certificates, hreply, Option.bind_none]

theorem isPatchedKey_iff {c : CertificateAliasCache} :
    c.isPatchedKey k = true ↔ ∃ r, c.cachedResponse k = some r := by
  unfold isPatchedKey cachedResponse HashMap.containsKey
  rw [← Option.isSome_iff_exists, Option.isSome_or, Option.isSome_map]

/-- The owner finds an entry, and the one that a grantee finds has the same certificates. -/
theorem foundTogether_iff (hflags : d.cache.FlagsForged) (hentry : d.cache.isPatchedKey k = true) :
    d.FoundTogether pm k ↔ ∃ r, d.ownerRead pm k = some r ∧
      (d.Granted pm k → ∃ r', d.cache.cachedResponse k = some r' ∧
        r'.certificates = r.certificates) := by
  unfold FoundTogether ownerRead cachedResponse
  by_cases hgenerate : d.config.needGenerate pm k.uid = true
  · refine ⟨fun _ => ?_, fun _ => .inl hgenerate⟩
    rw [if_pos hgenerate]
    obtain ⟨r, hr⟩ := isPatchedKey_iff.1 hentry
    exact ⟨r, hr, fun _ => ⟨r, hr, rfl⟩⟩
  rw [if_neg hgenerate]
  cases hi : d.cache.keys.lookup k with
  | none =>
    have hkey : d.cache.keys.containsKey k = false := HashMap.containsKey_eq_false.2 hi
    refine ⟨fun _ => ?_, fun _ => .inr (.inl hkey)⟩
    -- no forged key, hence no flag: the re-signed entry is all there is
    have hflag : d.cache.skipLeafHacks.lookup k = none := by
      cases hb : d.cache.skipLeafHacks.lookup k with
      | none => rfl
      | some b => simp [hflags k b hb] at hkey
    rw [isPatchedKey, hkey, Bool.false_or, HashMap.containsKey_eq_true] at hentry
    obtain ⟨r, hr⟩ := hentry
    rw [hflag, hr]
    exact ⟨r, rfl, fun _ => ⟨_, rfl, rfl⟩⟩
  | some i =>
    have hkey : d.cache.keys.containsKey k = true := HashMap.containsKey_eq_true.2 ⟨i, hi⟩
    by_cases hflag : d.cache.skipLeafHacks.lookup k = some true
    · refine ⟨fun _ => ?_, fun _ => .inr (.inr (.inl hflag))⟩
      rw [hflag]
      exact ⟨i.response, rfl, fun _ => ⟨_, rfl, rfl⟩⟩
    · have hflag' : (d.cache.skipLeafHacks.lookup k).getD false = false := by
        cases hb : d.cache.skipLeafHacks.lookup k with
        | none => rfl
        | some b =>
          cases b with
          | false => rfl
          | true => exact absurd hb hflag
      simp only [hgenerate, hkey, hflag, hflag', false_or, Bool.false_eq_true, if_false,
        Bool.true_eq_false, Option.map_some, Option.some_or, Option.some.injEq, exists_eq_left',
        exists_and_left]
      exact exists_congr fun r => and_congr_right fun _ => imp_congr_right fun _ => eq_comm

/-- A read in the surroundings of `pm`, of which the real keystore knows nothing. -/
def getKeyEntryBy (pm : PackageManager) (uid : Int) (desc : KeyDescriptor) : Exchange :=
  { uid, request := .getKeyEntry (some desc), preEnv := { packageManager := pm }
    postEnv := { packageManager := pm } }

/-- Where ids are distinct and flags are those of forged keys, reads agree exactly if all paths find
the key together. -/
theorem readsAgree_iff (hids : DistinctIds d.cache d.passthrough) (hflags : d.cache.FlagsForged)
    (hkeyboxes : d.hasKeyboxes = true) (hentry : d.cache.isPatchedKey k = true)
    (htracked : d.passthrough.isTracked k = false)
    (htargeted : d.config.needHack pm k.uid = true ∨ d.config.needGenerate pm k.uid = true)
    (hplain : d.NotPlainAuto pm k.uid) : ReadsAgree pm d k P ↔ d.FoundTogether pm k := by
  have howner {x : Exchange} {desc : KeyDescriptor} (huid : x.uid = k.uid)
      (hrequest : x.request = .getKeyEntry (some desc)) (hpm : x.preEnv.packageManager = pm)
      (hdesc : d.OnlyMeans k desc) : (x.preHook P d).2 =
        serveCached ((d.ownerRead pm k).map fun r => (k, r))
          (if d.config.needGenerate pm k.uid then .Skip else .Continue) := by
    subst hpm
    simp only [Exchange.preHook, pre, hrequest, onPreTransact, huid]
    exact preGetKeyEntry_owner hkeyboxes hdesc htracked htargeted hplain
  have hgrantee {x : Exchange} {desc : KeyDescriptor} {g : GrantInfo} {r : KeyEntryResponse}
      (huid : x.uid = g.granteeUid) (hrequest : x.request = .getKeyEntry (some desc))
      (hn : desc.nspace ≠ 0) (hg : d.cache.grants.lookup desc.nspace = some g)
      (hallows : g.allows KeyPermission.GET_INFO = true) (hv : d.NotPlainAuto pm g.granteeUid)
      (hr : d.cache.cachedResponse g.key = some r) :
      (d.serve P x).2.certificates = some r.certificates := by
    refine certificates_of_cached (k := g.key) ?_
    simp only [Exchange.preHook, pre, hrequest, onPreTransact, huid]
    exact preGetKeyEntry_grantee hkeyboxes hn hg hallows hv hr
  rw [foundTogether_iff hflags hentry]
  constructor
  · rintro ⟨certs, h⟩
    have halias := h (getKeyEntryBy pm k.uid { keyAlias := some k.keyAlias })
      ⟨⟨_, rfl, .byAlias _ rfl (.inl rfl)⟩, rfl, fun _ => rfl⟩
    have hpre := howner (x := getKeyEntryBy pm k.uid { keyAlias := some k.keyAlias }) rfl rfl rfl
      (onlyMeans_byAlias rfl (.inl rfl))
    cases hr : d.ownerRead pm k with
    | none =>
      rw [hr] at hpre
      have hnone : (d.serve P (getKeyEntryBy pm k.uid
          { keyAlias := some k.keyAlias })).2.certificates = none := by
        split_ifs at hpre
        · rw [serve_of_skip hpre]
          rfl
        · exact certificates_of_notFound rfl hpre rfl
      rw [hnone] at halias
      cases halias
    | some r =>
      rw [hr] at hpre
      rw [certificates_of_cached hpre] at halias
      refine ⟨r, rfl, ?_⟩
      rintro ⟨n, g, hn, hg, rfl, hallows, hv⟩
      obtain ⟨r', hr'⟩ := isPatchedKey_iff.1 hentry
      have hgrant := h (getKeyEntryBy pm g.granteeUid { nspace := n })
        ⟨⟨_, rfl, .byGrant _ g hn hg rfl hallows hv⟩, rfl, fun _ => rfl⟩
      rw [hgrantee (x := getKeyEntryBy pm g.granteeUid { nspace := n }) rfl rfl hn hg hallows hv hr',
        ← halias] at hgrant
      exact ⟨r', hr', Option.some.inj hgrant⟩
  · rintro ⟨r, hr, hgranted⟩
    refine ⟨r.certificates, fun x hx => ?_⟩
    obtain ⟨desc, hrequest, hreads⟩ := hx.names
    have hcached (huid : x.uid = k.uid) (hdesc : d.OnlyMeans k desc) :
        (d.serve P x).2.certificates = some r.certificates := by
      have hpre := howner huid hrequest hx.packageManager hdesc
      rw [hr] at hpre
      exact certificates_of_cached hpre
    generalize huid : x.uid = uid at hreads
    cases hreads with
    | byAlias _ ha hn => exact hcached huid (onlyMeans_byAlias ha hn)
    | byId _ ha hn hk => exact hcached huid (onlyMeans_byId hids ha hn hk)
    | byGrant _ g hn hg hk hallows hv =>
      obtain ⟨r', hr', hcerts⟩ := hgranted ⟨desc.nspace, g, hn, hg, hk, hallows, hv⟩
      rw [hgrantee huid hrequest hn hg hallows hv (hk ▸ hr'), hcerts]

end Daemon

/-- In a run that brings in no id twice, the reads of a cached key agree exactly in the states in which
all paths find it together.  The modes of the uids are those that the daemon has resolved. -/
theorem readsAgree_iff_foundTogether (P : Platform) (pm : PackageManager) (es : List Event) (k : Key)
    (hfresh : Machine.AllSteps (World.next P) World.FreshIds {} es)
    (hkeyboxes : (World.run P {} es).daemon.hasKeyboxes = true)
    (hentry : (World.run P {} es).daemon.cache.isPatchedKey k = true)
    (htracked : (World.run P {} es).daemon.passthrough.isTracked k = false)
    (htargeted : (World.run P {} es).daemon.config.needHack pm k.uid = true ∨
      (World.run P {} es).daemon.config.needGenerate pm k.uid = true)
    (hplain : (World.run P {} es).daemon.NotPlainAuto pm k.uid) :
    ReadsAgree pm (World.run P {} es).daemon k P ↔
      (World.run P {} es).daemon.FoundTogether pm k := by
  have hids : DistinctIds (World.run P {} es).daemon.cache (World.run P {} es).daemon.passthrough := by
    refine hfresh.invariant
      (I := fun w : World => DistinctIds w.daemon.cache w.daemon.passthrough) ?_
      fun w e hw he => World.distinctIds_step hw he
    intro n k hk
    cases hk
  have hflags : (World.run P {} es).daemon.cache.FlagsForged := by
    refine World.run_daemon P {} (I := fun d => d.cache.FlagsForged)
      (fun _ _ h hs => Daemon.flagsForged_step h hs) ?_ es
    intro k b hb
    cases hb
  exact Daemon.readsAgree_iff hids hflags hkeyboxes hentry htracked htargeted hplain

namespace Demo

/-- The owner's uid has two packages. -/
def sharedUid : PackageManager :=
  { packageManager with getPackagesForUid := fun uid =>
      if uid = owner then some ["com.owner", "com.shared"] else packageManager.getPackagesForUid uid }

def sharedEnv (n : Int) : Env := { env n with packageManager := sharedUid }

/-- The lines of `target.txt` for the two packages of the owner and for the other app. -/
def sharedModes (m : Mode) : HashMap String Mode :=
  AList.insert "com.shared" .LEAF_HACK (modes m .GENERATE)

/-- The owner forges and grants a key while one of its packages is in `!` mode; then both are in `?`
mode. -/
def forgeShared : List Event :=
  [.initializeConfig (some (sharedModes .GENERATE)) (some keyboxes),
    .arrive 1 owner (generate ecParams) (sharedEnv 5),
    .arrive 2 owner (.grant (some byAlias) other KeyPermission.GET_INFO) (sharedEnv 6),
    .targetChanged (sharedModes .LEAF_HACK)]

/-- The owner puts another certificate into the key's entry. -/
def updateForged : Event :=
  .arrive 3 owner (.updateSubcomponent (some byAlias) (some [10]) none) (sharedEnv 7)

/-- The owner reads the alias; the real keystore throws KEY_NOT_FOUND. -/
def readUpdated : Exchange :=
  { uid := owner, request := .getKeyEntry (some byAlias), preEnv := sharedEnv 8, postEnv := sharedEnv 9
    reply := some [.int (-8), .other [], .int ResponseCode.KEY_NOT_FOUND] }

end Demo

open Demo in
theorem readsAgree_forgeShared :
    ReadsAgree sharedUid (World.run platform {} forgeShared).daemon key platform := by
  refine (readsAgree_iff_foundTogether platform sharedUid forgeShared key ?_ (by decide) (by decide)
    (by decide) (.inl (by decide)) ?_).2 (.inr (.inr (.inl (by decide))))
  · have hunused {n : Int} {request : Request} {w : World}
        (hgrants : w.daemon.cache.grants.lookup n = none)
        (hkeys : w.daemon.cache.keysByNspace.lookup n = none)
        (htracked : w.daemon.passthrough.byNspace.lookup n = none) :
        FreshFor w.daemon.cache w.daemon.passthrough request n :=
      ⟨fun _ => ⟨hgrants, htracked⟩, fun _ _ _ _ => hkeys⟩
    refine Machine.allSteps_cons trivial (Machine.allSteps_cons ?_ ?_)
    · exact hunused (by decide) (by decide) (by decide)
    refine Machine.allSteps_cons ?_ (Machine.allSteps_cons trivial Machine.allSteps_nil)
    exact hunused (by decide) (by decide) (by decide)
  · intro ps hps
    obtain rfl := Option.some.inj hps
    decide

open Demo in
/-- An update drops the flag: the grantee reads the new certificate, and the owner is sent to the real
keystore, which does not know the key. -/
theorem update_hides_forged_key :
    ¬ ∀ P pm es k, let d := (World.run P {} es).daemon
      d.hasKeyboxes = true → d.cache.isPatchedKey k = true → d.passthrough.isTracked k = false →
        (d.config.needHack pm k.uid = true ∨ d.config.needGenerate pm k.uid = true) →
          d.NotPlainAuto pm k.uid → ReadsAgree pm d k P := by
  intro h
  obtain ⟨certs, hcerts⟩ := h platform sharedUid (forgeShared ++ [updateForged]) key (by decide)
    (by decide) (by decide) (.inl (by decide)) (fun ps hps => by
      obtain rfl := Option.some.inj hps
      decide)
  have hread := hcerts readUpdated ⟨⟨byAlias, rfl, .byAlias byAlias rfl (.inl rfl)⟩, rfl, fun _ => rfl⟩
  have hnone : ((World.run platform {} (forgeShared ++ [updateForged])).daemon.serve platform
      readUpdated).2.certificates = none := by decide
  rw [hnone] at hread
  cases hread

end TrickyStore
