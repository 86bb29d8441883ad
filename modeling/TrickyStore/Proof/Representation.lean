import TrickyStore.Proof.OwnershipExclusive
import TrickyStore.Proof.ReadPaths

/-!
# The representation of the keys

The maps of the cache are written one by one, by some twenty branches of the hooks.  What holds of
them together: ids, key pairs, flags and grants are those of keys that the daemon knows, and a key
is known under its own id only.
-/

open Lib

namespace TrickyStore

open CertificateAliasCache

/-- Whoever knows the key: it is forged, re-signed or tracked. -/
def Known (c : CertificateAliasCache) (p : PassthroughKeyRegistry) (k : Key) : Prop :=
  c.isPatchedKey k = true ∨ p.isTracked k = true

/-- The maps are about known keys, and the ids of forged keys are registered. -/
structure Indexed (c : CertificateAliasCache) (p : PassthroughKeyRegistry) : Prop where
  known : ∀ n k, c.keysByNspace.lookup n = some k → Known c p k
  oneId : ∀ n m k, c.keysByNspace.lookup n = some k → c.keysByNspace.lookup m = some k → n = m
  pairsForged : ∀ k v, c.keyPairs.lookup k = some v → c.keys.containsKey k = true
  grantsCached : ∀ n g, c.grants.lookup n = some g → c.isPatchedKey g.key = true
  idRegistered : ∀ k i n, c.keys.lookup k = some i → i.response.nspace = some n →
    c.keysByNspace.lookup n = some k

/-- A forged key has at most one grant to each grantee. -/
def CertificateAliasCache.OneGrant (c : CertificateAliasCache) : Prop :=
  ∀ n m g g', c.grants.lookup n = some g → c.grants.lookup m = some g' → g.key = g'.key →
    g.granteeUid = g'.granteeUid → c.keys.containsKey g.key = true → n = m

/-- The representation invariant of the cache. -/
structure Represents (c : CertificateAliasCache) (p : PassthroughKeyRegistry) : Prop
    extends Indexed c p where
  flagsForged : c.FlagsForged
  grantsOwned : c.GrantsOwned
  oneGrant : c.OneGrant

/-- No id is registered for the key. -/
def CertificateAliasCache.Unnamed (c : CertificateAliasCache) (k : Key) : Prop :=
  ∀ n, c.keysByNspace.lookup n ≠ some k

/-! ## One operation on the maps -/

namespace Indexed

variable {c : CertificateAliasCache} {p p' : PassthroughKeyRegistry} {k : Key}

theorem empty : Indexed {} {} where
  known := fun n k h => by cases h
  oneId := fun n m k h => by cases h
  pairsForged := fun k v h => by cases h
  grantsCached := fun n g h => by cases h
  idRegistered := fun k i n h => by cases h

theorem isPatchedKey_clear {k' : Key} (h : c.isPatchedKey k' = true) (hk : k' ≠ k) :
    (c.clear k).isPatchedKey k' = true := by
  rw [isPatchedKey, clear_keys, clear_patchedResponses, HashMap.containsKey_erase,
    HashMap.containsKey_erase, if_neg hk, if_neg hk]
  exact h

theorem unnamed_clear : (c.clear k).Unnamed k :=
  fun _ h => (clear_keysByNspace_eq_some.1 h).2.1 rfl

theorem clear (h : Indexed c p) : Indexed (c.clear k) p where
  known := by
    intro n k' hn
    obtain ⟨hn, hk, -⟩ := clear_keysByNspace_eq_some.1 hn
    exact (h.known n k' hn).imp (fun hc => isPatchedKey_clear hc hk) id
  oneId := fun n m k' hn hm => h.oneId n m k' (clear_keysByNspace_eq_some.1 hn).1
    (clear_keysByNspace_eq_some.1 hm).1
  pairsForged := by
    intro k' v hv
    rw [clear_keyPairs, HashMap.lookup_erase_eq_some] at hv
    exact containsKey_clear_keys.2 ⟨hv.1, h.pairsForged k' v hv.2⟩
  grantsCached := by
    intro n g hg
    obtain ⟨hg, hk⟩ := HashMap.lookup_removeIf_eq_some.1 hg
    exact isPatchedKey_clear (h.grantsCached n g hg) (of_decide_eq_false hk)
  idRegistered := by
    intro k' i n hi hn
    rw [clear_keys, HashMap.lookup_erase_eq_some] at hi
    refine clear_keysByNspace_eq_some.2 ⟨h.idRegistered k' i n hi.2 hn, hi.1, fun i' hi' hn' => ?_⟩
    -- the id of the cleared key is registered for that key, not for another
    have hsame := h.idRegistered k i' n hi' hn'
    rw [h.idRegistered k' i n hi.2 hn] at hsame
    exact hi.1 (Option.some.inj hsame)

/-- The flags and the counters are free, and the grants as long as they are of cached keys. -/
theorem congr {c' : CertificateAliasCache} (h : Indexed c p) (hids : c'.keysByNspace = c.keysByNspace)
    (hkeys : c'.keys = c.keys) (hpatched : c'.patchedResponses = c.patchedResponses)
    (hpairs : c'.keyPairs = c.keyPairs)
    (hgrants : ∀ n g, c'.grants.lookup n = some g → c.isPatchedKey g.key = true) : Indexed c' p := by
  have hcached (k' : Key) : c'.isPatchedKey k' = c.isPatchedKey k' := by
    rw [isPatchedKey, hkeys, hpatched, isPatchedKey]
  constructor
  · intro n k' hn
    rw [Known, hcached]
    exact h.known n k' (hids ▸ hn)
  · rw [hids]
    exact h.oneId
  · rw [hpairs, hkeys]
    exact h.pairsForged
  · intro n g hg
    rw [hcached]
    exact hgrants n g hg
  · rw [hkeys, hids]
    exact h.idRegistered

/-- The registry may drop a key without id, and gain any. -/
theorem of_tracked (h : Indexed c p)
    (hp : ∀ n k, c.keysByNspace.lookup n = some k → p.isTracked k = true → p'.isTracked k = true) :
    Indexed c p' :=
  { h with known := fun n k hn => (h.known n k hn).imp id (hp n k hn) }

theorem remove (h : Indexed c p) (hk : c.Unnamed k) : Indexed c (p.remove k) := by
  refine h.of_tracked fun n k' hn htracked => PassthroughKeyRegistry.isTracked_remove_iff.2 ⟨?_, htracked⟩
  rintro rfl
  exact hk n hn

theorem promote {n : Option Int} (h : Indexed c p) : Indexed c (p.promote k n) :=
  h.of_tracked fun _ _ _ htracked => isTracked_promote_iff.2 (.inr htracked)

theorem storeGenerated {info : Info} {pair : KeyPair} {chain : List Certificate} {n : Int}
    {skip : Bool} (h : Indexed c p) (hk : c.Unnamed k) (hn : c.keysByNspace.lookup n = none)
    (hid : info.response.nspace = some n) : Indexed (c.storeGenerated k info pair chain n skip) p := by
  have hkeys (k' : Key) : (c.storeGenerated k info pair chain n skip).keys.containsKey k' =
      if k' = k then true else c.keys.containsKey k' := HashMap.containsKey_insert ..
  have hmono {k' : Key} (hk' : c.keys.containsKey k' = true) :
      (c.storeGenerated k info pair chain n skip).keys.containsKey k' = true := by
    rw [hkeys, hk', ite_self]
  have hpatched {k' : Key} (hk' : c.isPatchedKey k' = true) :
      (c.storeGenerated k info pair chain n skip).isPatchedKey k' = true := by
    rw [isPatchedKey, Bool.or_eq_true] at hk' ⊢
    exact hk'.imp hmono id
  constructor
  · intro m k' hm
    rcases HashMap.lookup_insert_eq_some.1 hm with ⟨-, rfl⟩ | ⟨-, hm⟩
    · left
      rw [isPatchedKey, hkeys, if_pos rfl, Bool.true_or]
    · exact (h.known m k' hm).imp hpatched id
  · intro m m' k' hm hm'
    rcases HashMap.lookup_insert_eq_some.1 hm with ⟨rfl, rfl⟩ | ⟨-, hold⟩ <;>
      rcases HashMap.lookup_insert_eq_some.1 hm' with ⟨rfl, hk'⟩ | ⟨-, hold'⟩
    · rfl
    · exact absurd hold' (hk m')
    · subst hk'
      exact absurd hold (hk m)
    · exact h.oneId m m' k' hold hold'
  · intro k' v hv
    rw [hkeys]
    rcases HashMap.lookup_insert_eq_some.1 hv with ⟨rfl, -⟩ | ⟨hne, hv⟩
    · exact if_pos rfl
    · rw [if_neg hne]
      exact h.pairsForged k' v hv
  · exact fun m g hg => hpatched (h.grantsCached m g hg)
  · intro k' i m hi hm
    refine HashMap.lookup_insert_eq_some.2 ?_
    rcases HashMap.lookup_insert_eq_some.1 hi with ⟨rfl, rfl⟩ | ⟨-, hi⟩
    · exact .inl ⟨Option.some.inj (hm.symm.trans hid), rfl⟩
    · have hm := h.idRegistered k' i m hi hm
      refine .inr ⟨?_, hm⟩
      rintro rfl
      rw [hn] at hm
      cases hm

theorem insertPatched {r : KeyEntryResponse} (h : Indexed c p) :
    Indexed { c with patchedResponses := c.patchedResponses.insert k r } p := by
  have hpatched {k' : Key} (hk' : c.isPatchedKey k' = true) :
      ({ c with patchedResponses := c.patchedResponses.insert k r } :
        CertificateAliasCache).isPatchedKey k' = true := by
    rw [isPatchedKey, Bool.or_eq_true] at hk' ⊢
    refine hk'.imp id fun hr => ?_
    rw [HashMap.containsKey_insert, hr, ite_self]
  exact ⟨fun n k' hn => (h.known n k' hn).imp hpatched id, h.oneId, h.pairsForged,
    fun n g hg => hpatched (h.grantsCached n g hg), h.idRegistered⟩

theorem register {n : Option Int} (h : Indexed c p) (hk : c.Unnamed k)
    (hn : ∀ m, n = some m → c.keysByNspace.lookup m = none) (hknown : Known c p k) :
    Indexed (c.register k n) p := by
  have hpatched (k' : Key) : (c.register k n).isPatchedKey k' = c.isPatchedKey k' := by
    rw [isPatchedKey, register_keys, register_patchedResponses, ← isPatchedKey]
  constructor
  · intro m k' hm
    rw [Known, hpatched]
    rcases register_keysByNspace_eq_some.1 hm with ⟨-, -, rfl⟩ | ⟨-, hm⟩
    · exact hknown
    · exact h.known m k' hm
  · intro m m' k' hm hm'
    rcases register_keysByNspace_eq_some.1 hm with ⟨rfl, -, rfl⟩ | ⟨-, hold⟩ <;>
      rcases register_keysByNspace_eq_some.1 hm' with ⟨hn', -, hk'⟩ | ⟨-, hold'⟩
    · exact Option.some.inj hn'
    · exact absurd hold' (hk m')
    · subst hk'
      exact absurd hold (hk m)
    · exact h.oneId m m' k' hold hold'
  · intro k' v hv
    rw [register_keyPairs] at hv
    rw [register_keys]
    exact h.pairsForged k' v hv
  · intro m g hg
    rw [register_grants] at hg
    rw [hpatched]
    exact h.grantsCached m g hg
  · intro k' i m hi hm
    rw [register_keys] at hi
    have hm := h.idRegistered k' i m hi hm
    refine register_keysByNspace_eq_some.2 (.inr ⟨fun hnm => ?_, hm⟩)
    rw [hn m hnm.1] at hm
    cases hm

theorem updateKeyCertChain {publicCert certificateChain : Option Bytes} (h : Indexed c p) :
    Indexed (c.updateKeyCertChain k publicCert certificateChain) p := by
  have hpatched (k' : Key) :
      (c.updateKeyCertChain k publicCert certificateChain).isPatchedKey k' = c.isPatchedKey k' := by
    rw [isPatchedKey, containsKey_updateKeyCertChain_keys,
      containsKey_updateKeyCertChain_patchedResponses, ← isPatchedKey]
  constructor
  · intro n k' hn
    rw [Known, hpatched]
    exact h.known n k' hn
  · exact h.oneId
  · intro k' v hv
    rw [containsKey_updateKeyCertChain_keys]
    exact h.pairsForged k' v hv
  · intro n g hg
    rw [hpatched]
    exact h.grantsCached n g hg
  · intro k' i n hi hn
    rw [updateKeyCertChain_keys_lookup] at hi
    obtain ⟨i', hi', rfl⟩ := Option.map_eq_some_iff.1 hi
    refine h.idRegistered k' i' n hi' ?_
    rw [← hn]
    split_ifs <;> rfl

end Indexed

/-- Every hook keeps the maps about known keys, as long as the ids of new keys are not in use. -/
theorem HookStep.indexed {uid : Int} {request : Request} {now : ℕ} {ids : Int → Prop}
    {c c' : CertificateAliasCache} {p p' : PassthroughKeyRegistry}
    (h : HookStep uid request now ids c p c' p') (hc : Indexed c p)
    (hfresh : request.isGenerateKey = true → ∀ n, ids n → c.keysByNspace.lookup n = none) :
    Indexed c' p' := by
  have hgone {k : Key} : (c.clear k).Unnamed k := Indexed.unnamed_clear
  have hfree {k : Key} (hrequest : request.isGenerateKey = true) {n : Int} (hn : ids n) :
      (c.clear k).keysByNspace.lookup n = none := by
    refine Option.eq_none_iff_forall_ne_some.2 fun k' hk' => ?_
    rw [clear_keysByNspace_eq_some, hfresh hrequest n hn] at hk'
    cases hk'.1
  cases h with
  | unchanged => exact hc
  | cleared a => exact hc.clear
  | relinquished a => exact hc.clear.remove hgone
  | generated a info pair chain n skip _ hid hn hrequest =>
    exact (hc.clear.remove hgone).storeGenerated hgone (hfree hrequest hn) hid
  | patched a r _ hid hrequest =>
    have hpatched : Indexed { c.clear ⟨uid, a⟩ with
        patchedResponses := (c.clear ⟨uid, a⟩).patchedResponses.insert ⟨uid, a⟩ r }
        (p.remove ⟨uid, a⟩) := (hc.clear.remove hgone).insertPatched
    refine hpatched.register hgone (fun n hn => hfree hrequest (hid n hn)) (.inl ?_)
    rw [isPatchedKey, HashMap.containsKey_insert, if_pos rfl, Bool.or_true]
  | promoted a n hid hrequest =>
    exact hc.clear.promote.register hgone (fun m hm => hfree hrequest (hid m hm))
      (.inr (isTracked_promote_iff.2 (.inl rfl)))
  | unskipped => exact hc.congr rfl rfl rfl rfl hc.grantsCached
  | updated => exact hc.updateKeyCertChain
  | regranted n g _ _ _ _ hg =>
    refine hc.congr rfl rfl rfl rfl fun m g' hg' => ?_
    rcases HashMap.lookup_insert_eq_some.1 hg' with ⟨-, rfl⟩ | ⟨-, hg'⟩
    · exact hc.grantsCached n g hg
    · exact hc.grantsCached m g' hg'
  | granted n k _ granteeUid accessVector _ _ hk =>
    refine hc.congr rfl rfl rfl rfl fun m g' hg' => ?_
    rcases HashMap.lookup_insert_eq_some.1 hg' with ⟨-, rfl⟩ | ⟨-, hg'⟩
    · exact hk
    · exact hc.grantsCached m g' hg'
  | ungranted =>
    exact hc.congr rfl rfl rfl rfl
      fun m g' hg' => hc.grantsCached m g' (HashMap.lookup_removeIf_eq_some.1 hg').1
  | resigned => exact hc.insertPatched

/-! ## One grant to each grantee -/

namespace CertificateAliasCache.OneGrant

variable {c c' : CertificateAliasCache}

theorem empty : ({} : CertificateAliasCache).OneGrant := fun n m g g' h => by cases h

/-- Grants may go, and keys without grant may be forged. -/
theorem mono (h : c.OneGrant)
    (hgrants : ∀ n g, c'.grants.lookup n = some g → c.grants.lookup n = some g)
    (hkeys : ∀ n g, c'.grants.lookup n = some g → c'.keys.containsKey g.key = true →
      c.keys.containsKey g.key = true) : c'.OneGrant := by
  intro n m g g' hg hg' hkey hgrantee hforged
  exact h n m g g' (hgrants n g hg) (hgrants m g' hg') hkey hgrantee (hkeys n g hg hforged)

/-- A grant may be recorded when no other one gives the same forged key to the same grantee. -/
theorem insert {n : Int} {g : GrantInfo} (h : c.OneGrant)
    (hnew : ∀ m g', c.grants.lookup m = some g' → g'.key = g.key → g'.granteeUid = g.granteeUid →
      c.keys.containsKey g.key = true → m = n) :
    ({ c with grants := c.grants.insert n g } : CertificateAliasCache).OneGrant := by
  intro m m' g₁ g₂ hg₁ hg₂ hkey hgrantee hforged
  rcases HashMap.lookup_insert_eq_some.1 hg₁ with ⟨rfl, rfl⟩ | ⟨-, hold₁⟩ <;>
    rcases HashMap.lookup_insert_eq_some.1 hg₂ with ⟨rfl, rfl⟩ | ⟨-, hold₂⟩
  · rfl
  · exact (hnew m' g₂ hold₂ hkey.symm hgrantee.symm hforged).symm
  · exact hnew m g₁ hold₁ hkey hgrantee (hkey ▸ hforged)
  · exact h m m' g₁ g₂ hold₁ hold₂ hkey hgrantee hforged

theorem clear {k : Key} (h : c.OneGrant) : (c.clear k).OneGrant :=
  h.mono (fun _ _ hg => (HashMap.lookup_removeIf_eq_some.1 hg).1)
    fun _ _ _ hforged => (containsKey_clear_keys.1 hforged).2

end CertificateAliasCache.OneGrant

/-- No hook on another request than `grant` gives a forged key a second grant. -/
theorem HookStep.oneGrant {uid : Int} {request : Request} {now : ℕ} {ids : Int → Prop}
    {c c' : CertificateAliasCache} {p p' : PassthroughKeyRegistry}
    (h : HookStep uid request now ids c p c' p') (hc : c.OneGrant)
    (hgrant : ∀ kd v accessVector, request ≠ .grant kd v accessVector) : c'.OneGrant := by
  cases h with
  | unchanged | unskipped | resigned => exact hc
  | cleared | relinquished => exact hc.clear
  | generated a info pair chain n skip =>
    -- the grants of the new key have been removed before
    refine hc.clear.mono (fun _ _ hg => hg) fun m g hg hforged => ?_
    rw [storeGenerated, HashMap.containsKey_insert] at hforged
    rwa [if_neg (of_decide_eq_false (HashMap.lookup_removeIf_eq_some.1 hg).2)] at hforged
  | patched a r =>
    refine (hc.clear (k := ⟨uid, a⟩)).mono (fun m g hg => ?_) fun m g _ hforged => ?_
    · rwa [storePatched, register_grants] at hg
    · rwa [storePatched, register_keys] at hforged
  | promoted a n =>
    refine (hc.clear (k := ⟨uid, a⟩)).mono (fun m g hg => ?_) fun m g _ hforged => ?_
    · rwa [register_grants] at hg
    · rwa [register_keys] at hforged
  | updated k =>
    refine hc.mono (fun _ _ hg => hg) fun n g _ hforged => ?_
    rwa [containsKey_updateKeyCertChain_keys] at hforged
  | regranted _ _ kd accessVector hrequest => exact absurd hrequest (hgrant _ _ _)
  | granted _ _ kd v accessVector hrequest => exact absurd hrequest (hgrant _ _ _)
  | ungranted =>
    exact hc.mono (fun _ _ hg => (HashMap.lookup_removeIf_eq_some.1 hg).1) fun _ _ _ h => h

namespace Daemon

variable {P : Platform} {env : Env} {uid : Int} {d : Daemon} {kd : Option KeyDescriptor}
  {granteeUid : Int} {accessVector : BitVec 32}

theorem forgeGrant_oneGrant {k : Key} (h : d.cache.OneGrant) :
    (d.forgeGrant env uid k granteeUid accessVector).1.cache.OneGrant := by
  unfold forgeGrant
  split
  · next n g hg =>
    obtain ⟨hlookup, -⟩ := HashMap.firstEntry_eq_some hg
    refine h.insert fun m g' hg' hkey hgrantee hforged => ?_
    exact h m n g' g hg' hlookup hkey hgrantee (hkey ▸ hforged)
  · next hnone =>
    refine h.insert fun m g' hg' hkey hgrantee _ => ?_
    have hother := HashMap.firstEntry_eq_none hnone hg'
    simp [hkey, hgrantee] at hother

theorem pre_oneGrant (request : Request) (h : d.cache.OneGrant) :
    (d.pre P env uid request).1.cache.OneGrant := by
  by_cases hgrant : ∃ kd v accessVector, request = .grant kd v accessVector
  · obtain ⟨kd, v, accessVector, rfl⟩ := hgrant
    show (d.preGrant env uid kd v accessVector).1.cache.OneGrant
    unfold preGrant
    split
    · split
      · exact h
      · split_ifs
        · exact forgeGrant_oneGrant h
        · exact h
        · exact h
    · exact h
  · exact (pre_steps P env request).oneGrant h
      fun kd v accessVector hrequest => hgrant ⟨kd, v, accessVector, hrequest⟩

/-- The real keystore's grant is recorded beside no other one when the key has not been forged
meanwhile. -/
theorem post_oneGrant {request : Request} {resultCode : Int} {reply : Option Parcel}
    (h : d.cache.OneGrant)
    (hforged : ∀ kd v accessVector k, request = .grant kd v accessVector →
      kd.bind (d.cache.resolveKey uid) = some k → d.cache.keys.containsKey k = false) :
    (d.post P env uid request resultCode reply).1.cache.OneGrant := by
  by_cases hgrant : ∃ kd v accessVector, request = .grant kd v accessVector
  · obtain ⟨kd, v, accessVector, rfl⟩ := hgrant
    cases reply with
    | none => exact h
    | some reply =>
      show (d.postGrant uid kd v accessVector resultCode reply).1.cache.OneGrant
      unfold postGrant
      split
      · split
        · next k _ hkey =>
          split
          · split
            · refine h.insert fun _ _ _ _ _ hk => ?_
              rw [hforged kd v accessVector _ rfl hkey] at hk
              cases hk
            · exact h
          · exact h
        · exact h
      · exact h
  · exact (post_steps P env request resultCode reply).oneGrant h
      fun kd v accessVector hrequest => hgrant ⟨kd, v, accessVector, hrequest⟩

end Daemon

end TrickyStore
