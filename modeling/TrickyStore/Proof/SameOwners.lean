import TrickyStore.Proof.ForgedRequests
import TrickyStore.Proof.OwnershipExclusive

/-!
# Hooks that do nothing

A hook leaves a request alone when it answers nothing and every entry, id, grant and counter of the
cache, and every tracked key, looks the same afterwards.  Which hooks run is not asked here: a hook that
clears a key of which nothing is known leaves everything as it was.
-/

open Lib

namespace TrickyStore

open CertificateAliasCache

/-- Everything in the cache looks the same. -/
structure CertificateAliasCache.Same (c c' : CertificateAliasCache) : Prop where
  keys : ∀ k, c'.keys.lookup k = c.keys.lookup k
  keyPairs : ∀ k, c'.keyPairs.lookup k = c.keyPairs.lookup k
  skipLeafHacks : ∀ k, c'.skipLeafHacks.lookup k = c.skipLeafHacks.lookup k
  keysByNspace : ∀ n, c'.keysByNspace.lookup n = c.keysByNspace.lookup n
  patchedResponses : ∀ k, c'.patchedResponses.lookup k = c.patchedResponses.lookup k
  grants : ∀ n, c'.grants.lookup n = c.grants.lookup n
  usageRemaining : ∀ k, c'.usageRemaining.lookup k = c.usageRemaining.lookup k

/-- The cache has nothing about the key, except that the id `n` may stand for it. -/
structure CertificateAliasCache.KnowsOnly (c : CertificateAliasCache) (k : Key) (n : Option Int) :
    Prop where
  keys : c.keys.lookup k = none
  keyPairs : c.keyPairs.lookup k = none
  skipLeafHacks : c.skipLeafHacks.lookup k = none
  keysByNspace : ∀ m, c.keysByNspace.lookup m = some k ↔ n = some m ∧ m ≠ 0
  patchedResponses : c.patchedResponses.lookup k = none
  grants : ∀ m g, c.grants.lookup m = some g → g.key ≠ k
  usageRemaining : c.usageRemaining.lookup k = none

/-- The cache has nothing about the key. -/
abbrev CertificateAliasCache.Lacks (c : CertificateAliasCache) (k : Key) : Prop := c.KnowsOnly k none

/-- Everything in the registry looks the same. -/
structure PassthroughKeyRegistry.Same (r r' : PassthroughKeyRegistry) : Prop where
  tracked : ∀ k, r'.isTracked k = r.isTracked k
  byNspace : ∀ n, r'.byNspace.lookup n = r.byNspace.lookup n

structure PassthroughKeyRegistry.Lacks (r : PassthroughKeyRegistry) (k : Key) : Prop where
  tracked : r.isTracked k = false
  byNspace : ∀ n, r.byNspace.lookup n ≠ some k

/-! ## Operations that change nothing -/

namespace CertificateAliasCache

variable {c c' c'' : CertificateAliasCache} {k : Key} {n : Option Int}

theorem Same.refl : c.Same c :=
  ⟨fun _ => rfl, fun _ => rfl, fun _ => rfl, fun _ => rfl, fun _ => rfl, fun _ => rfl, fun _ => rfl⟩

theorem Same.knowsOnly (h : c.Same c') (hk : c.KnowsOnly k n) : c'.KnowsOnly k n where
  keys := (h.keys k).trans hk.keys
  keyPairs := (h.keyPairs k).trans hk.keyPairs
  skipLeafHacks := (h.skipLeafHacks k).trans hk.skipLeafHacks
  keysByNspace := fun m => by rw [h.keysByNspace, hk.keysByNspace]
  patchedResponses := (h.patchedResponses k).trans hk.patchedResponses
  grants := fun m g hg => hk.grants m g (by rw [← h.grants, hg])
  usageRemaining := (h.usageRemaining k).trans hk.usageRemaining

theorem Same.symm (h : c.Same c') : c'.Same c :=
  ⟨fun k => (h.keys k).symm, fun k => (h.keyPairs k).symm, fun k => (h.skipLeafHacks k).symm,
    fun n => (h.keysByNspace n).symm, fun k => (h.patchedResponses k).symm, fun n => (h.grants n).symm,
    fun k => (h.usageRemaining k).symm⟩

theorem Same.knowsOnly_iff (h : c.Same c') : c'.KnowsOnly k n ↔ c.KnowsOnly k n :=
  ⟨h.symm.knowsOnly, h.knowsOnly⟩

/-- Removing one key keeps a map exactly if the key is not in it. -/
theorem erase_same_iff {V : Type} {m : HashMap Key V} :
    (∀ k', (AList.erase k m).lookup k' = m.lookup k') ↔ m.lookup k = none := by
  constructor
  · intro h
    rw [← h k, HashMap.lookup_erase_ite, if_pos rfl]
  · intro h k'
    rw [HashMap.lookup_erase_ite]
    split_ifs with hk
    · rw [hk, h]
    · rfl

/-- Clearing a key and registering an id for it changes nothing exactly if the id is all that is known
of the key. -/
theorem clear_register_same_iff : c.Same ((c.clear k).register k n) ↔ c.KnowsOnly k n := by
  have hids (m : Int) (k' : Key) : ((c.clear k).register k n).keysByNspace.lookup m = some k' ↔
      (n = some m ∧ m ≠ 0 ∧ k' = k) ∨ (¬ (n = some m ∧ m ≠ 0) ∧ c.keysByNspace.lookup m = some k' ∧
        k' ≠ k ∧ ∀ i, c.keys.lookup k = some i → i.response.nspace ≠ some m) := by
    rw [register_keysByNspace_eq_some, clear_keysByNspace_eq_some]
  have hgrants (m : Int) (g : GrantInfo) : ((c.clear k).register k n).grants.lookup m = some g ↔
      c.grants.lookup m = some g ∧ g.key ≠ k := by
    rw [register_grants, clear_grants, HashMap.lookup_removeIf_eq_some, decide_eq_false_iff_not]
  constructor
  · intro h
    refine ⟨?_, ?_, ?_, fun m => ?_, ?_, fun m g hg => ?_, ?_⟩
    · exact erase_same_iff.1 fun k' => by rw [← h.keys k', register_keys, clear_keys]
    · exact erase_same_iff.1 fun k' => by rw [← h.keyPairs k', register_keyPairs, clear_keyPairs]
    · exact erase_same_iff.1 fun k' => by
        rw [← h.skipLeafHacks k', register_skipLeafHacks, clear_skipLeafHacks]
    · rw [← h.keysByNspace m, hids]
      tauto
    · exact erase_same_iff.1 fun k' => by
        rw [← h.patchedResponses k', register_patchedResponses, clear_patchedResponses]
    · rw [← h.grants m, hgrants] at hg
      exact hg.2
    · exact erase_same_iff.1 fun k' => by
        rw [← h.usageRemaining k', register_usageRemaining, clear_usageRemaining]
  · intro h
    refine ⟨fun k' => ?_, fun k' => ?_, fun k' => ?_, fun m => ?_, fun k' => ?_, fun m => ?_,
      fun k' => ?_⟩
    · rw [register_keys, clear_keys, erase_same_iff.2 h.keys]
    · rw [register_keyPairs, clear_keyPairs, erase_same_iff.2 h.keyPairs]
    · rw [register_skipLeafHacks, clear_skipLeafHacks, erase_same_iff.2 h.skipLeafHacks]
    · ext k'
      rw [hids]
      by_cases hk : k' = k
      · subst hk
        rw [h.keysByNspace m]
        tauto
      · simp only [hk, h.keys, and_false, false_or, not_false_eq_true, ne_eq, reduceCtorEq,
          false_implies, implies_true, and_true]
        refine ⟨fun h => h.2, fun hm => ⟨fun hn => ?_, hm⟩⟩
        rw [(h.keysByNspace m).2 hn] at hm
        exact hk (Option.some.inj hm).symm
    · rw [register_patchedResponses, clear_patchedResponses, erase_same_iff.2 h.patchedResponses]
    · ext g
      rw [hgrants]
      exact ⟨fun h => h.1, fun hg => ⟨hg, h.grants m g hg⟩⟩
    · rw [register_usageRemaining, clear_usageRemaining, erase_same_iff.2 h.usageRemaining]

theorem clear_same_iff : c.Same (c.clear k) ↔ c.Lacks k := clear_register_same_iff (n := none)

end CertificateAliasCache

namespace PassthroughKeyRegistry

variable {r : PassthroughKeyRegistry} {k : Key} {n : Option Int}

theorem Same.refl : r.Same r := ⟨fun _ => rfl, fun _ => rfl⟩

theorem Same.lacks_iff {r' : PassthroughKeyRegistry} (h : r.Same r') : r'.Lacks k ↔ r.Lacks k :=
  ⟨fun hk => ⟨(h.tracked k).symm.trans hk.tracked, fun n => h.byNspace n ▸ hk.byNspace n⟩,
    fun hk => ⟨(h.tracked k).trans hk.tracked, fun n => (h.byNspace n).symm ▸ hk.byNspace n⟩⟩

theorem remove_same_iff : r.Same (r.remove k) ↔ r.Lacks k := by
  constructor
  · intro h
    refine ⟨?_, fun m hm => ?_⟩
    · rw [← h.tracked k]
      exact (Bool.not_eq_true _).mp fun htracked => (PassthroughKeyRegistry.isTracked_remove_iff.1 htracked).1 rfl
    · rw [← h.byNspace m] at hm
      simpa using (HashMap.lookup_removeIf_eq_some.1 hm).2
  · intro h
    refine ⟨fun k' => ?_, fun m => ?_⟩
    · by_cases hk : k' = k
      · rw [hk, h.tracked]
        exact (Bool.not_eq_true _).mp fun htracked => (PassthroughKeyRegistry.isTracked_remove_iff.1 htracked).1 rfl
      · rw [Bool.eq_iff_iff, PassthroughKeyRegistry.isTracked_remove_iff]
        exact and_iff_right hk
    · refine HashMap.lookup_removeIf_of_kept fun k' hk' => ?_
      have hne : k' ≠ k := by
        rintro rfl
        exact h.byNspace m hk'
      exact decide_eq_false hne

theorem promote_same_iff : r.Same (r.promote k n) ↔
    r.isTracked k = true ∧ ∀ m, n = some m → m ≠ 0 → r.byNspace.lookup m = some k := by
  have htracked (k' : Key) : (r.promote k n).isTracked k' = if k' = k then true else r.isTracked k' :=
    HashMap.containsKey_insert ..
  constructor
  · intro h
    refine ⟨?_, fun m hn hm => ?_⟩
    · rw [← h.tracked k, htracked, if_pos rfl]
    · rw [← h.byNspace m]
      simp [promote, hn, hm]
  · rintro ⟨hk, hids⟩
    refine ⟨fun k' => ?_, fun m => ?_⟩
    · rw [htracked]
      split_ifs with hk'
      · rw [hk', hk]
      · rfl
    · cases n with
      | none => rfl
      | some n =>
        by_cases hn : n = 0
        · simp [promote, hn]
        · simp only [promote, ne_eq, hn, not_false_eq_true, if_true, HashMap.lookup_insert_ite]
          split_ifs with hm
          · rw [hm, hids n rfl hn]
          · rfl

end PassthroughKeyRegistry

/-! ## Hooks -/

/-- Nothing of the cache and the registry differs. -/
structure Daemon.OwnersSame (d d' : Daemon) : Prop where
  cache : d.cache.Same d'.cache
  passthrough : d.passthrough.Same d'.passthrough

/-- The hook answers nothing and changes no owner. -/
def Daemon.Aloof (d : Daemon) (outcome : Daemon × Result) : Prop :=
  outcome.2.isOverride = false ∧ d.OwnersSame outcome.1

namespace Daemon

variable {d d' : Daemon} {k : Key}

theorem OwnersSame.of_owners (hc : d'.cache = d.cache) (hp : d'.passthrough = d.passthrough) :
    d.OwnersSame d' :=
  ⟨hc ▸ .refl, hp ▸ .refl⟩

/-- The clock is no owner. -/
theorem aloof_tick_iff {o : Daemon × Result} : d.Aloof (o.1.tick, o.2) ↔ d.Aloof o :=
  ⟨fun h => ⟨h.1, h.2.cache, h.2.passthrough⟩, fun h => ⟨h.1, h.2.cache, h.2.passthrough⟩⟩

theorem ownersSame_clear_iff (hc : d'.cache = d.cache.clear k) (hp : d'.passthrough = d.passthrough) :
    d.OwnersSame d' ↔ d.cache.Lacks k := by
  rw [← clear_same_iff, ← hc]
  exact ⟨fun h => h.cache, fun h => ⟨h, hp ▸ .refl⟩⟩

theorem ownersSame_cleanup_iff (hc : d'.cache = d.cache.clear k)
    (hp : d'.passthrough = d.passthrough.remove k) :
    d.OwnersSame d' ↔ d.cache.Lacks k ∧ d.passthrough.Lacks k := by
  rw [← clear_same_iff, ← hc, ← PassthroughKeyRegistry.remove_same_iff, ← hp]
  exact ⟨fun h => ⟨h.cache, h.passthrough⟩, fun h => ⟨h.1, h.2⟩⟩

end Daemon

end TrickyStore
