import TrickyStore.Proof.AloofHooks
import TrickyStore.Proof.GrantedUpdate

/-!
# Clearing a key

What `clearSyntheticCertificateState` and `cleanupKey` leave: nothing of the key, under whatever alias,
id or grant id it is asked for, and everything of the other keys.  The cache finds the entry that an id
stands for in `keysByNspace`, while the entry carries its id in its metadata as well; the two agree here
as far as the id is known at all.
-/

open Lib

namespace TrickyStore

open CertificateAliasCache

/-- An id in the metadata of a forged key stands for no other key. -/
def CertificateAliasCache.IdsAgree (c : CertificateAliasCache) : Prop :=
  ∀ k i n k', c.keys.lookup k = some i → i.response.nspace = some n →
    c.keysByNspace.lookup n = some k' → k' = k

namespace Daemon

/-- The id, or the id of a grant, is one of `k`. -/
def IsIdOf (d : Daemon) (n : Int) (k : Key) : Prop :=
  d.cache.keysByNspace.lookup n = some k ∨ d.passthrough.byNspace.lookup n = some k ∨
    ∃ g, d.cache.grants.lookup n = some g ∧ g.key = k

/-- Nothing is kept for `k`, and whatever a descriptor of any caller still finds was there for another
key. -/
structure Forgets (d : Daemon) (k : Key) (d' : Daemon) : Prop where
  lacks : d'.cache.Lacks k
  leafAlgorithms : d'.leafAlgorithms.lookup k = none
  generated : ∀ uid desc i, d'.cache.findGeneratedKey uid desc = some i →
    ∃ k', k' ≠ k ∧ d.cache.keys.lookup k' = some i
  patched : ∀ uid desc r, d'.cache.resolvePatchedResponse uid desc = some r →
    ∃ k', k' ≠ k ∧ d.cache.patchedResponses.lookup k' = some r
  skipped : ∀ uid desc, d'.cache.shouldSkipLeafHackFor uid desc = true →
    ∃ k', k' ≠ k ∧ d.cache.skipLeafHacks.lookup k' = some true
  granted : ∀ uid n g, d'.grantFor uid n = some g → g.key ≠ k ∧ d.grantFor uid n = some g ∧
    d'.cache.cachedResponse g.key = d.cache.cachedResponse g.key

/-- `k` is gone from the cache, and every other key is as it was. -/
structure Cleared (d : Daemon) (k : Key) (d' : Daemon) : Prop where
  forgets : d.Forgets k d'
  others : d.SameExcept k d'

/-- `k` is no passthrough key either, and has no file once the executor has run its tasks. -/
structure CleanedUp (d : Daemon) (k : Key) (d' : Daemon) : Prop extends d.Cleared k d' where
  untracked : ∀ desc, desc.keyAlias = some k.keyAlias →
    (∀ k', desc.nspace ≠ 0 → d.IsIdOf desc.nspace k' → k' = k) →
      d'.isPassthroughDescriptor k.uid desc = false
  file : d'.persistence.drain.files.lookup k = none

variable {d d' : Daemon} {k : Key}

/-! ## The cleared key -/

/-- After the clearing, the entries that are left are those of other keys, as they were. -/
theorem lookup_erase_other {V : Type} {m : HashMap Key V} {k' : Key} {v : V}
    (h : (AList.erase k m).lookup k' = some v) : k' ≠ k ∧ m.lookup k' = some v :=
  HashMap.lookup_erase_eq_some.1 h

theorem lacks_clear (k : Key) (c : CertificateAliasCache) : (c.clear k).Lacks k where
  keys := AList.lookup_erase k _
  keyPairs := AList.lookup_erase k _
  skipLeafHacks := AList.lookup_erase k _
  keysByNspace m := by
    rw [clear_keysByNspace_eq_some]
    simp
  patchedResponses := AList.lookup_erase k _
  grants m g hg := by
    rw [clear_grants, HashMap.lookup_removeIf_eq_some, decide_eq_false_iff_not] at hg
    exact hg.2
  usageRemaining := AList.lookup_erase k _

theorem grantFor_clear {uid n : Int} {g : GrantInfo} (hc : d'.cache = d.cache.clear k)
    (h : d'.grantFor uid n = some g) : g.key ≠ k ∧ d.grantFor uid n = some g := by
  obtain ⟨hn, hlookup, hgrantee⟩ := grantFor_eq_some h
  rw [hc, clear_grants, HashMap.lookup_removeIf_eq_some, decide_eq_false_iff_not] at hlookup
  refine ⟨hlookup.2, ?_⟩
  rw [grantFor, if_pos hn, hlookup.1]
  simp [hgrantee]

theorem forgets_clear (hc : d'.cache = d.cache.clear k) (hl : d'.leafAlgorithms = d.leafAlgorithms.erase k) :
    d.Forgets k d' where
  lacks := hc ▸ lacks_clear k d.cache
  leafAlgorithms := hl ▸ AList.lookup_erase k _
  generated uid desc i hi := by
    obtain ⟨⟨k', i'⟩, howner, rfl⟩ := Option.map_eq_some_iff.1 hi
    obtain ⟨-, hlookup⟩ := findGeneratedOwner_eq_some howner
    rw [hc] at hlookup
    exact ⟨k', lookup_erase_other hlookup⟩
  patched uid desc r hr := by
    obtain ⟨⟨k', r'⟩, howner, rfl⟩ := Option.map_eq_some_iff.1 hr
    obtain ⟨-, hlookup⟩ := resolvePatchedOwner_eq_some howner
    rw [hc] at hlookup
    exact ⟨k', lookup_erase_other hlookup⟩
  skipped uid desc h := by
    unfold shouldSkipLeafHackFor at h
    cases hfound : (d'.cache.resolveOwnerKeys uid desc).findSome? fun k => d'.cache.skipLeafHacks.lookup k with
    | none =>
      rw [hfound] at h
      cases h
    | some b =>
      rw [hfound, Option.getD_some] at h
      subst h
      obtain ⟨k', -, hlookup⟩ := List.exists_of_findSome?_eq_some hfound
      rw [hc] at hlookup
      exact ⟨k', lookup_erase_other hlookup⟩
  granted uid n g hg := by
    obtain ⟨hk, hbefore⟩ := grantFor_clear hc hg
    refine ⟨hk, hbefore, ?_⟩
    rw [hc, cachedResponse, cachedResponse, clear_keys, clear_patchedResponses, AList.lookup_erase_ne hk,
      AList.lookup_erase_ne hk]

/-- Every key that the descriptor may mean is the one that is tracked no longer. -/
theorem isPassthroughDescriptor_cleanupKey {desc : KeyDescriptor} (halias : desc.keyAlias = some k.keyAlias)
    (hids : ∀ k', desc.nspace ≠ 0 → d.IsIdOf desc.nspace k' → k' = k) :
    (d.cleanupKey k).isPassthroughDescriptor k.uid desc = false := by
  have huntracked : (d.cleanupKey k).passthrough.isTracked k = false :=
    Bool.eq_false_iff.2 fun h => (PassthroughKeyRegistry.isTracked_remove_iff.1 h).1 rfl
  have hresolve (k' : Key) (h : k' ∈ (d.cleanupKey k).cache.resolveOwnerKeys k.uid desc) : k' = k := by
    rcases mem_resolveOwnerKeys.1 h with ⟨hn, hown | hgrant⟩ | ⟨a, ha, rfl⟩
    · exact hids k' hn (.inl (clear_keysByNspace_eq_some.1 (ownKey_eq_some.1 hown).1).1)
    · obtain ⟨g, hg, -, rfl⟩ := grantedKey_eq_some.1 hgrant
      exact hids _ hn (.inr (.inr ⟨g, (HashMap.lookup_removeIf_eq_some.1 hg).1, rfl⟩))
    · rw [halias] at ha
      cases ha
      rfl
  have htracked : (d.cleanupKey k).passthrough.isTrackedDescriptor k.uid desc = false := by
    unfold PassthroughKeyRegistry.isTrackedDescriptor PassthroughKeyRegistry.resolve
    rw [halias, Option.map_some, Option.filter_some, Option.isSome_eq_false_iff, Option.isNone_iff_eq_none,
      Option.or_eq_none_iff]
    refine ⟨?_, by rw [huntracked]; rfl⟩
    split_ifs with hn
    · rw [Option.filter_eq_none_iff]
      intro k' hk'
      have hkept := (HashMap.lookup_removeIf_eq_some.1 hk').1
      rw [hids k' hn (.inr (.inl hkept)), huntracked]
      simp
    · rfl
  rw [isPassthroughDescriptor, TrickyStore.isPassthroughDescriptor, htracked, Bool.false_or]
  refine List.any_eq_false.2 fun k' hk' => ?_
  rw [hresolve k' hk', huntracked]
  simp

end Daemon

/-- Clearing a key is complete and touches no other key, with its file or without, and cleaning it up takes
its tracking and its file away as well. -/
theorem clearing_is_complete (d : Daemon) (k : Key) (h : d.cache.IdsAgree) :
    (∀ includePersistence, d.Cleared k (d.clearSyntheticCertificateState k includePersistence)) ∧
      d.CleanedUp k (d.cleanupKey k) := by
  refine ⟨fun b => ⟨Daemon.forgets_clear rfl rfl, Daemon.sameExcept_clear (h k) b⟩, ?_⟩
  have hcleared : d.Cleared k (d.cleanupKey k) :=
    ⟨Daemon.forgets_clear rfl rfl, (Daemon.sameExcept_clear (h k) true).relinquish⟩
  refine { hcleared with untracked := fun desc => Daemon.isPassthroughDescriptor_cleanupKey, file := ?_ }
  show (d.persistence.deleteKey k).settled.lookup k = none
  rw [PersistenceManager.settled_deleteKey]
  exact AList.lookup_erase k _

namespace Demo

/-- Two apps have forged keys under one alias. -/
def bothForged : Daemon :=
  (World.run platform {} (start .GENERATE .GENERATE ++
    [.arrive 1 owner (generate ecParams) (env 5), .arrive 2 other (generate ecParams) (env 6)])).daemon

end Demo

open Demo in
theorem clearing_is_complete_of_one :
    bothForged.cache.keys.containsKey key = true ∧ bothForged.cache.keys.containsKey ⟨other, "a"⟩ = true ∧
      (∀ b, bothForged.Cleared key (bothForged.clearSyntheticCertificateState key b)) ∧
      bothForged.CleanedUp key (bothForged.cleanupKey key) := by
  refine ⟨by decide, by decide, clearing_is_complete bothForged key fun k i n k' hk hn hk' => ?_⟩
  have hall := HashMap.of_entries_all (m := bothForged.cache.keys) (p := fun k i =>
    i.response.nspace.all fun n => (bothForged.cache.keysByNspace.lookup n).all fun k' => k' = k) (by decide) hk
  rw [hn, Option.all_some, hk', Option.all_some] at hall
  exact of_decide_eq_true hall

end TrickyStore
