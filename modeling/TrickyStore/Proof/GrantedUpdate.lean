import TrickyStore.Proof.DiskAgreement
import TrickyStore.Proof.PassthroughTracking

/-!
# Updates through a grant

`updateSubcomponent` finds the key behind the id of a grant, which is one of the owner.  What it drops then
is cached under the alias of that key and the uid of the caller, so the certificate from before the update
stays unless the owner has granted the key to itself.
-/

open Lib

namespace TrickyStore

open CertificateAliasCache

/-- Of the cache, the grants, the passthrough tracking and the files, only what concerns `k` has changed. -/
structure Daemon.SameExcept (d : Daemon) (k : Key) (d' : Daemon) : Prop where
  keys : ∀ k', k' ≠ k → d'.cache.keys.lookup k' = d.cache.keys.lookup k'
  keyPairs : ∀ k', k' ≠ k → d'.cache.keyPairs.lookup k' = d.cache.keyPairs.lookup k'
  skipLeafHacks : ∀ k', k' ≠ k → d'.cache.skipLeafHacks.lookup k' = d.cache.skipLeafHacks.lookup k'
  patchedResponses : ∀ k', k' ≠ k →
    d'.cache.patchedResponses.lookup k' = d.cache.patchedResponses.lookup k'
  usageRemaining : ∀ k', k' ≠ k → d'.cache.usageRemaining.lookup k' = d.cache.usageRemaining.lookup k'
  leafAlgorithms : ∀ k', k' ≠ k → d'.leafAlgorithms.lookup k' = d.leafAlgorithms.lookup k'
  ids : ∀ k', k' ≠ k → ∀ n,
    d'.cache.keysByNspace.lookup n = some k' ↔ d.cache.keysByNspace.lookup n = some k'
  grants : ∀ g : GrantInfo, g.key ≠ k → ∀ n,
    d'.cache.grants.lookup n = some g ↔ d.cache.grants.lookup n = some g
  tracked : ∀ k', k' ≠ k → d'.passthrough.isTracked k' = d.passthrough.isTracked k'
  trackedIds : ∀ k', k' ≠ k → ∀ n,
    d'.passthrough.byNspace.lookup n = some k' ↔ d.passthrough.byNspace.lookup n = some k'
  files : ∀ k', k' ≠ k → d'.persistence.files.lookup k' = d.persistence.files.lookup k'
  settled : ∀ k', k' ≠ k → d'.persistence.settled.lookup k' = d.persistence.settled.lookup k'

namespace Exchange

variable (P : Platform) (x : Exchange) (d : Daemon) (desc : KeyDescriptor)

/-- A grantee updates a real key with a re-signed response by the id of its grant, and the real keystore
accepts that. -/
structure UpdatesGranted (g : GrantInfo) : Prop where
  request : ∃ cert chain, x.request = .updateSubcomponent (some desc) cert chain
  keyAlias : desc.keyAlias = none
  grant : d.cache.grants.lookup desc.nspace = some g
  grantee : g.granteeUid = x.uid
  allows : g.allows KeyPermission.UPDATE = true
  patched : d.cache.patchedResponses.containsKey g.key = true
  real : d.cache.keys.containsKey g.key = false
  forwarded : x.isForwarded P d = true
  accepted : x.resultCode = 0 ∧ ∃ reply, x.reply = some reply ∧ reply.readException.isSome = true

/-- The response from before the update is gone, and nothing of another key has changed. -/
structure UpdatesOnly (k : Key) : Prop where
  dropped : (d.serve P x).1.cache.patchedResponses.lookup k = none
  others : d.SameExcept k (d.serve P x).1

/-- The grantee is the owner of the key, and has no other key of its own under the id of the grant. -/
def GrantedToOwner (k : Key) : Prop :=
  match d.cache.ownKey x.uid desc.nspace with
  | some k' => k' = k
  | none => desc.nspace ≠ 0 ∧ k.uid = x.uid

end Exchange

namespace Daemon

variable {P : Platform} {x : Exchange} {d d' : Daemon} {desc : KeyDescriptor} {uid : Int} {g : GrantInfo}
  {k : Key} {cert chain : Option Bytes}

theorem lookup_deleteKey_of_ne {p : PersistenceManager} {k' : Key} (hk : k' ≠ k) (b : Bool) :
    (if b then p.deleteKey k else p).settled.lookup k' = p.settled.lookup k' := by
  cases b with
  | false => rfl
  | true =>
    show (p.deleteKey k).settled.lookup k' = _
    rw [PersistenceManager.settled_deleteKey]
    exact AList.lookup_erase_ne hk

theorem files_deleteKey {p : PersistenceManager} (b : Bool) :
    (if b then p.deleteKey k else p).files = p.files := by
  cases b <;> rfl

/-- Were the id that the entry carries registered for another key, this one would lose it. -/
theorem sameExcept_clear (h : ∀ i n k', d.cache.keys.lookup k = some i → i.response.nspace = some n →
    d.cache.keysByNspace.lookup n = some k' → k' = k) (b : Bool) :
    d.SameExcept k (d.clearSyntheticCertificateState k b) where
  keys _ hk := AList.lookup_erase_ne hk
  keyPairs _ hk := AList.lookup_erase_ne hk
  skipLeafHacks _ hk := AList.lookup_erase_ne hk
  patchedResponses _ hk := AList.lookup_erase_ne hk
  usageRemaining _ hk := AList.lookup_erase_ne hk
  leafAlgorithms _ hk := AList.lookup_erase_ne hk
  ids k' hk n := by
    show (d.cache.clear k).keysByNspace.lookup n = some k' ↔ _
    rw [clear_keysByNspace_eq_some]
    exact ⟨fun hn => hn.1, fun hn => ⟨hn, hk, fun i hi hid => hk (h i n k' hi hid hn)⟩⟩
  grants g hg n := by
    show (d.cache.clear k).grants.lookup n = some g ↔ _
    rw [clear_grants, HashMap.lookup_removeIf_eq_some, decide_eq_false_iff_not]
    exact and_iff_left hg
  tracked _ _ := rfl
  trackedIds _ _ _ := .rfl
  files k' _ := congrArg (AList.lookup k') (files_deleteKey b)
  settled _ hk := lookup_deleteKey_of_ne hk b

theorem SameExcept.relinquish (h : d.SameExcept k d') :
    d.SameExcept k (d'.relinquishPassthroughOwnership k) where
  keys := h.keys
  keyPairs := h.keyPairs
  skipLeafHacks := h.skipLeafHacks
  patchedResponses := h.patchedResponses
  usageRemaining := h.usageRemaining
  leafAlgorithms := h.leafAlgorithms
  ids := h.ids
  grants := h.grants
  tracked k' hk := by
    rw [← h.tracked k' hk]
    show HashMap.containsKey (d'.passthrough.tracked.erase k) k' = _
    rw [HashMap.containsKey_erase, if_neg hk]
    rfl
  trackedIds k' hk n := by
    rw [← h.trackedIds k' hk n]
    show (d'.passthrough.byNspace.removeIf fun _ k' => k' = k).lookup n = some k' ↔ _
    rw [HashMap.lookup_removeIf_eq_some, decide_eq_false_iff_not]
    exact and_iff_left hk
  files := h.files
  settled := h.settled

theorem sameExcept_invalidate (h : d.cache.keys.lookup k = none) (b : Bool) :
    d.SameExcept k (d.invalidateCertificateResponseState k b) := by
  have hcleared : d.SameExcept k (d.clearSyntheticCertificateState k false) := by
    apply sameExcept_clear
    intro i n k' hi
    rw [h] at hi
    cases hi
  cases b with
  | false => exact hcleared
  | true => exact hcleared.relinquish

theorem SameExcept.tick (h : d.SameExcept k d') : d.SameExcept k d'.tick :=
  ⟨h.keys, h.keyPairs, h.skipLeafHacks, h.patchedResponses, h.usageRemaining, h.leafAlgorithms, h.ids, h.grants,
    h.tracked, h.trackedIds, h.files, h.settled⟩

/-! ## What the two hooks clear -/

/-- A pre-hook that forwards the request clears an alias of the caller, or nothing. -/
theorem preUpdateSubcomponent_cases (uid : Int) (d : Daemon) (desc : KeyDescriptor)
    (cert chain : Option Bytes) :
    (∃ reply origin, (d.preUpdateSubcomponent uid (some desc) cert chain).2 = .OverrideReply 0 reply origin) ∨
      d.preUpdateSubcomponent uid (some desc) cert chain = ((d.invalidatedBefore uid desc).elim d
        fun a => d.invalidateCertificateResponseState ⟨uid, a⟩ false, .Continue) := by
  unfold invalidatedBefore
  have houtcome := preUpdateSubcomponent_outcome uid d desc cert chain
  generalize d.preUpdateSubcomponent uid (some desc) cert chain = outcome at houtcome ⊢
  cases houtcome with
  | refused => exact .inl ⟨_, _, rfl⟩
  | untouched htarget =>
    simp only [htarget]
    exact .inr rfl
  | updated => exact .inl ⟨_, _, rfl⟩
  | cleared k htarget =>
    simp only [htarget]
    exact .inr rfl

/-- A post-hook after success clears an alias of the caller and its tracking, or nothing. -/
theorem postUpdateSubcomponent_accepted (uid : Int) (d : Daemon) (desc : KeyDescriptor) :
    (d.postUpdateSubcomponent uid (some desc) 0).1 = (d.invalidatedAfter uid desc).elim d
      fun a => d.invalidateCertificateResponseState ⟨uid, a⟩ true := by
  unfold postUpdateSubcomponent invalidatedAfter
  cases halias : desc.keyAlias.or (d.cache.findAliasForNspace uid desc.nspace) <;> simp only [halias] <;> rfl

/-- The key that an update by the id of a grant of `k` clears. -/
def clearedKey (c : CertificateAliasCache) (uid n : Int) (k : Key) : Option Key :=
  (c.ownKey uid n).or (if n ≠ 0 then some ⟨uid, k.keyAlias⟩ else none)

theorem clearedKey_uid {c : CertificateAliasCache} {n : Int} {k' : Key}
    (h : clearedKey c uid n k = some k') : k' = ⟨uid, k'.keyAlias⟩ := by
  rcases Option.or_eq_some_iff.1 h with h | ⟨-, h⟩
  · rw [← (ownKey_eq_some.1 h).2]
  · split_ifs at h
    cases h
    rfl

/-- The granted key is cleared if it is the caller's own. -/
theorem clearedKey_eq_iff :
    clearedKey d.cache x.uid desc.nspace k = some k ↔ x.GrantedToOwner d desc k := by
  unfold clearedKey Exchange.GrantedToOwner
  cases d.cache.ownKey x.uid desc.nspace with
  | some k' => rw [Option.some_or, Option.some.injEq]
  | none =>
    rw [Option.none_or]
    split_ifs with hn
    · constructor
      · intro h
        exact ⟨hn, (congrArg Key.uid (Option.some.inj h)).symm⟩
      · rintro ⟨-, huid⟩
        rw [← huid]
    · exact iff_of_false (by simp) fun h => hn h.1

/-- Once the pre-hook has cleared a key, the post-hook finds no other. -/
theorem ownKey_cleared {c : CertificateAliasCache} {n : Int} {k' : Key}
    (h : clearedKey c uid n k = some k') : (c.clear k').ownKey uid n = none := by
  refine Option.eq_none_iff_forall_ne_some.2 fun k'' hk'' => ?_
  obtain ⟨hlookup, huid⟩ := ownKey_eq_some.1 hk''
  obtain ⟨hlookup, hne, -⟩ := clear_keysByNspace_eq_some.1 hlookup
  rw [clearedKey, ownKey_eq_some.2 ⟨hlookup, huid⟩] at h
  exact hne (Option.some.inj h)

section GrantedUpdate

variable (h : x.UpdatesGranted P d desc g)
include h

/-- The pre-hook clears nothing under the id zero. -/
theorem invalidatedBefore_granted :
    d.invalidatedBefore x.uid desc =
      if desc.nspace = 0 then none
      else (clearedKey d.cache x.uid desc.nspace g.key).map Key.keyAlias := by
  unfold invalidatedBefore updateTarget resolveKey clearedKey
  rw [h.keyAlias, Option.map_none, Option.or_none]
  by_cases hn : desc.nspace = 0
  · simp [hn, grantFor]
  · have hgrant : d.grantFor x.uid desc.nspace = some g := by
      rw [grantFor, if_pos hn, h.grant, Option.filter_some, if_pos (by simpa using h.grantee)]
    have hpatched : d.cache.isPatchedKey g.key = true := by
      rw [isPatchedKey, h.patched, Bool.or_true]
    simp only [ne_eq, hn, not_false_eq_true, if_true, if_false, hgrant, h.allows, hpatched]
    cases d.cache.ownKey x.uid desc.nspace <;> rfl

theorem invalidatedAfter_granted {d' : Daemon} :
    d'.invalidatedAfter x.uid desc = (d'.cache.ownKey x.uid desc.nspace).map Key.keyAlias := by
  rw [invalidatedAfter, h.keyAlias, Option.none_or]
  rfl

theorem serve_granted : ∃ b, (d.serve P x).1 =
    ((clearedKey d.cache x.uid desc.nspace g.key).elim d
      fun k => d.invalidateCertificateResponseState k b).tick.tick := by
  obtain ⟨cert, chain, hx⟩ := h.request
  obtain ⟨hcode, reply, hreply, -⟩ := h.accepted
  have hpre := Exchange.preHook_of_request (P := P) d hx
  have hcases := preUpdateSubcomponent_cases x.uid d desc cert chain
  rcases hcases with ⟨reply, origin, hoverride⟩ | hcontinue
  · have hforwarded := h.forwarded
    simp only [Exchange.isForwarded, hpre, onPreTransact, hoverride] at hforwarded
    cases hforwarded
  · simp only [onPreTransact, hcontinue] at hpre
    rw [serve_of_continue (by rw [hpre]), Exchange.postHook_of_request _ hx, hpre, hreply, hcode]
    simp only [onPostTransact, postUpdateSubcomponent_accepted, invalidatedAfter_granted h,
      invalidatedBefore_granted h]
    by_cases hn : desc.nspace = 0
    · have hcleared : clearedKey d.cache x.uid desc.nspace g.key = d.cache.ownKey x.uid desc.nspace := by
        rw [clearedKey, if_neg (not_not.2 hn), Option.or_none]
      have htick : d.tick.cache.ownKey x.uid desc.nspace = d.cache.ownKey x.uid desc.nspace := rfl
      refine ⟨true, ?_⟩
      rw [if_pos hn, Option.elim_none, hcleared, htick]
      cases hown : d.cache.ownKey x.uid desc.nspace with
      | none => rfl
      | some k =>
        rw [Option.map_some, Option.elim_some, Option.elim_some, ← (ownKey_eq_some.1 hown).2]
        rfl
    · rw [if_neg hn]
      obtain ⟨k, hk⟩ : ∃ k, clearedKey d.cache x.uid desc.nspace g.key = some k := by
        rw [clearedKey, if_pos hn]
        exact ⟨_, Option.or_some⟩
      have hown : (d.invalidateCertificateResponseState k false).tick.cache.ownKey x.uid desc.nspace = none :=
        ownKey_cleared hk
      refine ⟨false, ?_⟩
      rw [hk, Option.map_some, Option.elim_some, Option.elim_some, ← clearedKey_uid hk, hown]
      rfl

end GrantedUpdate

end Daemon

/-- An update by the id of a grant affects the granted key, and no other, exactly if the owner has granted it
to itself. -/
theorem updates_only_granted_iff (P : Platform) (x : Exchange) (d : Daemon) (desc : KeyDescriptor)
    (g : GrantInfo) (h : x.UpdatesGranted P d desc g) :
    x.UpdatesOnly P d g.key ↔ x.GrantedToOwner d desc g.key := by
  obtain ⟨b, hserve⟩ := Daemon.serve_granted h
  rw [← Daemon.clearedKey_eq_iff]
  constructor
  · intro honly
    have hdropped := honly.dropped
    rw [hserve] at hdropped
    obtain ⟨r, hr⟩ := Option.isSome_iff_exists.1 h.patched
    cases hcleared : Daemon.clearedKey d.cache x.uid desc.nspace g.key with
    | none =>
      rw [hcleared] at hdropped
      exact absurd (hdropped.symm.trans hr) (by simp)
    | some k =>
      rw [hcleared] at hdropped
      by_contra hne
      have hkept : (d.cache.clear k).patchedResponses.lookup g.key = some r := by
        rw [clear_patchedResponses, AList.lookup_erase_ne fun hk => hne (by rw [hk]), hr]
      cases b <;> exact absurd (hdropped.symm.trans hkept) (by simp)
  · intro hcleared
    rw [hcleared, Option.elim_some] at hserve
    have hreal : d.cache.keys.lookup g.key = none := HashMap.containsKey_eq_false.1 h.real
    have hdropped : (d.cache.clear g.key).patchedResponses.lookup g.key = none := AList.lookup_erase _ _
    refine ⟨?_, ?_⟩
    · rw [hserve]
      cases b <;> exact hdropped
    · rw [hserve]
      exact (Daemon.sameExcept_invalidate hreal b).tick.tick

/-! ## Two apps with one alias -/

namespace Demo

/-- An app creates a real key under the alias, as the key `n`, and gets its certificates signed again. -/
def createResigned (id : ℕ) (uid n : Int) : List Event :=
  [.arrive id uid (generate ecParams) (env 5), .complete id 0 (some (created n (some [0x30]))) (env 6)]

/-- The owner lets the grantee update its key, under the grant id 77. -/
def shareForUpdate (grantee : Int) : List Event :=
  [.arrive 3 owner (.grant (some byAlias) grantee KeyPermission.UPDATE) (env 7),
    .complete 3 0 (some (.typedObject (.descriptor { domain := domainGrant, nspace := 77 }))) (env 8)]

/-- Both apps have a key under the alias, and the owner has shared its own. -/
def sharedForUpdate (grantee : Int) : Daemon :=
  (World.run platform {} (start .LEAF_HACK .LEAF_HACK ++ createResigned 1 owner 9 ++
    createResigned 2 other 10 ++ shareForUpdate grantee)).daemon

def byGrant : KeyDescriptor := { domain := domainGrant, nspace := 77 }

def updateByGrant (grantee : Int) : Exchange :=
  { uid := grantee, request := .updateSubcomponent (some byGrant) (some [0x40]) none
    preEnv := env 9, postEnv := env 10, reply := some .noException }

theorem updatesGranted_byGrant (grantee : Int) (h : grantee = owner ∨ grantee = other) :
    (updateByGrant grantee).UpdatesGranted platform (sharedForUpdate grantee) byGrant
      ⟨owner, grantee, key, KeyPermission.UPDATE⟩ := by
  rcases h with rfl | rfl
  all_goals exact ⟨⟨_, _, rfl⟩, rfl, by decide, rfl, by decide, by decide, by decide, by decide, rfl, _, rfl, rfl⟩

end Demo

open Demo in
theorem updates_only_granted_to_owner :
    (updateByGrant owner).UpdatesOnly platform (sharedForUpdate owner) key :=
  (updates_only_granted_iff platform (updateByGrant owner) (sharedForUpdate owner) byGrant
    ⟨owner, owner, key, KeyPermission.UPDATE⟩ (updatesGranted_byGrant owner (.inl rfl))).2
    ⟨by decide, rfl⟩

open Demo in
/-- The update of another app drops what is cached for its own key under the alias, and the old certificate of
the granted key is still served. -/
theorem update_drops_grantees_key :
    (updateByGrant other).UpdatesGranted platform (sharedForUpdate other) byGrant
        ⟨owner, other, key, KeyPermission.UPDATE⟩ ∧
      ((sharedForUpdate other).serve platform (updateByGrant other)).1.cache.patchedResponses.containsKey
        key = true ∧
      (sharedForUpdate other).cache.patchedResponses.containsKey ⟨other, "a"⟩ = true ∧
      ((sharedForUpdate other).serve platform (updateByGrant other)).1.cache.patchedResponses.containsKey
        ⟨other, "a"⟩ = false ∧
      ¬(updateByGrant other).UpdatesOnly platform (sharedForUpdate other) key := by
  have hstays : ((sharedForUpdate other).serve platform
      (updateByGrant other)).1.cache.patchedResponses.containsKey key = true := by decide
  refine ⟨updatesGranted_byGrant other (.inr rfl), hstays, by decide, by decide, fun honly => ?_⟩
  rw [HashMap.containsKey, honly.dropped] at hstays
  cases hstays

end TrickyStore
