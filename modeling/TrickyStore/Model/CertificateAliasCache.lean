import TrickyStore.Lib.HashMap
import TrickyStore.Model.KeyGenParameters

/-!
# The certificate alias cache and the passthrough registry

`CertificateAliasCache` holds the forged keys (`keys`, `keyPairs`, `skipLeafHacks`), the re-signed
responses of real keys (`patchedResponses`), the ids under which both are known (`keysByNspace`),
the grants (`grants`) and the usage counters (`usageRemaining`).  `PassthroughKeyRegistry` tracks
the keys whose chains must be delivered unmodified.  Both are indexed by the owner's uid and alias.
-/

open Lib

namespace TrickyStore

/-- `CertificateAliasCache.Key`, also used for `PassthroughKeyRegistry.KeyId` and
`CertificateHack.KeyIdentifier`, which have the same fields.  An alias has no unpaired surrogate. -/
structure Key where
  uid : Int
  keyAlias : String
deriving DecidableEq, Repr

/-- A forged key. -/
structure Info where
  keyPair : Option KeyPair
  secretKey : Option SecretKey
  response : KeyEntryResponse
  params : KeyGenParameters
deriving DecidableEq, Repr

/-- The id that the metadata of a response carries. -/
def KeyEntryResponse.nspace (r : KeyEntryResponse) : Option Int :=
  r.metadata.key.map KeyDescriptor.nspace

structure GrantInfo where
  ownerUid : Int
  granteeUid : Int
  key : Key
  accessVector : BitVec 32 := 0
deriving DecidableEq, Repr

/-- Whether the access vector contains the permission. -/
def GrantInfo.allows (g : GrantInfo) (permission : BitVec 32) : Bool :=
  g.accessVector &&& permission != 0

structure CertificateAliasCache where
  keys : HashMap Key Info := ∅
  keyPairs : HashMap Key (KeyPair × List Certificate) := ∅
  skipLeafHacks : HashMap Key Bool := ∅
  keysByNspace : HashMap Int Key := ∅
  patchedResponses : HashMap Key KeyEntryResponse := ∅
  grants : HashMap Int GrantInfo := ∅
  usageRemaining : HashMap Key Int := ∅

namespace CertificateAliasCache

variable (c : CertificateAliasCache) (uid : Int) (d : KeyDescriptor) (k : Key)

def getKeyPairs (keyAlias : String) : Option (KeyPair × List Certificate) :=
  c.keyPairs.lookup ⟨uid, keyAlias⟩

/-- The key registered under the id, when it is the caller's own. -/
def ownKey (nspace : Int) : Option Key := (c.keysByNspace.lookup nspace).filter fun k => k.uid = uid

/-- The key granted to the caller under the id. -/
def grantedKey (nspace : Int) : Option Key :=
  ((c.grants.lookup nspace).filter fun g => g.granteeUid = uid).map GrantInfo.key

def findAliasForNspace (nspace : Int) : Option String := (c.ownKey uid nspace).map Key.keyAlias

/-- The keys a descriptor may mean: by key id, by grant id, by alias, in this order. -/
def resolveOwnerKeys : List Key :=
  (if d.nspace ≠ 0 then (c.ownKey uid d.nspace).toList ++ (c.grantedKey uid d.nspace).toList
    else []) ++ (d.keyAlias.map fun a => (⟨uid, a⟩ : Key)).toList

/-- The entry of `keys` that `findGeneratedKey` returns, with the key it stands under. -/
def findGeneratedOwner : Option (Key × Info) :=
  (c.resolveOwnerKeys uid d).findSome? fun k => (c.keys.lookup k).map fun i => (k, i)

def findGeneratedKey : Option Info := (c.findGeneratedOwner uid d).map Prod.snd

/-- The entry of `patchedResponses` that `resolvePatchedResponse` returns, with its key. -/
def resolvePatchedOwner : Option (Key × KeyEntryResponse) :=
  (c.resolveOwnerKeys uid d).findSome? fun k => (c.patchedResponses.lookup k).map fun r => (k, r)

def resolvePatchedResponse : Option KeyEntryResponse :=
  (c.resolvePatchedOwner uid d).map Prod.snd

def isPatchedKey : Bool := c.keys.containsKey k || c.patchedResponses.containsKey k

def shouldSkipLeafHackFor : Bool :=
  ((c.resolveOwnerKeys uid d).findSome? fun k => c.skipLeafHacks.lookup k).getD false

def resolveKey : Option Key :=
  ((if d.nspace ≠ 0 then c.ownKey uid d.nspace else none).or
    (d.keyAlias.map fun a => (⟨uid, a⟩ : Key)))

/-- The response cached for a key: that of the forged key, else the re-signed one. -/
def cachedResponse : Option KeyEntryResponse :=
  ((c.keys.lookup k).map Info.response).or (c.patchedResponses.lookup k)

/-- Replaces the certificates of a response object. -/
def setCertificates (publicCert certificateChain : Option Bytes) (r : KeyEntryResponse) :
    KeyEntryResponse :=
  { r with metadata := { r.metadata with
      certificate := publicCert, certificateChain := certificateChain } }

def updateKeyCertChain (publicCert certificateChain : Option Bytes) : CertificateAliasCache :=
  { c with
    keys := match c.keys.lookup k with
      | some i => c.keys.insert k
          { i with response := setCertificates publicCert certificateChain i.response }
      | none => c.keys
    patchedResponses := match c.patchedResponses.lookup k with
      | some r => c.patchedResponses.insert k (setCertificates publicCert certificateChain r)
      | none => c.patchedResponses
    skipLeafHacks := c.skipLeafHacks.erase k }

/-- The part of `clearSyntheticCertificateState` that works on the maps of the cache. -/
def clear : CertificateAliasCache :=
  { keys := c.keys.erase k
    keyPairs := c.keyPairs.erase k
    skipLeafHacks := c.skipLeafHacks.erase k
    keysByNspace := HashMap.removeIf
      (match (c.keys.lookup k).bind fun i => i.response.nspace with
        | some n => c.keysByNspace.erase n
        | none => c.keysByNspace) fun _ k' => k' = k
    patchedResponses := c.patchedResponses.erase k
    grants := c.grants.removeIf fun _ g => g.key = k
    usageRemaining := c.usageRemaining.erase k }

/-- `keysByNspace[nspace] = key`, which the code writes only for an id other than zero. -/
def register (nspace : Option Int) : CertificateAliasCache :=
  match nspace with
  | some n => if n ≠ 0 then { c with keysByNspace := c.keysByNspace.insert n k } else c
  | none => c

end CertificateAliasCache

/-! ## The passthrough registry -/

structure PassthroughKeyRegistry where
  tracked : HashMap Key Unit := ∅
  byNspace : HashMap Int Key := ∅

namespace PassthroughKeyRegistry

variable (r : PassthroughKeyRegistry) (k : Key)

def promote (nspace : Option Int) : PassthroughKeyRegistry :=
  { tracked := r.tracked.insert k ()
    byNspace := match nspace with
      | some n => if n ≠ 0 then r.byNspace.insert n k else r.byNspace
      | none => r.byNspace }

def remove : PassthroughKeyRegistry :=
  { tracked := r.tracked.erase k
    byNspace := r.byNspace.removeIf fun _ k' => k' = k }

def isTracked : Bool := r.tracked.containsKey k

theorem isTracked_remove_iff {r : PassthroughKeyRegistry} {k k' : Key} :
    (r.remove k).isTracked k' = true ↔ k' ≠ k ∧ r.isTracked k' = true := by
  rw [isTracked, remove, HashMap.containsKey_erase]
  split_ifs with h <;> simp [h, isTracked]

def resolve (uid : Int) (keyAlias : Option String) (nspace : Int) : Option Key :=
  (if nspace ≠ 0 then
      (r.byNspace.lookup nspace).filter fun k => k.uid = uid && r.isTracked k
    else none).or
    ((keyAlias.map fun a => (⟨uid, a⟩ : Key)).filter fun k => r.isTracked k)

def isTrackedDescriptor (uid : Int) (d : KeyDescriptor) : Bool :=
  (r.resolve uid d.keyAlias d.nspace).isSome

end PassthroughKeyRegistry

def isPassthroughDescriptor (c : CertificateAliasCache) (r : PassthroughKeyRegistry) (uid : Int)
    (d : KeyDescriptor) : Bool :=
  r.isTrackedDescriptor uid d || (c.resolveOwnerKeys uid d).any fun k => r.isTracked k

/-! ## What the operations leave in the maps -/

namespace CertificateAliasCache

variable {c : CertificateAliasCache} {uid : Int} {d : KeyDescriptor} {k k' : Key}

theorem ownKey_eq_some {n : Int} :
    c.ownKey uid n = some k ↔ c.keysByNspace.lookup n = some k ∧ k.uid = uid := by
  simp [ownKey, Option.filter_eq_some_iff]

theorem grantedKey_eq_some {n : Int} :
    c.grantedKey uid n = some k ↔
      ∃ g, c.grants.lookup n = some g ∧ g.granteeUid = uid ∧ g.key = k := by
  simp [grantedKey, Option.filter_eq_some_iff, and_assoc]

theorem mem_resolveOwnerKeys :
    k ∈ c.resolveOwnerKeys uid d ↔
      (d.nspace ≠ 0 ∧ (c.ownKey uid d.nspace = some k ∨ c.grantedKey uid d.nspace = some k)) ∨
        ∃ a, d.keyAlias = some a ∧ k = ⟨uid, a⟩ := by
  have hAlias : k ∈ (d.keyAlias.map fun a => (⟨uid, a⟩ : Key)).toList ↔
      ∃ a, d.keyAlias = some a ∧ k = ⟨uid, a⟩ := by
    rw [Option.mem_toList, Option.map_eq_some_iff]
    simp only [eq_comm]
  unfold resolveOwnerKeys
  rw [List.mem_append, hAlias]
  split_ifs with h
  · simp only [List.mem_append, Option.mem_toList, h, ne_eq, not_false_eq_true, true_and]
  · simp only [List.not_mem_nil, h, false_and]

theorem resolveKey_uid (h : c.resolveKey uid d = some k) : k.uid = uid := by
  unfold resolveKey at h
  rcases Option.or_eq_some_iff.1 h with h | ⟨-, h⟩
  · split_ifs at h
    exact (ownKey_eq_some.1 h).2
  · obtain ⟨a, -, rfl⟩ := Option.map_eq_some_iff.1 h
    rfl

theorem findGeneratedOwner_eq_some {i : Info} (h : c.findGeneratedOwner uid d = some (k, i)) :
    k ∈ c.resolveOwnerKeys uid d ∧ c.keys.lookup k = some i := by
  obtain ⟨k', hk', h⟩ := List.exists_of_findSome?_eq_some h
  obtain ⟨i', hi', h⟩ := Option.map_eq_some_iff.1 h
  obtain ⟨rfl, rfl⟩ := Prod.mk.inj h
  exact ⟨hk', hi'⟩

theorem resolvePatchedOwner_eq_some {r : KeyEntryResponse}
    (h : c.resolvePatchedOwner uid d = some (k, r)) :
    k ∈ c.resolveOwnerKeys uid d ∧ c.patchedResponses.lookup k = some r := by
  obtain ⟨k', hk', h⟩ := List.exists_of_findSome?_eq_some h
  obtain ⟨r', hr', h⟩ := Option.map_eq_some_iff.1 h
  obtain ⟨rfl, rfl⟩ := Prod.mk.inj h
  exact ⟨hk', hr'⟩

section Clear

variable (c k)

@[simp] theorem clear_keys : (c.clear k).keys = c.keys.erase k := rfl
@[simp] theorem clear_keyPairs : (c.clear k).keyPairs = c.keyPairs.erase k := rfl
@[simp] theorem clear_skipLeafHacks : (c.clear k).skipLeafHacks = c.skipLeafHacks.erase k := rfl
@[simp] theorem clear_patchedResponses :
    (c.clear k).patchedResponses = c.patchedResponses.erase k := rfl
@[simp] theorem clear_usageRemaining :
    (c.clear k).usageRemaining = c.usageRemaining.erase k := rfl
@[simp] theorem clear_grants :
    (c.clear k).grants = c.grants.removeIf fun _ g => g.key = k := rfl

end Clear

theorem clear_keysByNspace_eq_some {n : Int} :
    (c.clear k).keysByNspace.lookup n = some k' ↔
      c.keysByNspace.lookup n = some k' ∧ k' ≠ k ∧
        ∀ i, c.keys.lookup k = some i → i.response.nspace ≠ some n := by
  simp only [clear, HashMap.lookup_removeIf_eq_some, decide_eq_false_iff_not]
  cases hk : c.keys.lookup k with
  | none => simp
  | some i =>
    cases hn : i.response.nspace with
    | none => simp [hn]
    | some m =>
      simp only [Option.bind_some, hn, HashMap.lookup_erase_eq_some, Option.some.injEq, forall_eq',
        ne_eq]
      constructor
      · rintro ⟨⟨hne, h⟩, hk'⟩
        exact ⟨h, hk', fun hm => hne hm.symm⟩
      · rintro ⟨h, hk', hne⟩
        exact ⟨⟨fun hm => hne hm.symm, h⟩, hk'⟩

section Register

variable (c k) (n : Option Int)

@[simp] theorem register_keys : (c.register k n).keys = c.keys := by
  unfold register
  split <;> [split_ifs <;> rfl; rfl]

@[simp] theorem register_keyPairs : (c.register k n).keyPairs = c.keyPairs := by
  unfold register
  split <;> [split_ifs <;> rfl; rfl]

@[simp] theorem register_skipLeafHacks : (c.register k n).skipLeafHacks = c.skipLeafHacks := by
  unfold register
  split <;> [split_ifs <;> rfl; rfl]

@[simp] theorem register_patchedResponses :
    (c.register k n).patchedResponses = c.patchedResponses := by
  unfold register
  split <;> [split_ifs <;> rfl; rfl]

@[simp] theorem register_grants : (c.register k n).grants = c.grants := by
  unfold register
  split <;> [split_ifs <;> rfl; rfl]

@[simp] theorem register_usageRemaining : (c.register k n).usageRemaining = c.usageRemaining := by
  unfold register
  split <;> [split_ifs <;> rfl; rfl]

end Register

theorem register_keysByNspace_eq_some {n : Option Int} {m : Int} :
    (c.register k n).keysByNspace.lookup m = some k' ↔
      (n = some m ∧ m ≠ 0 ∧ k' = k) ∨
        (¬ (n = some m ∧ m ≠ 0) ∧ c.keysByNspace.lookup m = some k') := by
  cases n with
  | none => simp [register]
  | some n =>
    by_cases hn : n = 0
    · subst hn
      simp only [register, ne_eq, not_true_eq_false, if_false, Option.some.injEq]
      constructor
      · exact fun h => .inr ⟨fun ⟨h0, hm⟩ => hm h0.symm, h⟩
      · rintro (⟨h0, hm, -⟩ | ⟨-, h⟩)
        · exact absurd h0.symm hm
        · exact h
    · simp only [register, ne_eq, hn, not_false_eq_true, if_true,
        HashMap.lookup_insert_eq_some, Option.some.injEq]
      constructor
      · rintro (⟨rfl, rfl⟩ | ⟨hm, h⟩)
        · exact .inl ⟨rfl, hn, rfl⟩
        · exact .inr ⟨fun ⟨h0, _⟩ => hm h0.symm, h⟩
      · rintro (⟨rfl, -, rfl⟩ | ⟨hm, h⟩)
        · exact .inl ⟨rfl, rfl⟩
        · by_cases hmn : n = m
          · exact absurd ⟨hmn, hmn ▸ hn⟩ hm
          · exact .inr ⟨fun h0 => hmn h0.symm, h⟩

end CertificateAliasCache

end TrickyStore
