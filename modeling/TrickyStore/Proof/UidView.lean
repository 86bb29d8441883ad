import TrickyStore.Proof.Entries
import TrickyStore.Proof.Handlers

/-!
# What a uid sees of the daemon

Two states are alike for a uid when they have the same under its keys, for its ids and for its
operations, and the same configuration for it.  What its handlers read is the same in alike states, and
the operations on its own keys lead from alike states to alike states.  The number that a response
carries, which is the time of the hook that made it, is left out.
-/

open Lib

namespace TrickyStore

open CertificateAliasCache

/-- The response without the number of its hook. -/
def KeyEntryResponse.unnumbered (r : KeyEntryResponse) : KeyEntryResponse := { r with serial := 0 }

def Info.unnumbered (i : Info) : Info := { i with response := i.response.unnumbered }

def SoftwareOperationBinder.unnumbered (op : SoftwareOperationBinder) : SoftwareOperationBinder :=
  { op with origin := { op.origin with serial := 0 } }

/-- The reply without the number of a response and the identity of an operation. -/
def LocalReply.unnumbered : LocalReply → LocalReply
  | .entry r => .entry r.unnumbered
  | .operation _ parameters => .operation 0 parameters
  | reply => reply

/-- The decision and the local reply. -/
def Result.unnumbered : Result → Result
  | .OverrideReply code reply _ => .OverrideReply code reply.unnumbered none
  | result => result

/-- The uid sees the same in both caches. -/
structure CertificateAliasCache.AlikeFor (uid : Int) (c c' : CertificateAliasCache) : Prop where
  keys : ∀ k, k.uid = uid →
    (c'.keys.lookup k).map Info.unnumbered = (c.keys.lookup k).map Info.unnumbered
  keyPairs : ∀ k, k.uid = uid → c'.keyPairs.lookup k = c.keyPairs.lookup k
  skipLeafHacks : ∀ k, k.uid = uid → c'.skipLeafHacks.lookup k = c.skipLeafHacks.lookup k
  patchedResponses : ∀ k, k.uid = uid →
    (c'.patchedResponses.lookup k).map KeyEntryResponse.unnumbered =
      (c.patchedResponses.lookup k).map KeyEntryResponse.unnumbered
  usageRemaining : ∀ k, k.uid = uid → c'.usageRemaining.lookup k = c.usageRemaining.lookup k
  keysByNspace : ∀ n k, k.uid = uid →
    (c'.keysByNspace.lookup n = some k ↔ c.keysByNspace.lookup n = some k)

structure PassthroughKeyRegistry.AlikeFor (uid : Int) (r r' : PassthroughKeyRegistry) : Prop where
  tracked : ∀ k, k.uid = uid → r'.isTracked k = r.isTracked k
  byNspace : ∀ n k, k.uid = uid → (r'.byNspace.lookup n = some k ↔ r.byNspace.lookup n = some k)

/-- The uid cannot tell the two states apart. -/
structure Daemon.AlikeFor (uid : Int) (d d' : Daemon) : Prop where
  cache : d.cache.AlikeFor uid d'.cache
  passthrough : d.passthrough.AlikeFor uid d'.passthrough
  pending : ∀ level k, k.uid = uid →
    d'.pendingPassthroughKeys.lookup (level, k) = d.pendingPassthroughKeys.lookup (level, k)
  keyboxes : d'.keyboxes = d.keyboxes
  packageModes : d'.config.packageModes = d.config.packageModes
  uidPackages : d'.config.uidPackages.lookup uid = d.config.uidPackages.lookup uid
  operations : (d'.operations.filter (SoftwareOperationBinder.isOf uid)).map
      SoftwareOperationBinder.unnumbered =
    (d.operations.filter (SoftwareOperationBinder.isOf uid)).map SoftwareOperationBinder.unnumbered

/-- Nobody has a grant. -/
def CertificateAliasCache.Ungranted (c : CertificateAliasCache) : Prop :=
  ∀ n, c.grants.lookup n = none

/-! ## Reading the cache -/

namespace CertificateAliasCache

variable {uid : Int} {c c' c'' : CertificateAliasCache} {k : Key} {desc : KeyDescriptor}

namespace AlikeFor

theorem refl : c.AlikeFor uid c :=
  ⟨fun _ _ => rfl, fun _ _ => rfl, fun _ _ => rfl, fun _ _ => rfl, fun _ _ => rfl, fun _ _ _ => .rfl⟩

theorem trans (h : c.AlikeFor uid c') (h' : c'.AlikeFor uid c'') : c.AlikeFor uid c'' where
  keys := fun k hk => (h'.keys k hk).trans (h.keys k hk)
  keyPairs := fun k hk => (h'.keyPairs k hk).trans (h.keyPairs k hk)
  skipLeafHacks := fun k hk => (h'.skipLeafHacks k hk).trans (h.skipLeafHacks k hk)
  patchedResponses := fun k hk => (h'.patchedResponses k hk).trans (h.patchedResponses k hk)
  usageRemaining := fun k hk => (h'.usageRemaining k hk).trans (h.usageRemaining k hk)
  keysByNspace := fun n k hk => (h'.keysByNspace n k hk).trans (h.keysByNspace n k hk)

theorem symm (h : c.AlikeFor uid c') : c'.AlikeFor uid c where
  keys := fun k hk => (h.keys k hk).symm
  keyPairs := fun k hk => (h.keyPairs k hk).symm
  skipLeafHacks := fun k hk => (h.skipLeafHacks k hk).symm
  patchedResponses := fun k hk => (h.patchedResponses k hk).symm
  usageRemaining := fun k hk => (h.usageRemaining k hk).symm
  keysByNspace := fun n k hk => (h.keysByNspace n k hk).symm

theorem containsKey (h : c.AlikeFor uid c') (hk : k.uid = uid) :
    c'.keys.containsKey k = c.keys.containsKey k := by
  have hkeys := congrArg Option.isSome (h.keys k hk)
  rwa [Option.isSome_map, Option.isSome_map] at hkeys

theorem containsPatched (h : c.AlikeFor uid c') (hk : k.uid = uid) :
    c'.patchedResponses.containsKey k = c.patchedResponses.containsKey k := by
  have hpatched := congrArg Option.isSome (h.patchedResponses k hk)
  rwa [Option.isSome_map, Option.isSome_map] at hpatched

/-- The id of a forged key is the same. -/
theorem keyId (h : c.AlikeFor uid c') (hk : k.uid = uid) :
    (c'.keys.lookup k).bind (fun i => i.response.nspace) =
      (c.keys.lookup k).bind fun i => i.response.nspace := by
  have hid (o : Option Info) : (o.map Info.unnumbered).bind (fun i => i.response.nspace) =
      o.bind fun i => i.response.nspace := by
    cases o <;> rfl
  rw [← hid, h.keys k hk, hid]

theorem ownKey (h : c.AlikeFor uid c') (n : Int) : c'.ownKey uid n = c.ownKey uid n := by
  ext k
  rw [ownKey_eq_some, ownKey_eq_some]
  exact and_congr_left fun hk => h.keysByNspace n k hk

theorem resolveKey (h : c.AlikeFor uid c') : c'.resolveKey uid desc = c.resolveKey uid desc := by
  unfold CertificateAliasCache.resolveKey
  rw [h.ownKey]

theorem findAliasForNspace (h : c.AlikeFor uid c') (n : Int) :
    c'.findAliasForNspace uid n = c.findAliasForNspace uid n := by
  unfold CertificateAliasCache.findAliasForNspace
  rw [h.ownKey]

end AlikeFor

theorem Ungranted.grantedKey (h : c.Ungranted) (n : Int) : c.grantedKey uid n = none := by
  unfold CertificateAliasCache.grantedKey
  rw [h]
  rfl

theorem Ungranted.uid_of_mem (h : c.Ungranted) (hk : k ∈ c.resolveOwnerKeys uid desc) :
    k.uid = uid := by
  rcases mem_resolveOwnerKeys.1 hk with ⟨-, hk | hk⟩ | ⟨a, -, rfl⟩
  · exact (ownKey_eq_some.1 hk).2
  · rw [h.grantedKey] at hk
    cases hk
  · rfl

/-- A search depends only on what it finds at the elements of the list. -/
theorem findSome?_congr {α β : Type} {f g : α → Option β} {l : List α}
    (h : ∀ k ∈ l, f k = g k) : l.findSome? f = l.findSome? g := by
  induction l with
  | nil => rfl
  | cons k l ih =>
    rw [List.findSome?_cons, List.findSome?_cons, h k (List.mem_cons_self ..),
      ih fun k' hk' => h k' (List.mem_cons_of_mem _ hk')]

section Find

variable (h : c.AlikeFor uid c') (hc : c.Ungranted) (hc' : c'.Ungranted)

include h hc hc'

theorem AlikeFor.resolveOwnerKeys : c'.resolveOwnerKeys uid desc = c.resolveOwnerKeys uid desc := by
  unfold CertificateAliasCache.resolveOwnerKeys
  rw [h.ownKey, hc.grantedKey, hc'.grantedKey]

theorem AlikeFor.findGeneratedOwner :
    (c'.findGeneratedOwner uid desc).map (fun o => (o.1, o.2.unnumbered)) =
      (c.findGeneratedOwner uid desc).map fun o => (o.1, o.2.unnumbered) := by
  unfold CertificateAliasCache.findGeneratedOwner
  rw [List.map_findSome?, List.map_findSome?, h.resolveOwnerKeys hc hc']
  refine findSome?_congr fun k hk => ?_
  have hkeys := congrArg (Option.map fun i => (k, i)) (h.keys k (hc.uid_of_mem hk))
  simp only [Option.map_map] at hkeys
  simp only [Function.comp_apply, Option.map_map]
  exact hkeys

theorem AlikeFor.findGeneratedKey :
    (c'.findGeneratedKey uid desc).isSome = (c.findGeneratedKey uid desc).isSome := by
  have hfound : ((c'.findGeneratedOwner uid desc).map _).isSome = _ :=
    congrArg Option.isSome (h.findGeneratedOwner hc hc')
  simpa [CertificateAliasCache.findGeneratedKey] using hfound

theorem AlikeFor.resolvePatchedOwner :
    (c'.resolvePatchedOwner uid desc).map (fun o => (o.1, o.2.unnumbered)) =
      (c.resolvePatchedOwner uid desc).map fun o => (o.1, o.2.unnumbered) := by
  unfold CertificateAliasCache.resolvePatchedOwner
  rw [List.map_findSome?, List.map_findSome?, h.resolveOwnerKeys hc hc']
  refine findSome?_congr fun k hk => ?_
  have hpatched := congrArg (Option.map fun r => (k, r)) (h.patchedResponses k (hc.uid_of_mem hk))
  simp only [Option.map_map] at hpatched
  simp only [Function.comp_apply, Option.map_map]
  exact hpatched

theorem AlikeFor.resolvePatchedResponse :
    (c'.resolvePatchedResponse uid desc).isSome = (c.resolvePatchedResponse uid desc).isSome := by
  have hfound : ((c'.resolvePatchedOwner uid desc).map _).isSome = _ :=
    congrArg Option.isSome (h.resolvePatchedOwner hc hc')
  simpa [CertificateAliasCache.resolvePatchedResponse] using hfound

theorem AlikeFor.shouldSkipLeafHackFor :
    c'.shouldSkipLeafHackFor uid desc = c.shouldSkipLeafHackFor uid desc := by
  unfold CertificateAliasCache.shouldSkipLeafHackFor
  rw [h.resolveOwnerKeys hc hc']
  refine congrArg (Option.getD · false) (findSome?_congr fun k hk => ?_)
  exact h.skipLeafHacks k (hc.uid_of_mem hk)

end Find

/-! ## Operations on the keys of the uid -/

namespace AlikeFor

variable (h : c.AlikeFor uid c')

include h

theorem clear (hk : k.uid = uid) : (c.clear k).AlikeFor uid (c'.clear k) := by
  have herase {V : Type} {m m' : HashMap Key V} {k' : Key} (hm : m'.lookup k' = m.lookup k') :
      (AList.erase k m').lookup k' = (AList.erase k m).lookup k' := by
    rw [HashMap.lookup_erase_ite, HashMap.lookup_erase_ite, hm]
  refine ⟨fun k' hk' => ?_, fun k' hk' => herase (h.keyPairs k' hk'),
    fun k' hk' => herase (h.skipLeafHacks k' hk'), fun k' hk' => ?_,
    fun k' hk' => herase (h.usageRemaining k' hk'), fun n k' hk' => ?_⟩
  · rw [clear_keys, clear_keys, HashMap.lookup_erase_ite, HashMap.lookup_erase_ite]
    split_ifs
    · rfl
    · exact h.keys k' hk'
  · rw [clear_patchedResponses, clear_patchedResponses, HashMap.lookup_erase_ite,
      HashMap.lookup_erase_ite]
    split_ifs
    · rfl
    · exact h.patchedResponses k' hk'
  · have hid (m : HashMap Key Info) : (∀ i, m.lookup k = some i → i.response.nspace ≠ some n) ↔
        ((m.lookup k).bind fun i => i.response.nspace) ≠ some n := by
      cases m.lookup k <;> simp
    rw [clear_keysByNspace_eq_some, clear_keysByNspace_eq_some, h.keysByNspace n k' hk', hid, hid,
      h.keyId hk]

theorem register (n : Option Int) : (c.register k n).AlikeFor uid (c'.register k n) := by
  refine ⟨fun k' hk' => ?_, fun k' hk' => ?_, fun k' hk' => ?_, fun k' hk' => ?_, fun k' hk' => ?_,
    fun m k' hk' => ?_⟩
  · simpa only [register_keys] using h.keys k' hk'
  · simpa only [register_keyPairs] using h.keyPairs k' hk'
  · simpa only [register_skipLeafHacks] using h.skipLeafHacks k' hk'
  · simpa only [register_patchedResponses] using h.patchedResponses k' hk'
  · simpa only [register_usageRemaining] using h.usageRemaining k' hk'
  · rw [register_keysByNspace_eq_some, register_keysByNspace_eq_some, h.keysByNspace m k' hk']

theorem insertPatched {r r' : KeyEntryResponse} (hr : r'.unnumbered = r.unnumbered) :
    ({ c with patchedResponses := c.patchedResponses.insert k r } : CertificateAliasCache).AlikeFor
      uid { c' with patchedResponses := c'.patchedResponses.insert k r' } := by
  refine ⟨h.keys, h.keyPairs, h.skipLeafHacks, fun k' hk' => ?_, h.usageRemaining, h.keysByNspace⟩
  rw [HashMap.lookup_insert_ite, HashMap.lookup_insert_ite]
  split_ifs
  · exact congrArg some hr
  · exact h.patchedResponses k' hk'

theorem storePatched {r r' : KeyEntryResponse} (hr : r'.unnumbered = r.unnumbered) :
    (c.storePatched k r).AlikeFor uid (c'.storePatched k r') := by
  have hid : r'.nspace = r.nspace := (congrArg KeyEntryResponse.nspace hr :)
  unfold CertificateAliasCache.storePatched
  rw [hid]
  exact (h.insertPatched hr).register r.nspace

theorem storeGenerated {info info' : Info} {pair : KeyPair} {chain : List Certificate} {n : Int}
    {skipLeafHack : Bool} (hinfo : info'.unnumbered = info.unnumbered) :
    (c.storeGenerated k info pair chain n skipLeafHack).AlikeFor uid
      (c'.storeGenerated k info' pair chain n skipLeafHack) := by
  have hparams : info'.params = info.params := (congrArg Info.params hinfo :)
  unfold CertificateAliasCache.storeGenerated
  rw [hparams]
  refine ⟨fun k' hk' => ?_, fun k' hk' => ?_, fun k' hk' => ?_, h.patchedResponses, fun k' hk' => ?_,
    fun m k' hk' => ?_⟩
  · dsimp only
    rw [HashMap.lookup_insert_ite, HashMap.lookup_insert_ite]
    split_ifs
    · exact congrArg some hinfo
    · exact h.keys k' hk'
  · dsimp only
    rw [HashMap.lookup_insert_ite, HashMap.lookup_insert_ite, h.keyPairs k' hk']
  · dsimp only
    split_ifs
    · rw [HashMap.lookup_insert_ite, HashMap.lookup_insert_ite, h.skipLeafHacks k' hk']
    · exact h.skipLeafHacks k' hk'
  · dsimp only
    split_ifs
    · rw [HashMap.lookup_insert_ite, HashMap.lookup_insert_ite, h.usageRemaining k' hk']
    · exact h.usageRemaining k' hk'
  · dsimp only
    rw [HashMap.lookup_insert_eq_some, HashMap.lookup_insert_eq_some, h.keysByNspace m k' hk']

theorem unskip : ({ c with skipLeafHacks := c.skipLeafHacks.erase k } : CertificateAliasCache).AlikeFor
    uid { c' with skipLeafHacks := c'.skipLeafHacks.erase k } := by
  refine ⟨h.keys, h.keyPairs, fun k' hk' => ?_, h.patchedResponses, h.usageRemaining, h.keysByNspace⟩
  rw [HashMap.lookup_erase_ite, HashMap.lookup_erase_ite, h.skipLeafHacks k' hk']

theorem updateKeyCertChain {publicCert certificateChain : Option Bytes} :
    (c.updateKeyCertChain k publicCert certificateChain).AlikeFor uid
      (c'.updateKeyCertChain k publicCert certificateChain) := by
  have hskip := h.unskip (k := k)
  refine ⟨fun k' hk' => ?_, h.keyPairs, hskip.skipLeafHacks, fun k' hk' => ?_, h.usageRemaining,
    h.keysByNspace⟩
  · have hset : (fun i : Info => (if k' = k then { i with
          response := setCertificates publicCert certificateChain i.response } else i).unnumbered) =
        fun i => if k' = k then { i.unnumbered with
          response := setCertificates publicCert certificateChain i.unnumbered.response }
        else i.unnumbered := by
      funext i
      split_ifs <;> rfl
    have hkeys := congrArg (Option.map fun i : Info => if k' = k then { i with
      response := setCertificates publicCert certificateChain i.response } else i) (h.keys k' hk')
    simp only [Option.map_map] at hkeys
    simp only [updateKeyCertChain_keys_lookup, Option.map_map, Function.comp_def, hset]
    exact hkeys
  · have hset : (fun r : KeyEntryResponse => (if k' = k then
          setCertificates publicCert certificateChain r else r).unnumbered) =
        fun r => if k' = k then setCertificates publicCert certificateChain r.unnumbered
        else r.unnumbered := by
      funext r
      split_ifs <;> rfl
    have hpatched := congrArg (Option.map fun r : KeyEntryResponse => if k' = k then
      setCertificates publicCert certificateChain r else r) (h.patchedResponses k' hk')
    simp only [Option.map_map] at hpatched
    simp only [updateKeyCertChain_patchedResponses_lookup, Option.map_map, Function.comp_def, hset]
    exact hpatched

end AlikeFor

end CertificateAliasCache

namespace PassthroughKeyRegistry.AlikeFor

variable {uid : Int} {r r' r'' : PassthroughKeyRegistry} {k : Key}

theorem refl : r.AlikeFor uid r := ⟨fun _ _ => rfl, fun _ _ _ => .rfl⟩

theorem trans (h : r.AlikeFor uid r') (h' : r'.AlikeFor uid r'') : r.AlikeFor uid r'' :=
  ⟨fun k hk => (h'.tracked k hk).trans (h.tracked k hk),
    fun n k hk => (h'.byNspace n k hk).trans (h.byNspace n k hk)⟩

theorem symm (h : r.AlikeFor uid r') : r'.AlikeFor uid r :=
  ⟨fun k hk => (h.tracked k hk).symm, fun n k hk => (h.byNspace n k hk).symm⟩

theorem isTrackedDescriptor (h : r.AlikeFor uid r') (desc : KeyDescriptor) :
    r'.isTrackedDescriptor uid desc = r.isTrackedDescriptor uid desc := by
  have hid : ((r'.byNspace.lookup desc.nspace).filter fun k => k.uid = uid && r'.isTracked k) =
      (r.byNspace.lookup desc.nspace).filter fun k => k.uid = uid && r.isTracked k := by
    ext k
    simp only [Option.filter_eq_some_iff, Bool.and_eq_true, decide_eq_true_eq]
    constructor
    · rintro ⟨hn, hk, htracked⟩
      exact ⟨(h.byNspace _ k hk).1 hn, hk, by rw [← h.tracked k hk]; exact htracked⟩
    · rintro ⟨hn, hk, htracked⟩
      exact ⟨(h.byNspace _ k hk).2 hn, hk, by rw [h.tracked k hk]; exact htracked⟩
  have halias : ((desc.keyAlias.map fun a => (⟨uid, a⟩ : Key)).filter fun k => r'.isTracked k) =
      (desc.keyAlias.map fun a => (⟨uid, a⟩ : Key)).filter fun k => r.isTracked k := by
    cases desc.keyAlias with
    | none => rfl
    | some a => simp [Option.filter, h.tracked ⟨uid, a⟩ rfl]
  unfold PassthroughKeyRegistry.isTrackedDescriptor resolve
  rw [hid, halias]

theorem remove (h : r.AlikeFor uid r') : (r.remove k).AlikeFor uid (r'.remove k) := by
  refine ⟨fun k' hk' => ?_, fun n k' hk' => ?_⟩
  · have hremove (r : PassthroughKeyRegistry) :
        (r.remove k).isTracked k' = if k' = k then false else r.isTracked k' :=
      HashMap.containsKey_erase ..
    rw [hremove, hremove, h.tracked k' hk']
  · rw [PassthroughKeyRegistry.remove, PassthroughKeyRegistry.remove,
      HashMap.lookup_removeIf_eq_some, HashMap.lookup_removeIf_eq_some, h.byNspace n k' hk']

theorem promote (h : r.AlikeFor uid r') (n : Option Int) :
    (r.promote k n).AlikeFor uid (r'.promote k n) := by
  refine ⟨fun k' hk' => ?_, fun m k' hk' => ?_⟩
  · have hpromote (r : PassthroughKeyRegistry) :
        (r.promote k n).isTracked k' = if k' = k then true else r.isTracked k' :=
      HashMap.containsKey_insert ..
    rw [hpromote, hpromote, h.tracked k' hk']
  · unfold PassthroughKeyRegistry.promote
    cases n with
    | none => exact h.byNspace m k' hk'
    | some n =>
      dsimp only
      split_ifs
      · rw [HashMap.lookup_insert_eq_some, HashMap.lookup_insert_eq_some, h.byNspace m k' hk']
      · exact h.byNspace m k' hk'

end PassthroughKeyRegistry.AlikeFor

end TrickyStore
