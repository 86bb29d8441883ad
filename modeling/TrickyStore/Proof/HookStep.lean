import TrickyStore.Model.World

/-!
# What one hook can do to the ownership maps

The maps of the cache and the passthrough registry change in few ways, however many branches the
hooks have.  `HookStep` lists them, once for all hooks; the invariants of runs are derived from it.
`ids` are the key ids that the hook brings in: the one it draws, or those of the real reply.
-/

open Lib

namespace TrickyStore

open CertificateAliasCache

/-- The key id that an item of a parcel carries. -/
def ParcelItem.keyId : ParcelItem → Option Int
  | .metadata m => m.key.map KeyDescriptor.nspace
  | .entry r => r.nspace
  | .descriptor d => some d.nspace
  | _ => none

/-- The key ids in a reply. -/
def Parcel.keyIds (p : Parcel) : List Int := p.filterMap ParcelItem.keyId

def Request.isGenerateKey : Request → Bool
  | .generateKey .. => true
  | _ => false

def Request.isGrant : Request → Bool
  | .grant .. => true
  | _ => false

/-- The step of a hook run for the request of `uid` at the time `now`. -/
inductive HookStep (uid : Int) (request : Request) (now : ℕ) (ids : Int → Prop)
    (c : CertificateAliasCache) (p : PassthroughKeyRegistry) :
    CertificateAliasCache → PassthroughKeyRegistry → Prop
  | unchanged : HookStep uid request now ids c p c p
  | cleared (a : String) : HookStep uid request now ids c p (c.clear ⟨uid, a⟩) p
  | relinquished (a : String) :
    HookStep uid request now ids c p (c.clear ⟨uid, a⟩) (p.remove ⟨uid, a⟩)
  | generated (a : String) (info : Info) (pair : KeyPair) (chain : List Certificate) (n : Int)
      (skipLeafHack : Bool) (hserial : info.response.serial = now)
      (hid : info.response.nspace = some n) (hn : ids n) (hrequest : request.isGenerateKey = true)
      (hpair : info.keyPair = some pair) :
    HookStep uid request now ids c p
      ((c.clear ⟨uid, a⟩).storeGenerated ⟨uid, a⟩ info pair chain n skipLeafHack)
      (p.remove ⟨uid, a⟩)
  | patched (a : String) (r : KeyEntryResponse) (hserial : r.serial = now)
      (hid : ∀ n, r.nspace = some n → ids n) (hrequest : request.isGenerateKey = true) :
    HookStep uid request now ids c p ((c.clear ⟨uid, a⟩).storePatched ⟨uid, a⟩ r)
      (p.remove ⟨uid, a⟩)
  | promoted (a : String) (n : Option Int) (hid : ∀ m, n = some m → ids m)
      (hrequest : request.isGenerateKey = true) :
    HookStep uid request now ids c p ((c.clear ⟨uid, a⟩).register ⟨uid, a⟩ n)
      (p.promote ⟨uid, a⟩ n)
  | unskipped (a : String) :
    HookStep uid request now ids c p { c with skipLeafHacks := c.skipLeafHacks.erase ⟨uid, a⟩ } p
  | updated (k : Key) (kd : Option KeyDescriptor) (publicCert certificateChain : Option Bytes)
      (hrequest : request = .updateSubcomponent kd publicCert certificateChain)
      (hk : c.keys.containsKey k = true)
      (hallowed : k.uid = uid ∨ ∃ n g, c.grants.lookup n = some g ∧ g.granteeUid = uid ∧
        g.key = k ∧ g.allows KeyPermission.UPDATE = true) :
    HookStep uid request now ids c p (c.updateKeyCertChain k publicCert certificateChain) p
  | regranted (n : Int) (g : GrantInfo) (kd : Option KeyDescriptor) (accessVector : BitVec 32)
      (hrequest : request = .grant kd g.granteeUid accessVector)
      (hkey : kd.bind (c.resolveKey uid) = some g.key) (hg : c.grants.lookup n = some g) :
    HookStep uid request now ids c p
      { c with grants := c.grants.insert n { g with accessVector := accessVector } } p
  | granted (n : Int) (k : Key) (kd : Option KeyDescriptor) (granteeUid : Int)
      (accessVector : BitVec 32) (hrequest : request = .grant kd granteeUid accessVector)
      (hkey : kd.bind (c.resolveKey uid) = some k) (hk : c.isPatchedKey k = true) (hn : ids n) :
    HookStep uid request now ids c p
      { c with grants := c.grants.insert n ⟨uid, granteeUid, k, accessVector⟩ } p
  | ungranted (k : Key) (granteeUid : Int) (hk : k.uid = uid) :
    HookStep uid request now ids c p
      { c with grants := c.grants.removeIf fun _ g => g.key = k && g.granteeUid = granteeUid } p
  | resigned (k : Key) (n : Int) (r : KeyEntryResponse) (kd : Option KeyDescriptor)
      (hrequest : request = .getKeyEntry kd) (hserial : r.serial = now) (hn : n ≠ 0)
      (hk : c.keysByNspace.lookup n = some k) (hid : r.nspace = some n) :
    HookStep uid request now ids c p
      { c with patchedResponses := c.patchedResponses.insert k r } p

namespace Parcel

variable {p p' : Parcel}

theorem readInt_suffix {n : Int} (h : p.readInt = some (n, p')) : p' <:+ p := by
  unfold readInt at h
  split at h
  · obtain ⟨-, rfl⟩ := Prod.mk.inj (Option.some.inj h)
    exact List.suffix_refl _
  · obtain ⟨-, rfl⟩ := Prod.mk.inj (Option.some.inj h)
    exact List.suffix_cons _ _
  · cases h

theorem readException_suffix (h : p.readException = some p') : p' <:+ p := by
  unfold readException at h
  split at h
  · next heq =>
    obtain rfl := Option.some.inj h
    exact readInt_suffix heq
  · cases h

theorem readTypedObject_mem {α : Type} {creator : ParcelItem → Option α} {a : α}
    (h : p.readTypedObject creator = some (some a, p')) :
    ∃ item ∈ p, creator item = some a := by
  unfold readTypedObject at h
  split at h
  · cases h
  · simp at h
  · next item rest _ heq =>
    obtain ⟨b, hb, hab⟩ := Option.map_eq_some_iff.1 h
    simp only [Prod.mk.injEq, Option.some.injEq] at hab
    obtain ⟨rfl, rfl⟩ := hab
    exact ⟨item, (readInt_suffix heq).subset (List.mem_cons_self ..), hb⟩
  · cases h

theorem mem_keyIds {item : ParcelItem} {n : Int} (h : item ∈ p) (hn : item.keyId = some n) :
    n ∈ p.keyIds :=
  List.mem_filterMap.2 ⟨item, h, hn⟩

theorem keyMetadataCreator_eq_some {item : ParcelItem} {m : KeyMetadata}
    (h : keyMetadataCreator item = some m) : item = .metadata m := by
  cases item <;> simp_all [keyMetadataCreator]

theorem keyEntryResponseCreator_eq_some {item : ParcelItem} {r : KeyEntryResponse}
    (h : keyEntryResponseCreator item = some r) : item = .entry r := by
  cases item <;> simp_all [keyEntryResponseCreator]

theorem keyDescriptorCreator_eq_some {item : ParcelItem} {d : KeyDescriptor}
    (h : keyDescriptorCreator item = some d) : item = .descriptor d := by
  cases item <;> simp_all [keyDescriptorCreator]

/-- The key id of metadata read after the header is one of the reply's. -/
theorem metadata_keyIds {body rest : Parcel} {m : KeyMetadata} {n : Int}
    (hp : p.readException = some body)
    (hm : body.readTypedObject keyMetadataCreator = some (some m, rest))
    (hn : m.key.map KeyDescriptor.nspace = some n) : n ∈ p.keyIds := by
  obtain ⟨item, hitem, hcreate⟩ := readTypedObject_mem hm
  refine mem_keyIds ((readException_suffix hp).subset hitem) ?_
  rw [keyMetadataCreator_eq_some hcreate]
  exact hn

theorem descriptor_keyIds {body rest : Parcel} {d : KeyDescriptor}
    (hp : p.readException = some body)
    (hd : body.readTypedObject keyDescriptorCreator = some (some d, rest)) :
    d.nspace ∈ p.keyIds := by
  obtain ⟨item, hitem, hcreate⟩ := readTypedObject_mem hd
  refine mem_keyIds ((readException_suffix hp).subset hitem) ?_
  rw [keyDescriptorCreator_eq_some hcreate]
  rfl

end Parcel

/-! ## The pre-hooks -/

/-- A created operation is unused, on the key and for the key that it was created with. -/
theorem SoftwareOperationBinder.create_eq_ok {jca : Jca} {info : Info} {request : OpRequest}
    {usageKey : Option Key} {origin : Origin} {op : SoftwareOperationBinder}
    (h : create jca info request usageKey origin = .ok op) :
    ∃ engine, op = { engine, usageKey, usageCountLimit := info.params.usageCountLimit, origin } := by
  unfold create at h
  cases hselect : selectEngine info request with
  | error t =>
    rw [hselect] at h
    cases h
  | ok engine =>
    rw [hselect] at h
    simp only [bind, Except.bind] at h
    split at h
    · cases h
    · obtain rfl := Except.ok.inj h
      exact ⟨engine, rfl⟩

namespace Daemon

variable (P : Platform) (env : Env) (uid : Int) (level : SecurityLevel) (d : Daemon)

/-- The steps between two states, as far as `HookStep` sees them. -/
abbrev Steps (request : Request) (ids : Int → Prop) (now : ℕ) (d' : Daemon) : Prop :=
  HookStep uid request now ids d.cache d.passthrough d'.cache d'.passthrough

variable {uid d} {request : Request} {ids : Int → Prop} {d' : Daemon}

variable (uid d) in
/-- The checks at most resolve the packages of the uid. -/
theorem checkGenerateKey_fst (kd ak : Option KeyDescriptor) (params : Option (List KeyParameter)) :
    (d.checkGenerateKey P env uid kd ak params).1 = d ∨
      (d.checkGenerateKey P env uid kd ak params).1 = d.resolved env uid := by
  unfold checkGenerateKey
  split
  · dsimp only
    repeat' split
    all_goals first | exact .inl rfl | exact .inr rfl
  · exact .inl rfl

theorem routeGenerateKey_steps (r : KeygenRequest) (hrequest : request.isGenerateKey = true) :
    d.Steps uid request (fun n => n = env.nextLong) d.clock
      (d.routeGenerateKey P env level uid r).1 := by
  unfold routeGenerateKey
  dsimp only
  split
  · exact .unchanged
  · exact .unchanged
  · exact .unchanged
  · split
    · exact .unchanged
    · refine .generated r.keyAlias _ _ _ _ _ rfl ?_ rfl hrequest rfl
      simp [KeyEntryResponse.nspace, buildResponse]
  · exact .cleared r.keyAlias
  · exact .unskipped r.keyAlias

theorem preGenerateKey_steps (kd ak : Option KeyDescriptor) (params : Option (List KeyParameter))
    (hrequest : request.isGenerateKey = true) :
    d.Steps uid request (fun n => n = env.nextLong) d.clock
      (d.preGenerateKey P env level uid kd ak params).1 := by
  have hd := checkGenerateKey_fst P env uid d kd ak params
  unfold preGenerateKey
  split
  · next d₁ _ h =>
    rw [h] at hd
    rcases hd with rfl | rfl <;> exact .unchanged
  · next d₁ r h =>
    rw [h] at hd
    rcases hd with rfl | rfl
    · exact routeGenerateKey_steps P env level r hrequest
    · exact routeGenerateKey_steps (d := d.resolved env uid) P env level r hrequest

variable (uid d) in
/-- `createOperation` changes nothing but the list of operations. -/
theorem preCreateOperation_fst (kd : Option KeyDescriptor) (opParams : List KeyParameter)
    (force : Bool) :
    (d.preCreateOperation P env uid kd opParams force).1 = d ∨
      ∃ op, (d.preCreateOperation P env uid kd opParams force).1 =
        { d with operations := d.operations ++ [op] } := by
  unfold preCreateOperation
  split
  · exact .inl rfl
  · split
    · exact .inl rfl
    · dsimp only
      repeat' split
      all_goals first | exact .inl rfl | exact .inr ⟨_, rfl⟩

theorem preDeleteKey_steps (kd : Option KeyDescriptor) :
    d.Steps uid request ids d.clock (d.preDeleteKey uid kd).1 := by
  unfold preDeleteKey
  split
  · exact .unchanged
  · exact .relinquished _

theorem grantFor_eq_some {n : Int} {g : GrantInfo} (h : d.grantFor uid n = some g) :
    n ≠ 0 ∧ d.cache.grants.lookup n = some g ∧ g.granteeUid = uid := by
  unfold grantFor at h
  split_ifs at h with hn
  obtain ⟨h, hg⟩ := Option.filter_eq_some_iff.1 h
  exact ⟨hn, h, by simpa using hg⟩

/-- A key that `updateSubcomponent` works on is the caller's own or granted with UPDATE. -/
theorem updateTarget_eq_some {kd : KeyDescriptor} {k : Key}
    (h : d.updateTarget uid kd = some (some k)) :
    k.uid = uid ∨ ∃ n g, d.cache.grants.lookup n = some g ∧ g.granteeUid = uid ∧ g.key = k ∧
      g.allows KeyPermission.UPDATE = true := by
  unfold updateTarget at h
  split at h
  · next key hkey =>
    obtain rfl : key = k := by simpa using h
    exact .inl (resolveKey_uid hkey)
  · split at h
    · next g hg =>
      obtain ⟨-, hlookup, hgrantee⟩ := grantFor_eq_some hg
      split_ifs at h with hallows hpatched
      · obtain rfl : g.key = k := by simpa using h
        exact .inr ⟨_, g, hlookup, hgrantee, rfl, hallows⟩
      · simp at h
    · cases h

/-- What an `updateSubcomponent` comes to before the real keystore is asked.  A request without a target
is forwarded untouched; otherwise a forged target takes the certificates, and any other is dropped
under the alias of the caller. -/
inductive UpdateOutcome (uid : Int) (d : Daemon) (desc : KeyDescriptor)
    (publicCert certificateChain : Option Bytes) : Daemon × Result → Prop
  | refused (htarget : d.updateTarget uid desc = none) :
    UpdateOutcome uid d desc publicCert certificateChain
      (d, .errorReply ResponseCode.PERMISSION_DENIED "UPDATE permission not granted")
  | untouched (htarget : d.updateTarget uid desc = some none) :
    UpdateOutcome uid d desc publicCert certificateChain (d, .Continue)
  | updated (k : Key) (htarget : d.updateTarget uid desc = some (some k))
      (hforged : d.cache.keys.containsKey k = true) :
    UpdateOutcome uid d desc publicCert certificateChain
      ({ d with cache := d.cache.updateKeyCertChain k publicCert certificateChain }, .successReply)
  | cleared (k : Key) (htarget : d.updateTarget uid desc = some (some k))
      (hforged : d.cache.keys.containsKey k = false) :
    UpdateOutcome uid d desc publicCert certificateChain
      (d.invalidateCertificateResponseState ⟨uid, k.keyAlias⟩ false, .Continue)

theorem preUpdateSubcomponent_outcome (uid : Int) (d : Daemon) (desc : KeyDescriptor)
    (publicCert certificateChain : Option Bytes) :
    UpdateOutcome uid d desc publicCert certificateChain
      (d.preUpdateSubcomponent uid (some desc) publicCert certificateChain) := by
  unfold preUpdateSubcomponent
  dsimp only
  split
  · next htarget => exact .refused htarget
  · next htarget => exact .untouched htarget
  · next k htarget =>
    split_ifs with hforged
    · exact .updated k htarget hforged
    · exact .cleared k htarget ((Bool.not_eq_true _).mp hforged)

theorem preUpdateSubcomponent_steps (kd : Option KeyDescriptor)
    (publicCert certificateChain : Option Bytes) :
    d.Steps uid (.updateSubcomponent kd publicCert certificateChain) ids d.clock
      (d.preUpdateSubcomponent uid kd publicCert certificateChain).1 := by
  cases kd with
  | none => exact .unchanged
  | some desc =>
    have houtcome := preUpdateSubcomponent_outcome uid d desc publicCert certificateChain
    generalize d.preUpdateSubcomponent uid (some desc) publicCert certificateChain = outcome at houtcome ⊢
    cases houtcome with
    | refused => exact .unchanged
    | untouched => exact .unchanged
    | updated k htarget hforged => exact .updated k _ _ _ rfl hforged (updateTarget_eq_some htarget)
    | cleared k => exact .cleared k.keyAlias

theorem preGrant_steps (kd : Option KeyDescriptor) (granteeUid : Int)
    (accessVector : BitVec 32) :
    d.Steps uid (.grant kd granteeUid accessVector) (fun n => n = env.nextLong) d.clock
      (d.preGrant env uid kd granteeUid accessVector).1 := by
  unfold preGrant
  split_ifs
  · split
    · exact .unchanged
    · next k hkey =>
      split_ifs with hk hpatched
      · dsimp only
        unfold forgeGrant
        split
        · next n g hg =>
          obtain ⟨hlookup, hg⟩ := HashMap.firstEntry_eq_some hg
          simp only [Bool.and_eq_true, decide_eq_true_eq] at hg
          obtain ⟨rfl, rfl⟩ := hg
          exact .regranted n g kd accessVector rfl hkey hlookup
        · refine .granted env.nextLong k kd granteeUid accessVector rfl hkey ?_ rfl
          simp [isPatchedKey, hk]
      · exact .unchanged
      · exact .unchanged
  · exact .unchanged

theorem preUngrant_steps (kd : Option KeyDescriptor) (granteeUid : Int) :
    d.Steps uid request ids d.clock (d.preUngrant uid kd granteeUid).1 := by
  unfold preUngrant
  split
  · exact .unchanged
  · next k hkey =>
    obtain ⟨desc, -, hkey⟩ := Option.bind_eq_some_iff.1 hkey
    exact .ungranted k granteeUid (resolveKey_uid hkey)

variable (uid d) in
/-- Before the real keystore is asked, `getKeyEntry` at most clears a key of the caller. -/
theorem preGetKeyEntry_owners (kd : Option KeyDescriptor) :
    ((d.preGetKeyEntry env uid kd).1.cache = d.cache ∨ ∃ a,
        (d.preGetKeyEntry env uid kd).1.cache = d.cache.clear ⟨uid, a⟩) ∧
      (d.preGetKeyEntry env uid kd).1.passthrough = d.passthrough := by
  have hmode (desc : KeyDescriptor) :
      ((d.preGetKeyEntryByMode env uid desc).1.cache = d.cache ∨ ∃ a,
          (d.preGetKeyEntryByMode env uid desc).1.cache = d.cache.clear ⟨uid, a⟩) ∧
        (d.preGetKeyEntryByMode env uid desc).1.passthrough = d.passthrough := by
    unfold preGetKeyEntryByMode rejectHistoricalOwners
    dsimp only
    repeat' split
    all_goals first | exact ⟨.inl rfl, rfl⟩ | exact ⟨.inr ⟨_, rfl⟩, rfl⟩
  unfold preGetKeyEntry
  repeat' split
  all_goals first | exact ⟨.inl rfl, rfl⟩ | exact hmode _

theorem preGetKeyEntry_steps (kd : Option KeyDescriptor) :
    d.Steps uid request ids d.clock (d.preGetKeyEntry env uid kd).1 := by
  obtain ⟨h | ⟨a, h⟩, hp⟩ := preGetKeyEntry_owners env uid d kd
  · rw [Steps, h, hp]
    exact .unchanged
  · rw [Steps, h, hp]
    exact .cleared a

/-- Every pre-hook takes one of the steps. -/
theorem pre_steps (request : Request) :
    d.Steps uid request (fun n => n = env.nextLong) d.clock (d.pre P env uid request).1 := by
  show d.Steps uid request _ d.clock (d.onPreTransact P env uid request).1
  cases request with
  | generateKey level kd ak params => exact preGenerateKey_steps P env level kd ak params rfl
  | importKey => exact .unchanged
  | createOperation level kd opParams force =>
    rcases preCreateOperation_fst P env uid d kd opParams force with h | ⟨op, h⟩
    all_goals
      rw [onPreTransact, h]
      exact .unchanged
  | deleteKey kd => exact preDeleteKey_steps kd
  | updateSubcomponent kd cert chain => exact preUpdateSubcomponent_steps kd cert chain
  | grant kd granteeUid accessVector => exact preGrant_steps env kd granteeUid accessVector
  | ungrant kd granteeUid => exact preUngrant_steps kd granteeUid
  | getKeyEntry kd => exact preGetKeyEntry_steps env kd
  | listEntries =>
    unfold onPreTransact preListEntries
    dsimp only
    split_ifs <;> exact .unchanged

/-! ## The post-hooks -/

theorem promotePassthrough_steps (a : String) (metadata : Option KeyMetadata)
    (hid : ∀ n, (metadata.bind KeyMetadata.key).map KeyDescriptor.nspace = some n → ids n)
    (hrequest : request.isGenerateKey = true) :
    d.Steps uid request ids d.clock (d.promotePassthrough uid a metadata) :=
  .promoted a _ hid hrequest

theorem patchGenerateKeyReply_steps (a : String) (metadata : KeyMetadata)
    (chain : List Certificate)
    (hid : ∀ n, metadata.key.map KeyDescriptor.nspace = some n → ids n)
    (hrequest : request.isGenerateKey = true) :
    d.Steps uid request ids d.clock (d.patchGenerateKeyReply env level uid a metadata chain).1 := by
  unfold patchGenerateKeyReply
  dsimp only
  refine .patched a _ rfl (fun n hn => hid n ?_) hrequest
  simpa [KeyEntryResponse.nspace] using hn

theorem postGenerateKey_steps (kd : Option KeyDescriptor) (reply : Option Parcel)
    (hrequest : request.isGenerateKey = true) :
    d.Steps uid request (fun n => n ∈ Parcel.keyIds (reply.getD [])) d.clock
      (d.postGenerateKey P env level uid kd reply).1 := by
  unfold postGenerateKey
  split
  · dsimp only
    split
    · exact .unchanged
    · next body hp =>
      split
      · exact .unchanged
      · next metadata rest hm =>
        split_ifs
        · refine promotePassthrough_steps _ metadata (fun n hn => ?_) hrequest
          obtain ⟨desc, hdesc, rfl⟩ := Option.map_eq_some_iff.1 hn
          obtain ⟨m, rfl, hkey⟩ := Option.bind_eq_some_iff.1 hdesc
          exact Parcel.metadata_keyIds hp hm (by rw [hkey]; rfl)
        · split
          · exact .unchanged
          · split
            · exact .unchanged
            · exact patchGenerateKeyReply_steps env level _ _ _
                (fun n hn => Parcel.metadata_keyIds hp hm hn) hrequest
  · exact .unchanged

theorem postImportKey_steps (kd : Option KeyDescriptor) (reply : Option Parcel) :
    d.Steps uid request ids d.clock (d.postImportKey uid kd reply).1 := by
  unfold postImportKey
  split
  · exact .relinquished _
  · exact .unchanged

theorem postDeleteKey_steps (kd : Option KeyDescriptor) (resultCode : Int) :
    d.Steps uid request ids d.clock (d.postDeleteKey uid kd resultCode).1 := by
  unfold postDeleteKey
  split
  · dsimp only
    split_ifs
    · exact .relinquished _
    · exact .unchanged
  · exact .unchanged

theorem postUpdateSubcomponent_steps (kd : Option KeyDescriptor) (resultCode : Int) :
    d.Steps uid request ids d.clock (d.postUpdateSubcomponent uid kd resultCode).1 := by
  unfold postUpdateSubcomponent
  split
  · exact .unchanged
  · split
    · dsimp only
      split_ifs
      · exact .relinquished _
      · exact .unchanged
    · exact .unchanged

theorem postGrant_steps (kd : Option KeyDescriptor) (granteeUid : Int)
    (accessVector : BitVec 32) (resultCode : Int) (reply : Parcel) :
    d.Steps uid (.grant kd granteeUid accessVector) (fun n => n ∈ reply.keyIds) d.clock
      (d.postGrant uid kd granteeUid accessVector resultCode reply).1 := by
  unfold postGrant
  split
  · split
    · next body key hp hkey =>
      split
      · next hd =>
        split_ifs with hk
        · exact .granted _ key kd granteeUid accessVector rfl hkey hk
            (Parcel.descriptor_keyIds hp hd)
        · exact .unchanged
      · exact .unchanged
    · exact .unchanged
  · exact .unchanged

theorem patchLeaf_steps (kd : Option KeyDescriptor) (body : Parcel) :
    d.Steps uid (.getKeyEntry kd) ids d.clock (d.patchLeaf env uid P body).1 := by
  unfold patchLeaf
  split
  · next r _ _ =>
    dsimp only
    split
    · exact .unchanged
    · cases hk : (r.nspace.filter fun n => n ≠ 0).bind d.cache.keysByNspace.lookup with
      | none => exact .unchanged
      | some k =>
        obtain ⟨n, hn, hk⟩ := Option.bind_eq_some_iff.1 hk
        obtain ⟨hnspace, hn⟩ := Option.filter_eq_some_iff.1 hn
        refine .resigned k n _ kd rfl rfl (by simpa using hn) hk ?_
        rw [← hnspace]
        simp [KeyEntryResponse.nspace]
  · exact .unchanged

theorem postGetKeyEntry_steps (kd : Option KeyDescriptor) (reply : Parcel) :
    d.Steps uid (.getKeyEntry kd) ids d.clock (d.postGetKeyEntry env uid P kd reply).1 := by
  unfold postGetKeyEntry
  split
  · exact .unchanged
  · dsimp only
    split
    · exact .unchanged
    · exact .unchanged
    · exact patchLeaf_steps (d := d.checked env uid) P env _ _

/-- Every post-hook takes one of the steps. -/
theorem post_steps (request : Request) (resultCode : Int) (reply : Option Parcel) :
    d.Steps uid request (fun n => n ∈ Parcel.keyIds (reply.getD [])) d.clock
      (d.post P env uid request resultCode reply).1 := by
  show d.Steps uid request _ d.clock (d.onPostTransact P env uid request resultCode reply).1
  unfold onPostTransact
  split
  · exact postGenerateKey_steps P env _ _ _ rfl
  · exact postImportKey_steps _ _
  · exact postDeleteKey_steps _ _
  · exact postUpdateSubcomponent_steps _ _
  · exact postGrant_steps _ _ _ _ _
  · exact postGetKeyEntry_steps P env _ _
  · unfold postListEntries
    split_ifs <;> exact .unchanged
  · exact .unchanged

end Daemon

end TrickyStore
