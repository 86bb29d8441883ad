import TrickyStore.Proof.Entries

/-!
# Access through grants

A caller reaches the cached entry of another uid's key only through a grant that the owner recorded.
Each handler looks the grant up in its own way and tests its own permission: the `getKeyEntry`
pre-hook and `updateSubcomponent` do, `createOperation` and the `getKeyEntry` post-hook do not.
-/

open Lib

namespace TrickyStore

open CertificateAliasCache

/-- The entries under `k` are the same in both caches. -/
def CertificateAliasCache.SameEntry (c c' : CertificateAliasCache) (k : Key) : Prop :=
  c'.keys.lookup k = c.keys.lookup k ∧ c'.patchedResponses.lookup k = c.patchedResponses.lookup k

/-- There is a grant of `k` to `v` under the id `n`. -/
def World.HasGrant (n : Int) (k : Key) (v : Int) (w : World) : Prop :=
  ∃ g, w.daemon.cache.grants.lookup n = some g ∧ g.key = k ∧ g.granteeUid = v

/-- One of the hooks of a grant call in which the owner of `k` names `k` and the grantee `v`. -/
def World.GrantCall (w : World) (k : Key) (v : Int) (e : Event) : Prop :=
  ∃ kd accessVector, kd.bind (w.daemon.cache.resolveKey k.uid) = some k ∧
    ((∃ id env, e = .arrive id k.uid (.grant kd v accessVector) env) ∨
      ∃ id resultCode reply env t, e = .complete id resultCode reply env ∧
        w.inFlight.lookup id = some t ∧ t.uid = k.uid ∧ t.request = .grant kd v accessVector)

/-- The permission that a request needs for another uid's key. -/
def Request.permission : Request → BitVec 32
  | .createOperation .. => KeyPermission.USE
  | .updateSubcomponent .. => KeyPermission.UPDATE
  | _ => KeyPermission.GET_INFO

/-- A hook with this outcome answers from the entry of `k` or changes it. -/
def Daemon.Touches (d : Daemon) (outcome : Daemon × Result) (k : Key) : Prop :=
  (∃ o, outcome.2.origin = some o ∧ o.key = k) ∨ ¬ d.cache.SameEntry outcome.1.cache k

section Access

variable (P : Platform)

/-- The event is a hook of a request of `v` that touches the entry of `k` and needs the permission. -/
inductive World.Access (w : World) : Event → Int → Key → BitVec 32 → Prop
  | pre (id : ℕ) (uid : Int) (request : Request) (env : Env) (k : Key)
      (h : w.daemon.Touches (w.daemon.pre P env uid request) k) :
    w.Access (.arrive id uid request env) uid k request.permission
  | post (id : ℕ) (resultCode : Int) (reply : Option Parcel) (env : Env) (t : Transaction) (k : Key)
      (ht : w.inFlight.lookup id = some t)
      (h : w.daemon.Touches (w.daemon.post P env t.uid t.request resultCode reply) k) :
    w.Access (.complete id resultCode reply env) t.uid k t.request.permission

/-- After the events, the grant of `k` to `v` under `n` is one that a grant call of the owner
recorded and that has been there ever since. -/
def GrantRecorded (es : List Event) (n : Int) (k : Key) (v : Int) : Prop :=
  ∃ before e after, es = before ++ e :: after ∧ (World.run P {} before).GrantCall k v e ∧
    ∀ later, later <+: after → World.HasGrant n k v (World.run P {} (before ++ e :: later))

/-- Every access to another uid's entry has a recorded grant with the permission. -/
def GrantsGuardAccess (es : List Event) : Prop :=
  ∀ before e after, es = before ++ e :: after →
    ∀ v k permission, (World.run P {} before).Access P e v k permission → k.uid ≠ v →
      ∃ n g, (World.run P {} before).daemon.cache.grants.lookup n = some g ∧ g.key = k ∧
        g.granteeUid = v ∧ g.allows permission = true ∧ GrantRecorded P before n k v

end Access

/-- A grant of a forged key that a `createOperation` names allows USE; one that a completing
`getKeyEntry` is served from allows GET_INFO, and what the latter re-signs is not registered for
another uid. -/
def World.GrantAllows (w : World) : Event → Prop
  | .arrive _ uid (.createOperation _ (some desc) _ _) _ => ∀ g,
      w.daemon.grantFor uid desc.nspace = some g → w.daemon.cache.keys.containsKey g.key = true →
        g.allows KeyPermission.USE = true
  | .complete id _ (some reply) env => ∀ t kd, w.inFlight.lookup id = some t →
      t.request = .getKeyEntry kd →
        match GetKeyEntryPostPolicy.decide (w.daemon.postHookInput env t.uid kd) with
        | .PASSTHROUGH_UNMODIFIED => True
        | .SERVE_CACHED_PATCH => ∀ desc g, kd = some desc →
          w.daemon.grantFor t.uid desc.nspace = some g → g.allows KeyPermission.GET_INFO = true
        | .PATCH_LEAF => ∀ n ∈ reply.keyIds, ∀ k, w.daemon.cache.keysByNspace.lookup n = some k →
          k.uid = t.uid
  | _ => True

/-! ## Where grants come from -/

/-- A grant that a hook records is of the caller's own key, which the request names. -/
theorem HookStep.grant_origin {uid : Int} {request : Request} {now : ℕ} {ids : Int → Prop}
    {c c' : CertificateAliasCache} {p p' : PassthroughKeyRegistry} {n : Int} {g : GrantInfo}
    (h : HookStep uid request now ids c p c' p') (hg : c'.grants.lookup n = some g) :
    (∃ g', c.grants.lookup n = some g' ∧ g'.key = g.key ∧ g'.granteeUid = g.granteeUid) ∨
      ∃ kd accessVector, request = .grant kd g.granteeUid accessVector ∧
        kd.bind (c.resolveKey uid) = some g.key ∧ g.key.uid = uid := by
  have hown {kd : Option KeyDescriptor} {k : Key} (h : kd.bind (c.resolveKey uid) = some k) :
      k.uid = uid := by
    obtain ⟨desc, -, h⟩ := Option.bind_eq_some_iff.1 h
    exact resolveKey_uid h
  have hclear {k : Key} {n : Int} (h : (c.clear k).grants.lookup n = some g) :
      c.grants.lookup n = some g := by
    rw [clear_grants, HashMap.lookup_removeIf_eq_some] at h
    exact h.1
  cases h with
  | unchanged | unskipped | updated | resigned => exact .inl ⟨g, hg, rfl, rfl⟩
  | cleared | relinquished | generated => exact .inl ⟨g, hclear hg, rfl, rfl⟩
  | patched | promoted =>
    simp only [storePatched, register_grants] at hg
    exact .inl ⟨g, hclear hg, rfl, rfl⟩
  | regranted n' g' kd accessVector hrequest hkey hg' =>
    rcases HashMap.lookup_insert_eq_some.1 hg with ⟨rfl, rfl⟩ | ⟨-, hg⟩
    · exact .inl ⟨g', hg', rfl, rfl⟩
    · exact .inl ⟨g, hg, rfl, rfl⟩
  | granted n' k kd granteeUid accessVector hrequest hkey =>
    rcases HashMap.lookup_insert_eq_some.1 hg with ⟨-, rfl⟩ | ⟨-, hg⟩
    · exact .inr ⟨kd, accessVector, hrequest, hkey, hown hkey⟩
    · exact .inl ⟨g, hg, rfl, rfl⟩
  | ungranted =>
    rw [HashMap.lookup_removeIf_eq_some] at hg
    exact .inl ⟨g, hg.1, rfl, rfl⟩

namespace Daemon

variable {P : Platform} {env : Env} {d : Daemon}

theorem loadPersistedKeys_grants {level : SecurityLevel} :
    (d.loadPersistedKeys P env level).cache.grants = d.cache.grants :=
  loadPersistedKeys_invariant (I := fun d' => d'.cache.grants = d.cache.grants) rfl fun _ _ _ h => h

theorem operate_cache_grants {op : ℕ} {call : SoftwareOperationBinder.Call} :
    (d.operate op call).cache.grants = d.cache.grants := by
  unfold operate
  split <;> rfl

theorem initializeConfig_grants (modes : Option (HashMap String Mode))
    (keyboxes : Option (HashMap String KeyBox)) :
    (d.initializeConfig modes keyboxes).cache.grants = d.cache.grants ∨
      (d.initializeConfig modes keyboxes).cache.grants = ∅ := by
  cases modes <;> cases keyboxes
  · exact .inl rfl
  · exact .inr rfl
  · exact .inl rfl
  · exact .inr rfl

end Daemon

/-- A grant that was not there before an event was recorded by a grant call of the key's owner. -/
theorem World.grantCall_of_new {P : Platform} {w : World} {e : Event} {n : Int} {k : Key} {v : Int}
    (hnew : ¬ HasGrant n k v w) (h : HasGrant n k v (w.next P e)) : w.GrantCall k v e := by
  obtain ⟨g, hg, rfl, rfl⟩ := h
  have hold : w.daemon.cache.grants.lookup n ≠ some g := fun h => hnew ⟨g, h, rfl, rfl⟩
  cases e with
  | arrive id uid request env =>
    rcases w.arrive_daemon P id uid request env with hd | hd
    · rw [next, hd] at hg
      exact absurd hg hold
    · rw [next, hd] at hg
      rcases (Daemon.pre_steps P env request).grant_origin hg with ⟨g', hg', hk, hv⟩ | h
      · exact absurd ⟨g', hg', hk, hv⟩ hnew
      · obtain ⟨kd, accessVector, rfl, hkey, rfl⟩ := h
        exact ⟨kd, accessVector, hkey, .inl ⟨id, env, rfl⟩⟩
  | complete id resultCode reply env =>
    rcases w.complete_daemon P id resultCode reply env with hd | ⟨t, ht, hd⟩
    · rw [next, hd] at hg
      exact absurd hg hold
    · rw [next, hd] at hg
      rcases (Daemon.post_steps P env t.request resultCode reply).grant_origin hg with
        ⟨g', hg', hk, hv⟩ | ⟨kd, accessVector, hrequest, hkey, huid⟩
      · exact absurd ⟨g', hg', hk, hv⟩ hnew
      · exact ⟨kd, accessVector, huid ▸ hkey,
          .inr ⟨id, resultCode, reply, env, t, rfl, ht, huid.symm, hrequest⟩⟩
  | operate op call =>
    rw [next, withDaemon, Daemon.operate_cache_grants] at hg
    exact absurd hg hold
  | keyboxChanged | restart => cases hg
  | loadPersistedKeys level env =>
    dsimp only [next] at hg
    split_ifs at hg
    · exact absurd (Daemon.loadPersistedKeys_grants ▸ hg) hold
    · exact absurd hg hold
  | initializeConfig modes keyboxes =>
    dsimp only [next] at hg
    split_ifs at hg
    · rcases Daemon.initializeConfig_grants (d := w.daemon) modes keyboxes with h | h
      · exact absurd (h ▸ hg) hold
      · rw [h] at hg
        cases hg
    · exact absurd hg hold
  | _ => exact absurd hg hold

/-- Every grant of a run was recorded by a grant call of the key's owner. -/
theorem grantRecorded_of_lookup {P : Platform} {es : List Event} {n : Int} {g : GrantInfo}
    (hg : (World.run P {} es).daemon.cache.grants.lookup n = some g) :
    GrantRecorded P es n g.key g.granteeUid := by
  have hinit : ¬ World.HasGrant n g.key g.granteeUid {} := by
    rintro ⟨g', hg', -⟩
    cases hg'
  obtain ⟨before, e, after, hes, hbefore, hsince⟩ := Machine.exists_origin (World.next P)
    hinit ⟨g, hg, rfl, rfl⟩
  refine ⟨before, e, after, hes, World.grantCall_of_new (P := P) hbefore ?_, hsince⟩
  have := hsince [] (List.nil_prefix)
  rwa [Machine.run_concat] at this

/-! ## What a hook touches of another uid's key -/

namespace CertificateAliasCache

variable {c : CertificateAliasCache} {k k' : Key}

theorem sameEntry_clear (h : k' ≠ k) : c.SameEntry (c.clear k) k' := by
  simp only [SameEntry, clear_keys, clear_patchedResponses, HashMap.lookup_erase_ite, if_neg h,
    and_self]

theorem SameEntry.register {c' : CertificateAliasCache} {n : Option Int} (h : c.SameEntry c' k') :
    c.SameEntry (c'.register k n) k' := by
  simpa only [SameEntry, register_keys, register_patchedResponses] using h

theorem SameEntry.insertPatched {c' : CertificateAliasCache} {r : KeyEntryResponse} (hk : k' ≠ k)
    (h : c.SameEntry c' k') :
    c.SameEntry { c' with patchedResponses := c'.patchedResponses.insert k r } k' :=
  ⟨h.1, (by simp only [HashMap.lookup_insert_ite, if_neg hk, h.2])⟩

theorem SameEntry.insertKey {c' : CertificateAliasCache} {info : Info} {pair : KeyPair}
    {chain : List Certificate} {n : Int} {skipLeafHack : Bool} (hk : k' ≠ k)
    (h : c.SameEntry c' k') :
    c.SameEntry (c'.storeGenerated k info pair chain n skipLeafHack) k' :=
  ⟨(by simp only [storeGenerated, HashMap.lookup_insert_ite, if_neg hk, h.1]), h.2⟩

theorem sameEntry_updateKeyCertChain {publicCert certificateChain : Option Bytes} (h : k' ≠ k) :
    c.SameEntry (c.updateKeyCertChain k publicCert certificateChain) k' := by
  simp [SameEntry, updateKeyCertChain_keys_lookup, updateKeyCertChain_patchedResponses_lookup, h]

end CertificateAliasCache

/-- A hook changes the entry of another uid's key only in an update with the permission, or when it
re-signs. -/
theorem HookStep.foreign_entry {uid : Int} {request : Request} {now : ℕ} {ids : Int → Prop}
    {c c' : CertificateAliasCache} {p p' : PassthroughKeyRegistry} {k : Key}
    (h : HookStep uid request now ids c p c' p') (hk : k.uid ≠ uid) (hc : ¬ c.SameEntry c' k) :
    (∃ n g, request.permission = KeyPermission.UPDATE ∧ c.grants.lookup n = some g ∧
      g.granteeUid = uid ∧ g.key = k ∧ g.allows KeyPermission.UPDATE = true) ∨
      ∃ kd, request = .getKeyEntry kd := by
  have hne {a : String} : k ≠ ⟨uid, a⟩ := fun h => hk (h ▸ rfl)
  cases h with
  | unchanged | unskipped | regranted | granted | ungranted => exact absurd ⟨rfl, rfl⟩ hc
  | cleared | relinquished => exact absurd (sameEntry_clear hne) hc
  | generated => exact absurd ((sameEntry_clear hne).insertKey hne) hc
  | patched => exact absurd ((sameEntry_clear hne).insertPatched hne).register hc
  | promoted => exact absurd (sameEntry_clear hne).register hc
  | updated k' kd cert chain hrequest hk' hallowed =>
    obtain rfl : k = k' := by_contra fun hne => hc (sameEntry_updateKeyCertChain hne)
    obtain ⟨n, g, hg, hgrantee, hkey, hallows⟩ := hallowed.resolve_left hk
    exact .inl ⟨n, g, hrequest ▸ rfl, hg, hgrantee, hkey, hallows⟩
  | resigned _ _ _ kd hrequest => exact .inr ⟨kd, hrequest⟩

namespace Daemon

variable {P : Platform} {env : Env} {uid : Int} {d : Daemon} {desc : KeyDescriptor} {k : Key}

/-- Another uid's key is resolved through a grant. -/
theorem grantFor_of_foreign (hk : k ∈ d.cache.resolveOwnerKeys uid desc) (huid : k.uid ≠ uid) :
    ∃ g, d.grantFor uid desc.nspace = some g ∧ g.key = k := by
  rcases mem_resolveOwnerKeys.1 hk with ⟨hn, hown | hgranted⟩ | ⟨a, -, rfl⟩
  · exact absurd (ownKey_eq_some.1 hown).2 huid
  · obtain ⟨g, hg, hgrantee, hkey⟩ := grantedKey_eq_some.1 hgranted
    refine ⟨g, ?_, hkey⟩
    rw [grantFor, if_pos hn, hg, Option.filter_some, if_pos (by simpa using hgrantee)]
  · exact absurd rfl huid

/-- The pre-hook of `getKeyEntry` answers nothing from a grant without GET_INFO. -/
theorem preGetKeyEntry_grant {g : GrantInfo} {o : Origin}
    (hg : d.grantFor uid desc.nspace = some g)
    (ho : (d.preGetKeyEntry env uid (some desc)).2.origin = some o) :
    g.allows KeyPermission.GET_INFO = true := by
  by_contra hallows
  unfold preGetKeyEntry at ho
  simp only [hg, hallows, if_false] at ho
  split at ho <;> cases ho

/-- The post-hook of `getKeyEntry` answers from an entry only by one of its actions. -/
theorem postGetKeyEntry_action {kd : Option KeyDescriptor} {reply : Parcel} {o : Origin}
    (ho : (d.postGetKeyEntry env uid P kd reply).2.origin = some o) :
    GetKeyEntryPostPolicy.decide (d.postHookInput env uid kd) = .SERVE_CACHED_PATCH := by
  unfold postGetKeyEntry at ho
  split at ho
  · cases ho
  · dsimp only at ho
    split at ho
    · cases ho
    · next h => exact h
    · unfold patchLeaf at ho
      repeat' split at ho
      all_goals cases ho

/-- The post-hook of `getKeyEntry` changes only the entry of a key registered under an id of the
reply. -/
theorem postGetKeyEntry_changes {kd : Option KeyDescriptor} {reply : Parcel}
    (h : ¬ d.cache.SameEntry (d.postGetKeyEntry env uid P kd reply).1.cache k) :
    GetKeyEntryPostPolicy.decide (d.postHookInput env uid kd) = .PATCH_LEAF ∧
      ∃ n ∈ reply.keyIds, d.cache.keysByNspace.lookup n = some k := by
  have hsame : d.cache.SameEntry d.cache k := ⟨rfl, rfl⟩
  unfold postGetKeyEntry at h
  split at h
  · exact absurd hsame h
  · next body hbody =>
    dsimp only at h
    split at h
    · exact absurd hsame h
    · exact absurd hsame h
    · next haction =>
      refine ⟨haction, ?_⟩
      unfold patchLeaf at h
      split at h
      · next r rest hr =>
        obtain ⟨body', hbody', hr⟩ := Option.bind_eq_some_iff.1 hr
        obtain ⟨item, hitem, hcreate⟩ := Parcel.readTypedObject_mem hr
        have hmem : item ∈ reply := (Parcel.readException_suffix hbody).subset
          ((Parcel.readException_suffix hbody').subset hitem)
        dsimp only at h
        split at h
        · exact absurd hsame h
        · change ¬ d.cache.SameEntry { d.cache with patchedResponses := _ } k at h
          cases hk : (r.nspace.filter fun n => n ≠ 0).bind d.cache.keysByNspace.lookup with
          | none =>
            simp only [checked, hk] at h
            exact absurd hsame h
          | some k' =>
            simp only [checked, hk] at h
            obtain rfl : k = k' := by_contra fun hne => h (hsame.insertPatched hne)
            obtain ⟨n, hn, hlookup⟩ := Option.bind_eq_some_iff.1 hk
            refine ⟨n, Parcel.mem_keyIds hmem ?_, hlookup⟩
            rw [Parcel.keyEntryResponseCreator_eq_some hcreate]
            exact (Option.filter_eq_some_iff.1 hn).1
      · exact absurd hsame h

end Daemon

namespace World

variable {P : Platform} {w : World}

/-- An access from a step that meets the condition is through a grant with the permission. -/
theorem Access.grant {e : Event} {v : Int} {k : Key} {permission : BitVec 32}
    (h : w.Access P e v k permission) (hk : k.uid ≠ v) (hc : w.GrantAllows e) :
    ∃ n g, w.daemon.cache.grants.lookup n = some g ∧ g.key = k ∧ g.granteeUid = v ∧
      g.allows permission = true := by
  cases h with
  | pre id uid request env k h =>
    rcases h with ⟨o, ho, rfl⟩ | hchange
    · obtain ⟨hread, desc, hdesc, hkey, -⟩ := Daemon.pre_answeredFrom ho
      obtain ⟨g, hg, hgkey⟩ := Daemon.grantFor_of_foreign hkey hk
      obtain ⟨-, hlookup, hgrantee⟩ := Daemon.grantFor_eq_some hg
      refine ⟨_, g, hlookup, hgkey, hgrantee, ?_⟩
      cases request with
      | getKeyEntry kd =>
        obtain rfl : kd = some desc := hdesc
        exact Daemon.preGetKeyEntry_grant hg ho
      | createOperation level kd opParams force =>
        obtain rfl : kd = some desc := hdesc
        obtain ⟨_, info, -, hfound, -⟩ := Daemon.preCreateOperation_owner ho
        refine hc g hg (HashMap.containsKey_eq_true.2 ⟨info, ?_⟩)
        rw [hgkey]
        exact (findGeneratedOwner_eq_some hfound).2
      | _ => cases hread
    · rcases (Daemon.pre_steps P env request).foreign_entry hk hchange with h | ⟨kd, rfl⟩
      · obtain ⟨n, g, hpermission, hlookup, hgrantee, hkey, hallows⟩ := h
        exact ⟨n, g, hlookup, hkey, hgrantee, hpermission ▸ hallows⟩
      · refine absurd ?_ hchange
        show w.daemon.cache.SameEntry (w.daemon.preGetKeyEntry env v kd).1.cache k
        rcases (Daemon.preGetKeyEntry_owners env v w.daemon kd).1 with h | ⟨a, h⟩
        · exact h ▸ ⟨rfl, rfl⟩
        · rw [h]
          exact sameEntry_clear fun hka => hk (hka ▸ rfl)
  | post id resultCode reply env t k ht h =>
    rcases h with ⟨o, ho, rfl⟩ | hchange
    · obtain ⟨desc, hrequest, hkey, -⟩ := Daemon.post_answeredFrom ho
      obtain ⟨g, hg, hgkey⟩ := Daemon.grantFor_of_foreign hkey hk
      obtain ⟨-, hlookup, hgrantee⟩ := Daemon.grantFor_eq_some hg
      refine ⟨_, g, hlookup, hgkey, hgrantee, ?_⟩
      rw [hrequest] at ho ⊢
      cases reply with
      | none => cases ho
      | some p =>
        have hc := hc t (some desc) ht hrequest
        rw [Daemon.postGetKeyEntry_action ho] at hc
        exact hc desc g rfl hg
    · rcases (Daemon.post_steps P env t.request resultCode reply).foreign_entry hk hchange with
        h | ⟨kd, hrequest⟩
      · obtain ⟨n, g, hpermission, hlookup, hgrantee, hkey, hallows⟩ := h
        exact ⟨n, g, hlookup, hkey, hgrantee, hpermission ▸ hallows⟩
      · rw [hrequest] at hchange
        cases reply with
        | none => exact absurd ⟨rfl, rfl⟩ hchange
        | some p =>
          obtain ⟨haction, n, hn, hlookup⟩ := Daemon.postGetKeyEntry_changes hchange
          have hc := hc t kd ht hrequest
          rw [haction] at hc
          exact absurd (hc n hn k hlookup) hk

end World

/-- In a run whose steps all find the permission in the grants they do not check, grants guard every
access. -/
theorem grantsGuardAccess_of_grantAllows (P : Platform) (es : List Event)
    (h : Machine.AllSteps (World.next P) World.GrantAllows {} es) : GrantsGuardAccess P es := by
  intro before e after hes v k permission haccess hk
  obtain ⟨n, g, hg, rfl, rfl, hallows⟩ := haccess.grant hk (h before e after hes)
  exact ⟨n, g, hg, rfl, rfl, hallows, grantRecorded_of_lookup hg⟩

namespace Demo

/-- The owner forges the key 5 and grants it to the other app under the id 6. -/
def forgeAndShare (accessVector : BitVec 32) : List Event :=
  start .GENERATE .AUTO ++ [.arrive 1 owner (generate ecParams) (env 5),
    .arrive 2 owner (.grant (some byAlias) other accessVector) (env 6)]

/-- The grantee asks for a signature with the granted key. -/
def signGranted : Event :=
  .arrive 3 other (.createOperation .trustedEnvironment (some (byId 6))
    [⟨Tag.PURPOSE, .keyPurpose KeyPurpose.SIGN⟩] false) (env 7)

end Demo

open Demo in
theorem grantsGuardAccess_with_use :
    GrantsGuardAccess platform (forgeAndShare KeyPermission.USE ++ [signGranted]) := by
  refine grantsGuardAccess_of_grantAllows platform _ ?_
  refine Machine.allSteps_cons trivial (Machine.allSteps_cons trivial ?_)
  refine Machine.allSteps_cons trivial (Machine.allSteps_cons (fun g hg _ => ?_) Machine.allSteps_nil)
  obtain rfl := Option.some.inj hg
  decide

open Demo in
/-- `createOperation` never looks at the access vector: a grant of GET_INFO is enough to sign. -/
theorem operation_without_use : ¬ ∀ P es, GrantsGuardAccess P es := by
  intro h
  have haccess : (World.run platform {} (forgeAndShare KeyPermission.GET_INFO)).Access platform
      signGranted other key KeyPermission.USE :=
    .pre 3 other _ (env 7) key (.inl ⟨⟨key, 0⟩, by decide, rfl⟩)
  obtain ⟨n, g, hg, -, -, hallows, -⟩ := h platform (forgeAndShare KeyPermission.GET_INFO ++ [signGranted])
    (forgeAndShare KeyPermission.GET_INFO) signGranted [] rfl other key KeyPermission.USE haccess
    (by decide)
  have hnone : (World.run platform {} (forgeAndShare
      KeyPermission.GET_INFO)).daemon.cache.grants.entries.all
        (fun e => !e.2.allows KeyPermission.USE) = true := by decide
  have := List.all_eq_true.1 hnone _ (HashMap.lookup_eq_some_iff.1 hg)
  simp [hallows] at this

end TrickyStore
