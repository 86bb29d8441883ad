import TrickyStore.Proof.HookFrame

/-!
# Entries and the answers taken from them

An entry is a response object under its key, in `keys` or in `patchedResponses`.  A hook keeps,
drops or certifies entries anew but never moves one, and an entry it makes carries the time of the
hook.  Every local answer about a key is taken from an entry that the request's descriptor names.
-/

open Lib

namespace TrickyStore

open CertificateAliasCache

/-- The entry is in one of the two maps that answers are taken from. -/
def CertificateAliasCache.HasEntry (c : CertificateAliasCache) (o : Origin) : Prop :=
  (∃ i, c.keys.lookup o.key = some i ∧ i.response.serial = o.serial) ∨
    ∃ r, c.patchedResponses.lookup o.key = some r ∧ r.serial = o.serial

namespace CertificateAliasCache

variable {c : CertificateAliasCache} {k : Key} {o : Origin}

theorem HasEntry.isPatchedKey (h : c.HasEntry o) : c.isPatchedKey o.key = true := by
  rcases h with ⟨i, hi, -⟩ | ⟨r, hr, -⟩
  · simp [CertificateAliasCache.isPatchedKey, hi]
  · simp [CertificateAliasCache.isPatchedKey, hr]

theorem hasEntry_clear : (c.clear k).HasEntry o ↔ o.key ≠ k ∧ c.HasEntry o := by
  simp only [HasEntry, clear_keys, clear_patchedResponses, HashMap.lookup_erase_eq_some]
  constructor
  · rintro (⟨i, ⟨hk, hi⟩, hs⟩ | ⟨r, ⟨hk, hr⟩, hs⟩)
    · exact ⟨hk, .inl ⟨i, hi, hs⟩⟩
    · exact ⟨hk, .inr ⟨r, hr, hs⟩⟩
  · rintro ⟨hk, ⟨i, hi, hs⟩ | ⟨r, hr, hs⟩⟩
    · exact .inl ⟨i, ⟨hk, hi⟩, hs⟩
    · exact .inr ⟨r, ⟨hk, hr⟩, hs⟩

theorem hasEntry_register {n : Option Int} : (c.register k n).HasEntry o ↔ c.HasEntry o := by
  simp only [HasEntry, register_keys, register_patchedResponses]

theorem hasEntry_insertPatched {r : KeyEntryResponse}
    (h : ({ c with patchedResponses := c.patchedResponses.insert k r } :
      CertificateAliasCache).HasEntry o) : c.HasEntry o ∨ o = ⟨k, r.serial⟩ := by
  rcases h with h | ⟨r', hr', hs⟩
  · exact .inl (.inl h)
  · rcases HashMap.lookup_insert_eq_some.1 hr' with ⟨hk, rfl⟩ | ⟨-, hr'⟩
    · right
      rw [hs, ← hk]
    · exact .inl (.inr ⟨r', hr', hs⟩)

theorem hasEntry_storePatched {r : KeyEntryResponse} (h : (c.storePatched k r).HasEntry o) :
    c.HasEntry o ∨ o = ⟨k, r.serial⟩ :=
  hasEntry_insertPatched (hasEntry_register.1 h)

theorem hasEntry_storeGenerated {info : Info} {pair : KeyPair} {chain : List Certificate} {n : Int}
    {skipLeafHack : Bool} (h : (c.storeGenerated k info pair chain n skipLeafHack).HasEntry o) :
    c.HasEntry o ∨ o = ⟨k, info.response.serial⟩ := by
  rcases h with ⟨i, hi, hs⟩ | h
  · rcases HashMap.lookup_insert_eq_some.1 hi with ⟨hk, rfl⟩ | ⟨-, hi⟩
    · right
      rw [hs, ← hk]
    · exact .inl (.inl ⟨i, hi, hs⟩)
  · exact .inl (.inr h)

section Update

variable {publicCert certificateChain : Option Bytes} {k' : Key}

theorem updateKeyCertChain_keys_lookup :
    (c.updateKeyCertChain k publicCert certificateChain).keys.lookup k' =
      (c.keys.lookup k').map fun i => if k' = k then
        { i with response := setCertificates publicCert certificateChain i.response } else i := by
  unfold updateKeyCertChain
  dsimp only
  split
  · next i hi =>
    rw [HashMap.lookup_insert_ite]
    split_ifs with hk
    · rw [hk, hi]
      rfl
    · simp
  · next hn =>
    split_ifs with hk
    · rw [hk, hn]
      rfl
    · simp

theorem updateKeyCertChain_patchedResponses_lookup :
    (c.updateKeyCertChain k publicCert certificateChain).patchedResponses.lookup k' =
      (c.patchedResponses.lookup k').map fun r => if k' = k then
        setCertificates publicCert certificateChain r else r := by
  unfold updateKeyCertChain
  dsimp only
  split
  · next r hr =>
    rw [HashMap.lookup_insert_ite]
    split_ifs with hk
    · rw [hk, hr]
      rfl
    · simp
  · next hn =>
    split_ifs with hk
    · rw [hk, hn]
      rfl
    · simp

/-- An update writes into the response object that is there. -/
theorem hasEntry_updateKeyCertChain :
    (c.updateKeyCertChain k publicCert certificateChain).HasEntry o ↔ c.HasEntry o := by
  have hserial (r : KeyEntryResponse) :
      (setCertificates publicCert certificateChain r).serial = r.serial := rfl
  simp only [HasEntry, updateKeyCertChain_keys_lookup, updateKeyCertChain_patchedResponses_lookup,
    Option.map_eq_some_iff, exists_exists_and_eq_and, apply_ite KeyEntryResponse.serial,
    apply_ite Info.response, hserial, ite_self]

end Update

end CertificateAliasCache

/-- An entry after a hook was there before or was made by the hook. -/
theorem HookStep.hasEntry {uid : Int} {request : Request} {now : ℕ} {ids : Int → Prop}
    {c c' : CertificateAliasCache} {p p' : PassthroughKeyRegistry} {o : Origin}
    (h : HookStep uid request now ids c p c' p') (ho : c'.HasEntry o) :
    c.HasEntry o ∨ o.serial = now := by
  cases h with
  | unchanged | unskipped | regranted | granted | ungranted => exact .inl ho
  | cleared | relinquished => exact .inl (hasEntry_clear.1 ho).2
  | generated a info pair chain n skip hserial =>
    rcases hasEntry_storeGenerated ho with ho | rfl
    · exact .inl (hasEntry_clear.1 ho).2
    · exact .inr hserial
  | patched a r hserial =>
    rcases hasEntry_storePatched ho with ho | rfl
    · exact .inl (hasEntry_clear.1 ho).2
    · exact .inr hserial
  | promoted => exact .inl (hasEntry_clear.1 (hasEntry_register.1 ho)).2
  | updated => exact .inl (hasEntry_updateKeyCertChain.1 ho)
  | resigned k n r kd hrequest hserial =>
    rcases hasEntry_insertPatched ho with ho | rfl
    · exact .inl ho
    · exact .inr hserial

/-! ## Where local answers come from -/

/-- The descriptor of the key that a request is about. -/
def Request.keyDescriptor : Request → Option KeyDescriptor
  | .generateKey _ kd _ _ | .importKey _ kd | .createOperation _ kd _ _ | .deleteKey kd
  | .updateSubcomponent kd _ _ | .grant kd _ _ | .ungrant kd _ | .getKeyEntry kd => kd
  | .listEntries _ _ => none

/-- The requests that the hooks may answer from an entry. -/
def Request.isRead : Request → Bool
  | .getKeyEntry .. | .createOperation .. => true
  | _ => false

namespace Daemon

variable {P : Platform} {env : Env} {uid : Int} {d : Daemon} {desc : KeyDescriptor} {o : Origin}

/-- The answer names an entry of the cache under a key that the descriptor resolves to. -/
def AnsweredFrom (d : Daemon) (uid : Int) (desc : KeyDescriptor) (o : Origin) : Prop :=
  o.key ∈ d.cache.resolveOwnerKeys uid desc ∧ d.cache.HasEntry o

theorem answeredFrom_generated {k : Key} {i : Info}
    (h : d.cache.findGeneratedOwner uid desc = some (k, i)) :
    d.AnsweredFrom uid desc ⟨k, i.response.serial⟩ := by
  obtain ⟨hk, hi⟩ := findGeneratedOwner_eq_some h
  exact ⟨hk, .inl ⟨i, hi, rfl⟩⟩

theorem answeredFrom_patched {k : Key} {r : KeyEntryResponse}
    (h : d.cache.resolvePatchedOwner uid desc = some (k, r)) :
    d.AnsweredFrom uid desc ⟨k, r.serial⟩ := by
  obtain ⟨hk, hr⟩ := resolvePatchedOwner_eq_some h
  exact ⟨hk, .inr ⟨r, hr, rfl⟩⟩

theorem answeredFrom_generatedResponse {k : Key} {r : KeyEntryResponse}
    (h : ((d.cache.findGeneratedOwner uid desc).map fun o => (o.1, o.2.response)) = some (k, r)) :
    d.AnsweredFrom uid desc ⟨k, r.serial⟩ := by
  obtain ⟨⟨k', i⟩, hi, h⟩ := Option.map_eq_some_iff.1 h
  obtain ⟨rfl, rfl⟩ := Prod.mk.inj h
  exact answeredFrom_generated hi

theorem answeredFrom_cachedOwner {k : Key} {r : KeyEntryResponse}
    (h : d.cachedOwner uid desc = some (k, r)) : d.AnsweredFrom uid desc ⟨k, r.serial⟩ := by
  rcases Option.or_eq_some_iff.1 h with h | ⟨-, h⟩
  · exact answeredFrom_generatedResponse h
  · exact answeredFrom_patched h

theorem answeredFrom_cachedResponse {g : GrantInfo} {r : KeyEntryResponse}
    (hg : d.grantFor uid desc.nspace = some g) (h : d.cache.cachedResponse g.key = some r) :
    d.AnsweredFrom uid desc ⟨g.key, r.serial⟩ := by
  obtain ⟨hn, hlookup, hgrantee⟩ := grantFor_eq_some hg
  refine ⟨mem_resolveOwnerKeys.2 (.inl ⟨hn, .inr (grantedKey_eq_some.2 ⟨g, hlookup, hgrantee,
    rfl⟩)⟩), ?_⟩
  rcases Option.or_eq_some_iff.1 h with h | ⟨-, h⟩
  · obtain ⟨i, hi, rfl⟩ := Option.map_eq_some_iff.1 h
    exact .inl ⟨i, hi, rfl⟩
  · exact .inr ⟨r, h, rfl⟩

theorem resolveKey_mem {k : Key} (h : d.cache.resolveKey uid desc = some k) :
    k ∈ d.cache.resolveOwnerKeys uid desc := by
  rw [mem_resolveOwnerKeys]
  rcases Option.or_eq_some_iff.1 h with h | ⟨-, h⟩
  · split_ifs at h with hn
    exact .inl ⟨hn, .inl h⟩
  · obtain ⟨a, ha, rfl⟩ := Option.map_eq_some_iff.1 h
    exact .inr ⟨a, ha, rfl⟩

theorem answeredFrom_ownedResponse {k : Key} {r : KeyEntryResponse}
    (h : d.ownedResponse uid (some desc) = some (k, r)) :
    d.AnsweredFrom uid desc ⟨k, r.serial⟩ := by
  rcases Option.or_eq_some_iff.1 h with h | ⟨-, h⟩
  · obtain ⟨k', hk', h⟩ := Option.bind_eq_some_iff.1 h
    obtain ⟨r', hr', h⟩ := Option.map_eq_some_iff.1 h
    obtain ⟨rfl, rfl⟩ := Prod.mk.inj h
    exact ⟨resolveKey_mem hk', .inr ⟨r', hr', rfl⟩⟩
  · exact answeredFrom_generatedResponse h

theorem serveCached_origin {cached : Option (Key × KeyEntryResponse)} {otherwise : Result}
    (hn : otherwise.origin = none) (h : (serveCached cached otherwise).origin = some o) :
    ∃ k r, cached = some (k, r) ∧ o = ⟨k, r.serial⟩ := by
  unfold serveCached at h
  split at h
  · next k r => exact ⟨k, r, rfl, (Option.some.inj h).symm⟩
  · rw [hn] at h
    cases h

theorem preGenerateKey_origin {level : SecurityLevel} {kd ak : Option KeyDescriptor}
    {params : Option (List KeyParameter)} :
    (d.preGenerateKey P env level uid kd ak params).2.origin = none := by
  have hcheck {d' : Daemon} {r : Result}
      (h : d.checkGenerateKey P env uid kd ak params = (d', .error r)) : r.origin = none := by
    unfold checkGenerateKey at h
    split at h
    · dsimp only at h
      repeat' split at h
      all_goals cases h <;> rfl
    · cases h
      rfl
  unfold preGenerateKey
  split
  · next h => exact hcheck h
  · unfold routeGenerateKey
    dsimp only
    repeat' split
    all_goals rfl

/-- `createOperation` answers from the forged key that it finds. -/
theorem preCreateOperation_owner {kd : Option KeyDescriptor} {opParams : List KeyParameter}
    {force : Bool} (h : (d.preCreateOperation P env uid kd opParams force).2.origin = some o) :
    ∃ desc info, kd = some desc ∧ d.cache.findGeneratedOwner uid desc = some (o.key, info) ∧
      info.response.serial = o.serial := by
  unfold preCreateOperation at h
  split at h
  · cases h
  · next desc =>
    split at h
    · cases h
    · next owner info hfound =>
      obtain rfl : o = ⟨owner, info.response.serial⟩ := by
        dsimp only at h
        repeat' split at h
        all_goals cases h <;> rfl
      exact ⟨desc, info, rfl, hfound, rfl⟩

theorem preCreateOperation_answeredFrom {kd : Option KeyDescriptor} {opParams : List KeyParameter}
    {force : Bool} (h : (d.preCreateOperation P env uid kd opParams force).2.origin = some o) :
    ∃ desc, kd = some desc ∧ d.AnsweredFrom uid desc o := by
  obtain ⟨desc, info, hkd, hfound, hserial⟩ := preCreateOperation_owner h
  obtain ⟨k, serial⟩ := o
  obtain rfl : info.response.serial = serial := hserial
  exact ⟨desc, hkd, answeredFrom_generated hfound⟩

theorem preGetKeyEntryByMode_answeredFrom
    (h : (d.preGetKeyEntryByMode env uid desc).2.origin = some o) : d.AnsweredFrom uid desc o := by
  unfold preGetKeyEntryByMode at h
  dsimp only at h
  split_ifs at h
  · cases h
  · obtain ⟨k, r, hcached, rfl⟩ := serveCached_origin rfl h
    exact answeredFrom_cachedOwner hcached
  · cases h
  · cases h
  · obtain ⟨k, r, hcached, rfl⟩ := serveCached_origin rfl h
    exact answeredFrom_generatedResponse hcached
  · obtain ⟨k, r, hcached, rfl⟩ := serveCached_origin rfl h
    exact answeredFrom_patched hcached
  · obtain ⟨k, r, hcached, rfl⟩ := serveCached_origin rfl h
    exact answeredFrom_cachedOwner hcached

theorem preGetKeyEntry_answeredFrom {kd : Option KeyDescriptor}
    (h : (d.preGetKeyEntry env uid kd).2.origin = some o) :
    ∃ desc, kd = some desc ∧ d.AnsweredFrom uid desc o := by
  unfold preGetKeyEntry at h
  split at h
  · split at h
    · cases h
    · next desc =>
      refine ⟨desc, rfl, ?_⟩
      split at h
      · exact preGetKeyEntryByMode_answeredFrom h
      · next g hg =>
        split at h
        · split at h
          · exact preGetKeyEntryByMode_answeredFrom h
          · next r hr =>
            split at h
            · obtain rfl := Option.some.inj h
              exact answeredFrom_cachedResponse hg hr
            · exact preGetKeyEntryByMode_answeredFrom h
        · cases h
  · cases h

/-- A local answer of a pre-hook is taken from an entry that the descriptor names. -/
theorem pre_answeredFrom {request : Request} (h : (d.pre P env uid request).2.origin = some o) :
    request.isRead = true ∧
      ∃ desc, request.keyDescriptor = some desc ∧ d.AnsweredFrom uid desc o := by
  change (d.onPreTransact P env uid request).2.origin = some o at h
  cases request with
  | generateKey =>
    rw [onPreTransact, preGenerateKey_origin] at h
    cases h
  | importKey =>
    unfold onPreTransact preImportKey at h
    dsimp only at h
    split_ifs at h <;> cases h
  | createOperation => exact ⟨rfl, preCreateOperation_answeredFrom h⟩
  | deleteKey =>
    unfold onPreTransact preDeleteKey at h
    dsimp only at h
    repeat' split at h
    all_goals cases h
  | updateSubcomponent =>
    unfold onPreTransact preUpdateSubcomponent at h
    dsimp only at h
    repeat' split at h
    all_goals cases h
  | grant =>
    unfold onPreTransact preGrant at h
    dsimp only at h
    repeat' split at h
    all_goals cases h
  | ungrant =>
    unfold onPreTransact preUngrant at h
    dsimp only at h
    repeat' split at h
    all_goals cases h
  | getKeyEntry => exact ⟨rfl, preGetKeyEntry_answeredFrom h⟩
  | listEntries =>
    unfold onPreTransact preListEntries at h
    dsimp only at h
    repeat' split at h
    all_goals cases h

theorem postGetKeyEntry_answeredFrom {kd : Option KeyDescriptor} {reply : Parcel}
    (h : (d.postGetKeyEntry env uid P kd reply).2.origin = some o) :
    ∃ desc, kd = some desc ∧ d.AnsweredFrom uid desc o := by
  unfold postGetKeyEntry at h
  split at h
  · cases h
  · dsimp only at h
    split at h
    · cases h
    · obtain ⟨k, r, howned, rfl⟩ := serveCached_origin rfl h
      cases kd with
      | none => cases howned
      | some desc => exact ⟨desc, rfl, answeredFrom_ownedResponse howned⟩
    · unfold patchLeaf at h
      repeat' split at h
      all_goals cases h

/-- A local answer of a post-hook that names an entry is taken from the cache, too. -/
theorem post_answeredFrom {request : Request} {resultCode : Int} {reply : Option Parcel}
    (h : (d.post P env uid request resultCode reply).2.origin = some o) :
    ∃ desc, request = .getKeyEntry (some desc) ∧ d.AnsweredFrom uid desc o := by
  change (d.onPostTransact P env uid request resultCode reply).2.origin = some o at h
  unfold onPostTransact at h
  split at h
  · unfold postGenerateKey at h
    dsimp only at h
    repeat' split at h
    all_goals cases h
  · unfold postImportKey at h
    repeat' split at h
    all_goals cases h
  · unfold postDeleteKey at h
    repeat' split at h
    all_goals cases h
  · unfold postUpdateSubcomponent at h
    repeat' split at h
    all_goals cases h
  · unfold postGrant at h
    repeat' split at h
    all_goals cases h
  · obtain ⟨desc, rfl, hanswered⟩ := postGetKeyEntry_answeredFrom h
    exact ⟨desc, rfl, hanswered⟩
  · unfold postListEntries mergeListEntries at h
    dsimp only at h
    repeat' split at h
    all_goals cases h
  · cases h

end Daemon

/-! ## Entries carry earlier times -/

/-- Every entry was made by a hook that has run. -/
def Daemon.Timed (d : Daemon) : Prop := ∀ o, d.cache.HasEntry o → o.serial < d.clock

namespace Daemon

variable {P : Platform} {d d' : Daemon}

theorem not_hasEntry_empty {o : Origin} : ¬ ({} : CertificateAliasCache).HasEntry o := by
  rintro (⟨i, hi, -⟩ | ⟨r, hr, -⟩)
  · cases hi
  · cases hr

theorem restoreKey_hasEntry {env : Env} {level : SecurityLevel} {pk : PersistedKey} {o : Origin}
    (h : (d.restoreKey P env level pk).cache.HasEntry o) :
    d.cache.HasEntry o ∨ o.serial = d.clock := by
  rcases h with ⟨i, hi, hs⟩ | h
  · rcases HashMap.lookup_insert_eq_some.1 hi with ⟨-, rfl⟩ | ⟨-, hi⟩
    · right
      rw [← hs]
      dsimp only
      split <;> rfl
    · exact .inl (.inl ⟨i, hi, hs⟩)
  · exact .inl (.inr h)

theorem loadPersistedKeys_spec (env : Env) (level : SecurityLevel) :
    (d.loadPersistedKeys P env level).clock = d.clock ∧
      ∀ o, (d.loadPersistedKeys P env level).cache.HasEntry o →
        d.cache.HasEntry o ∨ o.serial = d.clock := by
  refine loadPersistedKeys_invariant (I := fun d' => d'.clock = d.clock ∧
    ∀ o, d'.cache.HasEntry o → d.cache.HasEntry o ∨ o.serial = d.clock) ⟨rfl, fun o h => .inl h⟩ ?_
  rintro d' pk - ⟨hclock, hentry⟩
  refine ⟨hclock, fun o h => ?_⟩
  rcases restoreKey_hasEntry h with h | h
  · exact hentry o h
  · exact .inr (h.trans hclock)

theorem Timed.hook {request : Request} {ids : Int → Prop} {uid : Int} (h : d.Timed)
    (hs : d.Steps uid request ids d.clock d') (hc : d'.clock = d.clock + 1) : d'.Timed := by
  intro o ho
  rw [hc]
  rcases hs.hasEntry ho with ho | ho
  · exact Nat.lt_succ_of_lt (h o ho)
  · exact ho ▸ Nat.lt_succ_self _

theorem Timed.step (h : d.Timed) (hs : DaemonStep P d d') : d'.Timed := by
  cases hs with
  | idle => exact h
  | pre env uid request => exact h.hook (pre_steps P env request) (pre_clock ..)
  | post env uid request resultCode reply =>
    exact h.hook (post_steps P env request resultCode reply) (post_clock ..)
  | operate op call =>
    unfold operate
    split <;> exact h
  | targetChanged | packageManagerDied | persist => exact h
  | keyboxChanged | restart => exact fun o ho => absurd ho not_hasEntry_empty
  | loadPersistedKeys level env =>
    obtain ⟨hclock, hentry⟩ := loadPersistedKeys_spec (P := P) (d := d) env level
    intro o ho
    change o.serial < (d.loadPersistedKeys P env level).clock + 1
    rw [hclock]
    rcases hentry o ho with ho | ho
    · exact Nat.lt_succ_of_lt (h o ho)
    · exact ho ▸ Nat.lt_succ_self _
  | initializeConfig modes keyboxes =>
    unfold initializeConfig
    cases modes <;> cases keyboxes
    · exact h
    · exact fun o ho => absurd ho not_hasEntry_empty
    · exact h
    · exact fun o ho => absurd ho not_hasEntry_empty

/-- In every state that a run from the start of the process reaches, entries are timed. -/
theorem timed_run (es : List Event) : (World.run P {} es).daemon.Timed :=
  World.run_daemon P {} (fun _ _ h hs => h.step hs) (fun _ ho => absurd ho not_hasEntry_empty) es

end Daemon

end TrickyStore
