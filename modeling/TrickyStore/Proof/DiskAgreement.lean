import TrickyStore.Proof.Sequential
import TrickyStore.Proof.Startup

/-!
# Files and forged keys

A forged key has a file.  Every clearing of the caches decides on its own whether the file goes with
the entries: `deleteKey`, `importKey`, the promotion to passthrough and the rejection of historical
owners delete it, the re-signing of a reply and the invalidation on `updateSubcomponent` do not.
-/

open Lib

namespace TrickyStore

open CertificateAliasCache

namespace Daemon

variable (P : Platform)

/-- The executor runs every pending task. -/
def drained (d : Daemon) : Daemon := { d with persistence := d.persistence.drain }

/-- A step of a sequential run after which the executor has drained. -/
def sequentialDrained (d : Daemon) (s : SequentialStep) : Daemon := (d.sequential P s).drained

/-- Every file is stored under the key that it holds, and one of the interceptors is responsible for
it. -/
def WellFiled (files : HashMap Key PersistedKey) : Prop :=
  ∀ k pk, files.lookup k = some pk →
    pk.key = k ∧ ∃ level : SecurityLevel, pk.securityLevel = level.toInt

/-- The key files on disk are exactly those of the forged keys. -/
structure DiskAgrees (d : Daemon) : Prop where
  drained : d.persistence.queue = []
  files : ∀ k, d.persistence.files.containsKey k = d.cache.keys.containsKey k
  filed : WellFiled d.persistence.files

/-- The daemon after a restart, once the interceptors of both levels have loaded their keys. -/
def reloaded (env : Env) (d : Daemon) : Daemon :=
  (World.run P { daemon := d.restart } ([.trustedEnvironment, .strongbox].map fun level =>
    .loadPersistedKeys level env)).daemon

/-- The aliases of the caller that a forwarded `updateSubcomponent` invalidates before the real keystore
is asked. -/
def invalidatedBefore (uid : Int) (desc : KeyDescriptor) (d : Daemon) : Option String :=
  (d.updateTarget uid desc).join.map Key.keyAlias

/-- The alias that it invalidates after success. -/
def invalidatedAfter (uid : Int) (desc : KeyDescriptor) (d : Daemon) : Option String :=
  desc.keyAlias.or (d.cache.findAliasForNspace uid desc.nspace)

end Daemon

namespace Exchange

variable (P : Platform) (x : Exchange) (d : Daemon)

/-- The alias fits into a key file. -/
def AliasFits : Prop :=
  ∀ k, x.namedKey = some k → modifiedUtf8Length k.keyAlias ≤ 65535

/-- A `generateKey` that is forwarded finds no forged key under its alias, or its reply makes the
post-hook delete the file or keep the key. -/
def ForwardsFresh (level : SecurityLevel) (kd ak : Option KeyDescriptor)
    (params : Option (List KeyParameter)) : Prop :=
  ∀ r k, d.generateKeyRoute P x.preEnv x.uid kd ak params = some r → x.namedKey = some k →
    d.cache.keys.containsKey k = false ∨
      if r = .passthroughRealTee then (x.reply.bind Parcel.keyMetadata).isSome = true
      else r.isForward = true → d.treatsAsPassthrough level k = true ∨
        x.reply.bind (Parcel.leafCertificate P) = none

/-- An `updateSubcomponent` that is forwarded invalidates no forged key. -/
def InvalidatesReal (desc : KeyDescriptor) : Prop :=
  x.isForwarded P d = true →
    (∀ a, d.invalidatedBefore x.uid desc = some a →
      d.cache.keys.containsKey ⟨x.uid, a⟩ = false) ∧
    (x.resultCode = 0 → ∀ a, d.invalidatedAfter x.uid desc = some a →
      d.cache.keys.containsKey ⟨x.uid, a⟩ = false)

end Exchange

/-- The step clears no forged key without its file. -/
def KeepsFiles (P : Platform) (d : Daemon) : SequentialStep → Prop
  | .exchange x =>
    match x.request with
    | .generateKey level kd ak params => x.ForwardsFresh P d level kd ak params
    | .updateSubcomponent (some desc) _ _ => x.InvalidatesReal P d desc
    | _ => True
  | .targetChanged _ => True

/-- The alias of the step fits into a key file. -/
def SequentialStep.AliasFits : SequentialStep → Prop
  | .exchange x => x.AliasFits
  | .targetChanged _ => True

/-! ## Clearing with and without the file -/

namespace Daemon

variable {P : Platform} {env : Env} {uid : Int} {d d' : Daemon} {k : Key}

theorem WellFiled.erase {files : HashMap Key PersistedKey} (h : WellFiled files) :
    WellFiled (files.erase k) := by
  intro k' pk hlookup
  exact h k' pk (HashMap.lookup_erase_eq_some.1 hlookup).2

theorem WellFiled.saveKey {p : PersistenceManager} {pk : PersistedKey} (h : WellFiled p.settled)
    (hfit : modifiedUtf8Length pk.keyAlias ≤ 65535)
    (hlevel : ∃ level : SecurityLevel, pk.securityLevel = level.toInt) :
    WellFiled (p.saveKey pk).settled := by
  rw [PersistenceManager.settled_saveKey _ _ hfit]
  intro k' pk' hlookup
  rcases HashMap.lookup_insert_eq_some.1 hlookup with ⟨hk, hpk⟩ | ⟨-, hlookup⟩
  · subst hk hpk
    exact ⟨rfl, hlevel⟩
  · exact h k' pk' hlookup

/-- Files and forged keys agree once the executor has run. -/
structure Agrees (d : Daemon) : Prop where
  files : ∀ k, d.persistence.settled.containsKey k = d.cache.keys.containsKey k
  filed : WellFiled d.persistence.settled

theorem Agrees.congr (h : d.Agrees) (hp : d'.persistence = d.persistence)
    (hk : d'.cache.keys = d.cache.keys) : d'.Agrees := by
  refine ⟨fun k => ?_, ?_⟩
  · rw [hp, hk]
    exact h.files k
  · rw [hp]
    exact h.filed

/-- Clearing with the file repairs the one key on which they may differ. -/
theorem agrees_clear_with_file
    (h : ∀ k', k' ≠ k → d.persistence.settled.containsKey k' = d.cache.keys.containsKey k')
    (hfiled : WellFiled d.persistence.settled) :
    (d.clearSyntheticCertificateState k true).Agrees := by
  have hsettled : (d.clearSyntheticCertificateState k true).persistence.settled =
      d.persistence.settled.erase k := PersistenceManager.settled_deleteKey _ _
  refine ⟨fun k' => ?_, ?_⟩
  · rw [hsettled, HashMap.containsKey_erase]
    simp only [clearSyntheticCertificateState, clear_keys, HashMap.containsKey_erase]
    split_ifs with hk
    · rfl
    · exact h k' hk
  · rw [hsettled]
    exact hfiled.erase

/-- Clearing with the file keeps the agreement. -/
theorem Agrees.clearWithFile (h : d.Agrees) : (d.clearSyntheticCertificateState k true).Agrees :=
  agrees_clear_with_file (fun k' _ => h.files k') h.filed

theorem Agrees.cleanupKey (h : d.Agrees) : (d.cleanupKey k).Agrees :=
  Agrees.congr (h.clearWithFile (k := k)) rfl rfl

/-- Clearing without the file is harmless for a key that is not forged. -/
theorem Agrees.clear (h : d.Agrees) (hk : d.cache.keys.containsKey k = false)
    (hp : d'.persistence = d.persistence) (hkeys : d'.cache.keys = d.cache.keys.erase k) :
    d'.Agrees := by
  refine ⟨fun k' => ?_, ?_⟩
  · rw [hp, hkeys, HashMap.containsKey_erase, h.files]
    split_ifs with hkk
    · rw [hkk, hk]
    · rfl
  · rw [hp]
    exact h.filed

theorem Agrees.invalidate {removePassthrough : Bool} (h : d.Agrees)
    (hk : d.cache.keys.containsKey k = false) :
    (d.invalidateCertificateResponseState k removePassthrough).Agrees := by
  cases removePassthrough <;> exact h.clear hk rfl rfl

theorem Agrees.storeGeneratedKey {level : SecurityLevel} {a : String} {domain : Int}
    {kgp : KeyGenParameters} {pair : KeyPair} {chain : List Certificate} {skip : Bool}
    (h : d.Agrees) (hfit : modifiedUtf8Length a ≤ 65535) :
    (d.storeGeneratedKey P env level uid a domain kgp pair chain skip).1.Agrees := by
  have hsettled : (d.storeGeneratedKey P env level uid a domain kgp pair chain
      skip).1.persistence.settled = _ := PersistenceManager.settled_saveKey _ _ hfit
  refine ⟨fun k' => ?_, ?_⟩
  · rw [hsettled]
    show HashMap.containsKey (AList.insert (⟨uid, a⟩ : Key) _ d.persistence.settled) k' =
      HashMap.containsKey (AList.insert (⟨uid, a⟩ : Key) _ (d.cache.keys.erase ⟨uid, a⟩)) k'
    rw [HashMap.containsKey_insert, HashMap.containsKey_insert, HashMap.containsKey_erase]
    split_ifs
    · rfl
    · exact h.files k'
  · exact h.filed.saveKey hfit ⟨level, rfl⟩

/-! ## Hook by hook -/

section GenerateKey

variable {level : SecurityLevel} {kd ak : Option KeyDescriptor} {params : Option (List KeyParameter)}

variable (level) in
/-- A forged key gets its file; a request that is left alone changes nothing. -/
theorem Agrees.preGenerateKey_of_not_forwarded (h : d.Agrees)
    (hfit : ∀ a, kd.bind KeyDescriptor.keyAlias = some a → modifiedUtf8Length a ≤ 65535)
    (hroute : ∀ r, d.generateKeyRoute P env uid kd ak params = some r → r = .generate) :
    (d.preGenerateKey P env level uid kd ak params).1.Agrees := by
  have houtcome := preGenerateKey_outcome P env uid level d kd ak params
  generalize d.preGenerateKey P env level uid kd ak params = outcome at houtcome ⊢
  cases houtcome with
  | answered hlook =>
    obtain ⟨config, rfl⟩ := hlook.eq
    exact h.congr rfl rfl
  | forged skip hlook hcheck =>
    obtain ⟨config, rfl⟩ := hlook.eq
    exact Agrees.storeGeneratedKey (h.congr rfl rfl) (hfit _ (checkGenerateKey_ok hcheck))
  | forwarded _ _ hforward hr => exact absurd (hroute _ hforward) hr

/-- The post-hook drops a forged key without its file only when it re-signs a reply for it. -/
theorem Agrees.postGenerateKey {reply : Option Parcel} (h : d.Agrees)
    (hk : ∀ a, kd.bind KeyDescriptor.keyAlias = some a →
      d.cache.keys.containsKey ⟨uid, a⟩ = false ∨
        d.treatsAsPassthrough level ⟨uid, a⟩ = true ∨ reply.bind (Parcel.leafCertificate P) = none) :
    (d.postGenerateKey P env level uid kd reply).1.Agrees := by
  cases reply with
  | none => exact h
  | some p =>
    cases ha : kd.bind KeyDescriptor.keyAlias with
    | none =>
      rw [postGenerateKey_of_no_alias ha]
      exact h
    | some a =>
      have htaken : (d.takeMark level ⟨uid, a⟩).Agrees := h.congr rfl rfl
      cases hmark : d.treatsAsPassthrough level ⟨uid, a⟩ with
      | true =>
        cases hm : p.keyMetadata with
        | none =>
          rw [postGenerateKey_of_keyMetadata_none ha hm]
          exact htaken
        | some m =>
          rw [postGenerateKey_of_marked ha hm hmark]
          exact (htaken.clearWithFile (k := ⟨uid, a⟩)).congr rfl (register_keys ..)
      | false =>
        cases hleaf : p.leafCertificate P with
        | none =>
          rw [postGenerateKey_of_no_leaf ha hleaf hmark]
          exact htaken
        | some leaf =>
          obtain ⟨m, hpost⟩ := postGenerateKey_of_leaf env ha hleaf hmark
          have hk : d.cache.keys.containsKey ⟨uid, a⟩ = false := by
            refine (hk a ha).resolve_right ?_
            simp [hmark, hleaf]
          rw [hpost]
          refine Agrees.clear htaken hk rfl ?_
          simp only [patchGenerateKeyReply, storePatched, register_keys]
          rfl

end GenerateKey

theorem Agrees.preUpdateSubcomponent {desc : KeyDescriptor} {cert chain : Option Bytes} (h : d.Agrees)
    (hk : (d.preUpdateSubcomponent uid (some desc) cert chain).2 = .Continue →
      ∀ a, d.invalidatedBefore uid desc = some a → d.cache.keys.containsKey ⟨uid, a⟩ = false) :
    (d.preUpdateSubcomponent uid (some desc) cert chain).1.Agrees := by
  have houtcome := preUpdateSubcomponent_outcome uid d desc cert chain
  generalize d.preUpdateSubcomponent uid (some desc) cert chain = outcome at houtcome hk ⊢
  cases houtcome with
  | refused => exact h
  | untouched => exact h
  | updated k =>
    refine ⟨fun k' => ?_, h.filed⟩
    show d.persistence.settled.containsKey k' =
      (d.cache.updateKeyCertChain k cert chain).keys.containsKey k'
    rw [h.files, HashMap.containsKey, HashMap.containsKey, updateKeyCertChain_keys_lookup,
      Option.isSome_map]
  | cleared k htarget =>
    show (d.invalidateCertificateResponseState ⟨uid, k.keyAlias⟩ false).Agrees
    exact h.invalidate (hk rfl k.keyAlias (by simp [invalidatedBefore, htarget]))

theorem Agrees.postUpdateSubcomponent {desc : KeyDescriptor} {resultCode : Int} (h : d.Agrees)
    (hk : resultCode = 0 → ∀ a, d.invalidatedAfter uid desc = some a →
      d.cache.keys.containsKey ⟨uid, a⟩ = false) :
    (d.postUpdateSubcomponent uid (some desc) resultCode).1.Agrees := by
  unfold Daemon.postUpdateSubcomponent
  dsimp only
  split
  · next a ha =>
    split_ifs with hcode
    · show (d.invalidateCertificateResponseState ⟨uid, a⟩ true).Agrees
      exact h.invalidate (hk hcode a ha)
    · exact h
  · exact h

/-- A historical owner that is rejected loses its file with its entries. -/
theorem Agrees.rejectHistoricalOwners {desc : KeyDescriptor} (h : d.Agrees) :
    (d.rejectHistoricalOwners uid desc).Agrees := by
  unfold Daemon.rejectHistoricalOwners
  split
  · exact h
  · next a ha =>
    dsimp only
    split_ifs
    · exact h
    · cases hgenerated : (d.cache.findGeneratedKey uid desc).isSome with
      | true => exact h.clearWithFile
      | false =>
        have hmem : (⟨uid, a⟩ : Key) ∈ d.cache.resolveOwnerKeys uid desc :=
          mem_resolveOwnerKeys.2 (.inr ⟨a, ha, rfl⟩)
        have hk : d.cache.keys.containsKey ⟨uid, a⟩ = false := by
          simp only [findGeneratedKey, Option.isSome_map, findGeneratedOwner, Option.isSome_eq_false_iff,
            Option.isNone_iff_eq_none, List.findSome?_eq_none_iff, Option.map_eq_none_iff] at hgenerated
          exact HashMap.containsKey_eq_false.2 (hgenerated _ hmem)
        exact h.clear hk rfl rfl

theorem Agrees.preGetKeyEntry {kd : Option KeyDescriptor} (h : d.Agrees) :
    (d.preGetKeyEntry env uid kd).1.Agrees := by
  have hchecked : (d.checked env uid).Agrees := h.congr rfl rfl
  have hmode (desc : KeyDescriptor) : (d.preGetKeyEntryByMode env uid desc).1.Agrees := by
    unfold preGetKeyEntryByMode
    dsimp only
    split_ifs <;> first | exact hchecked | exact hchecked.rejectHistoricalOwners
  unfold Daemon.preGetKeyEntry
  repeat' split
  all_goals first | exact h | exact hmode _

theorem postGetKeyEntry_keys {kd : Option KeyDescriptor} {reply : Parcel} :
    (d.postGetKeyEntry env uid P kd reply).1.persistence = d.persistence ∧
      (d.postGetKeyEntry env uid P kd reply).1.cache.keys = d.cache.keys := by
  unfold postGetKeyEntry patchLeaf
  dsimp only
  repeat' split
  all_goals exact ⟨rfl, rfl⟩

/-! ## Requests -/

section Serve

variable {x : Exchange}

theorem Agrees.pre {request : Request} (h : d.Agrees)
    (hg : ∀ level kd ak params, request ≠ .generateKey level kd ak params)
    (hu : ∀ desc cert chain, request = .updateSubcomponent (some desc) cert chain →
      (d.preUpdateSubcomponent uid (some desc) cert chain).2 = .Continue →
        ∀ a, d.invalidatedBefore uid desc = some a → d.cache.keys.containsKey ⟨uid, a⟩ = false) :
    (d.pre P env uid request).1.Agrees := by
  refine Agrees.congr (d := (d.onPreTransact P env uid request).1) ?_ rfl rfl
  cases request with
  | generateKey level kd ak params => exact absurd rfl (hg level kd ak params)
  | importKey => exact h.congr rfl rfl
  | createOperation level kd opParams force =>
    rcases preCreateOperation_fst P env uid d kd opParams force with h' | ⟨op, h'⟩
    all_goals
      rw [onPreTransact, h']
      exact h.congr rfl rfl
  | deleteKey kd =>
    unfold onPreTransact preDeleteKey
    dsimp only
    split
    · exact h
    · exact h.cleanupKey
  | updateSubcomponent kd cert chain =>
    cases kd with
    | none => exact h
    | some desc => exact h.preUpdateSubcomponent (hu desc cert chain rfl)
  | grant =>
    unfold onPreTransact preGrant forgeGrant
    dsimp only
    repeat' split
    all_goals exact h.congr rfl rfl
  | ungrant =>
    unfold onPreTransact preUngrant
    dsimp only
    split <;> exact h.congr rfl rfl
  | getKeyEntry kd => exact h.preGetKeyEntry
  | listEntries =>
    unfold onPreTransact preListEntries
    dsimp only
    split <;> exact h.congr rfl rfl

theorem Agrees.post {request : Request} {resultCode : Int} {reply : Option Parcel} (h : d.Agrees)
    (hg : ∀ level kd ak params, request ≠ .generateKey level kd ak params)
    (hu : ∀ desc cert chain, request = .updateSubcomponent (some desc) cert chain →
      resultCode = 0 → ∀ a, d.invalidatedAfter uid desc = some a →
        d.cache.keys.containsKey ⟨uid, a⟩ = false) :
    (d.post P env uid request resultCode reply).1.Agrees := by
  refine Agrees.congr (d := (d.onPostTransact P env uid request resultCode reply).1) ?_ rfl rfl
  unfold onPostTransact
  split
  · exact absurd rfl (hg _ _ _ _)
  · unfold postImportKey
    split
    · exact h.cleanupKey
    · exact h
  · unfold postDeleteKey
    split
    · dsimp only
      split_ifs
      · exact h.cleanupKey
      · exact h
    · exact h
  · next kd cert chain _ =>
    cases kd with
    | none => exact h
    | some desc => exact h.postUpdateSubcomponent (hu desc cert chain rfl)
  · unfold postGrant
    repeat' split
    all_goals exact h.congr rfl rfl
  · exact h.congr postGetKeyEntry_keys.1 postGetKeyEntry_keys.2
  · unfold postListEntries
    split <;> exact h.congr rfl rfl
  · exact h

section ServeGenerateKey

variable {level : SecurityLevel} {kd ak : Option KeyDescriptor} {params : Option (List KeyParameter)}

/-- The pre-hook of a passthrough clears the key without its file; the promotion deletes the file. -/
theorem Agrees.serve_passthrough (h : d.Agrees) (hx : x.request = .generateKey level kd ak params)
    (hr : d.generateKeyRoute P x.preEnv x.uid kd ak params = some .passthroughRealTee)
    (hc : ∀ k, x.namedKey = some k → d.cache.keys.containsKey k = false ∨
      (x.reply.bind Parcel.keyMetadata).isSome = true) : (d.serve P x).1.Agrees := by
  have hpre : x.preHook P d = ((d.preGenerateKey P x.preEnv level x.uid kd ak params).1.tick,
      (d.preGenerateKey P x.preEnv level x.uid kd ak params).2) := Exchange.preHook_of_request d hx
  have hpost (d : Daemon) : (x.postHook P d).1 =
      (d.postGenerateKey P x.postEnv level x.uid kd x.reply).1.tick :=
    congrArg Prod.fst (Exchange.postHook_of_request d hx)
  obtain ⟨a, ha, hcont, hcache, hpers, hpending⟩ := preGenerateKey_of_passthrough level hr
  rw [serve_of_continue (by rw [hpre]; exact hcont), hpost]
  refine Agrees.congr (d := ((x.preHook P d).1.postGenerateKey P x.postEnv level x.uid kd
    x.reply).1) ?_ rfl rfl
  have hmark : (x.preHook P d).1.treatsAsPassthrough level ⟨x.uid, a⟩ = true := by
    rw [hpre, treatsAsPassthrough, decide_eq_true_eq]
    show (d.preGenerateKey P x.preEnv level x.uid kd ak params).1.pendingPassthroughKeys.lookup _ = _
    rw [hpending, AList.lookup_insert]
  rcases hc _ (Exchange.namedKey_of_request hx ha) with hk | hreply
  · have hagrees : (x.preHook P d).1.Agrees := by
      rw [hpre]
      exact h.clear hk hpers (by rw [tick, hcache]; rfl)
    refine hagrees.postGenerateKey fun a' ha' => ?_
    obtain rfl : a = a' := Option.some.inj (ha.symm.trans ha')
    exact .inr (.inl hmark)
  · obtain ⟨m, hm⟩ := Option.isSome_iff_exists.1 hreply
    obtain ⟨p, hp, hm⟩ := Option.bind_eq_some_iff.1 hm
    rw [hp, postGenerateKey_of_marked ha hm hmark]
    refine (agrees_clear_with_file (fun k' hk' => ?_) ?_).congr rfl (register_keys ..)
    · show (x.preHook P d).1.persistence.settled.containsKey k' =
        (x.preHook P d).1.cache.keys.containsKey k'
      rw [hpre]
      show (d.preGenerateKey P x.preEnv level x.uid kd ak params).1.persistence.settled.containsKey
        k' = (d.preGenerateKey P x.preEnv level x.uid kd ak params).1.cache.keys.containsKey k'
      rw [hpers, hcache, clear_keys, HashMap.containsKey_erase, if_neg hk']
      exact h.files k'
    · show WellFiled (x.preHook P d).1.persistence.settled
      rw [hpre]
      show WellFiled (d.preGenerateKey P x.preEnv level x.uid kd ak params).1.persistence.settled
      rw [hpers]
      exact h.filed

/-- The other forwarding routes leave the key to the post-hook. -/
theorem Agrees.serve_forward {r : Route} (h : d.Agrees)
    (hx : x.request = .generateKey level kd ak params)
    (hr : d.generateKeyRoute P x.preEnv x.uid kd ak params = some r) (hforward : r.isForward = true)
    (hc : ∀ k, x.namedKey = some k → d.cache.keys.containsKey k = false ∨
      d.treatsAsPassthrough level k = true ∨ x.reply.bind (Parcel.leafCertificate P) = none) :
    (d.serve P x).1.Agrees := by
  have hpre : x.preHook P d = ((d.preGenerateKey P x.preEnv level x.uid kd ak params).1.tick,
      (d.preGenerateKey P x.preEnv level x.uid kd ak params).2) := Exchange.preHook_of_request d hx
  have hpost (d : Daemon) : (x.postHook P d).1 =
      (d.postGenerateKey P x.postEnv level x.uid kd x.reply).1.tick :=
    congrArg Prod.fst (Exchange.postHook_of_request d hx)
  obtain ⟨a, ha, hcont, hkeys, hpers, hpending⟩ := preGenerateKey_of_forward level hr hforward
  rw [serve_of_continue (by rw [hpre]; exact hcont), hpost]
  refine Agrees.congr (d := ((x.preHook P d).1.postGenerateKey P x.postEnv level x.uid kd
    x.reply).1) ?_ rfl rfl
  have hagrees : (x.preHook P d).1.Agrees := by
    rw [hpre]
    exact h.congr hpers hkeys
  refine hagrees.postGenerateKey fun a' ha' => ?_
  obtain rfl : a = a' := Option.some.inj (ha.symm.trans ha')
  have hmark : (x.preHook P d).1.treatsAsPassthrough level ⟨x.uid, a⟩ =
      d.treatsAsPassthrough level ⟨x.uid, a⟩ :=
    treatsAsPassthrough_congr (by rw [hpre]; exact hpending)
  have hkeys' : (x.preHook P d).1.cache.keys = d.cache.keys := by rw [hpre]; exact hkeys
  rw [hmark, hkeys']
  exact hc _ (Exchange.namedKey_of_request hx ha)

theorem Agrees.serve_generateKey (h : d.Agrees) (hx : x.request = .generateKey level kd ak params)
    (hfit : x.AliasFits) (hc : x.ForwardsFresh P d level kd ak params) : (d.serve P x).1.Agrees := by
  by_cases hroute : ∃ r, d.generateKeyRoute P x.preEnv x.uid kd ak params = some r ∧ r ≠ .generate
  · obtain ⟨r, hr, hne⟩ := hroute
    by_cases hp : r = .passthroughRealTee
    · subst hp
      exact h.serve_passthrough hx hr fun k hk => hc _ k hr hk
    · have hforward : r.isForward = true := by cases r <;> simp_all [Route.isForward]
      refine h.serve_forward hx hr hforward fun k hk => ?_
      have := hc r k hr hk
      simpa only [if_neg hp, hforward, true_implies] using this
  · have hroute (r : Route) (hr : d.generateKeyRoute P x.preEnv x.uid kd ak params = some r) :
        r = .generate := by_contra fun hne => hroute ⟨r, hr, hne⟩
    have hpre : x.preHook P d = ((d.preGenerateKey P x.preEnv level x.uid kd ak params).1.tick,
        (d.preGenerateKey P x.preEnv level x.uid kd ak params).2) := Exchange.preHook_of_request d hx
    have hagrees : (x.preHook P d).1.Agrees := by
      rw [hpre]
      exact (h.preGenerateKey_of_not_forwarded level
        (fun a ha => hfit _ (Exchange.namedKey_of_request hx ha)) hroute).congr rfl rfl
    have hcont : (x.preHook P d).2 ≠ .Continue := by
      rw [hpre]
      exact (Daemon.preGenerateKey_of_not_forwarded level hroute).1
    rcases serve_fst (P := P) (d := d) (x := x) with ⟨-, hs⟩ | ⟨hs, -⟩
    · rw [hs]
      exact hagrees
    · exact absurd hs hcont

end ServeGenerateKey

theorem invalidatedAfter_preUpdateSubcomponent {desc : KeyDescriptor} {cert chain : Option Bytes}
    {a : String} (hforward : (d.preUpdateSubcomponent uid (some desc) cert chain).2 = .Continue)
    (h : (d.preUpdateSubcomponent uid (some desc) cert chain).1.invalidatedAfter uid desc = some a) :
    d.invalidatedAfter uid desc = some a ∧
      ∀ k, d.cache.keys.containsKey k = false →
        (d.preUpdateSubcomponent uid (some desc) cert chain).1.cache.keys.containsKey k = false := by
  have houtcome := preUpdateSubcomponent_outcome uid d desc cert chain
  generalize d.preUpdateSubcomponent uid (some desc) cert chain = outcome at houtcome hforward h ⊢
  cases houtcome with
  | refused => cases hforward
  | untouched => exact ⟨h, fun _ hk => hk⟩
  | updated => cases hforward
  | cleared k =>
    refine ⟨?_, fun k' hk' => ?_⟩
    · rcases Option.or_eq_some_iff.1 h with h | ⟨hnone, h⟩
      · exact Option.or_eq_some_iff.2 (.inl h)
      · refine Option.or_eq_some_iff.2 (.inr ⟨hnone, ?_⟩)
        obtain ⟨k', hk', rfl⟩ := Option.map_eq_some_iff.1 h
        obtain ⟨hlookup, huid⟩ := ownKey_eq_some.1 hk'
        rw [findAliasForNspace, ownKey_eq_some.2 ⟨(clear_keysByNspace_eq_some.1 hlookup).1, huid⟩]
        rfl
    · show ((d.cache.clear ⟨uid, k.keyAlias⟩).keys).containsKey k' = false
      rw [clear_keys, HashMap.containsKey_erase, hk', ite_self]

theorem Agrees.serve (h : d.Agrees) (hfit : x.AliasFits) (hc : KeepsFiles P d (.exchange x)) :
    (d.serve P x).1.Agrees := by
  by_cases hg : ∃ level kd ak params, x.request = .generateKey level kd ak params
  · obtain ⟨level, kd, ak, params, hx⟩ := hg
    simp only [KeepsFiles, hx] at hc
    exact h.serve_generateKey hx hfit hc
  · have hg (level : SecurityLevel) (kd ak : Option KeyDescriptor)
        (params : Option (List KeyParameter)) : x.request ≠ .generateKey level kd ak params :=
      fun hx => hg ⟨level, kd, ak, params, hx⟩
    by_cases hu : ∃ desc cert chain, x.request = .updateSubcomponent (some desc) cert chain
    · obtain ⟨desc, cert, chain, hx⟩ := hu
      simp only [KeepsFiles, hx] at hc
      have hpre : x.preHook P d = ((d.preUpdateSubcomponent x.uid (some desc) cert chain).1.tick,
          (d.preUpdateSubcomponent x.uid (some desc) cert chain).2) := Exchange.preHook_of_request d hx
      have hforwarded (hcont : (x.preHook P d).2 = .Continue) : x.isForwarded P d = true := by
        simp only [Exchange.isForwarded, hcont]
      have hagrees : (x.preHook P d).1.Agrees := by
        rw [hpre]
        refine (h.preUpdateSubcomponent fun hcont a ha => ?_).congr rfl rfl
        exact (hc (hforwarded (by rw [hpre]; exact hcont))).1 a ha
      rcases serve_fst (P := P) (d := d) (x := x) with ⟨-, hs⟩ | ⟨hcont, hs⟩
      · rw [hs]
        exact hagrees
      · rw [hs]
        refine hagrees.post hg fun desc' cert' chain' hx' hcode a ha => ?_
        obtain ⟨hd, -, -⟩ := Request.updateSubcomponent.inj (hx.symm.trans hx')
        obtain rfl := Option.some.inj hd
        rw [hpre] at hcont ha ⊢
        obtain ⟨ha, hkeys⟩ := invalidatedAfter_preUpdateSubcomponent hcont ha
        exact hkeys _ ((hc (hforwarded (by rw [hpre]; exact hcont))).2 hcode a ha)
    · refine serve_invariant (I := Agrees) h (fun d hd => hd.pre hg ?_) fun d hd => hd.post hg ?_
      · exact fun desc cert chain hx => absurd ⟨desc, cert, chain, hx⟩ hu
      · exact fun desc cert chain hx => absurd ⟨desc, cert, chain, hx⟩ hu

end Serve

theorem DiskAgrees.agrees (h : d.DiskAgrees) : d.Agrees := by
  have hsettled := PersistenceManager.settled_of_queue_eq_nil h.drained
  refine ⟨fun k => ?_, ?_⟩
  · rw [hsettled]
    exact h.files k
  · rw [hsettled]
    exact h.filed

theorem Agrees.drained (h : d.Agrees) : d.drained.DiskAgrees := ⟨rfl, h.files, h.filed⟩

theorem DiskAgrees.sequentialDrained {s : SequentialStep} (h : d.DiskAgrees) (hfit : s.AliasFits)
    (hc : KeepsFiles P d s) : (d.sequentialDrained P s).DiskAgrees := by
  cases s with
  | exchange x => exact (h.agrees.serve hfit hc).drained
  | targetChanged modes =>
    have hagrees : (d.updateTargetPackages modes).Agrees := h.agrees.congr rfl rfl
    exact hagrees.drained

/-- Where files and forged keys agree, a restart restores exactly the forged keys. -/
theorem DiskAgrees.reloaded_keys (h : d.DiskAgrees) (env : Env) (k : Key) :
    (d.reloaded P env).cache.keys.containsKey k = d.cache.keys.containsKey k := by
  have hempty : ¬ d.restart.cache.keys.containsKey k = true := by
    show ¬ (∅ : HashMap Key Info).containsKey k = true
    simp [HashMap.containsKey]
  rw [← h.files, Bool.eq_iff_iff, reloaded, (World.run_loads (P := P) env _ rfl).2.2,
    or_iff_left hempty, HashMap.containsKey_eq_true]
  constructor
  · rintro ⟨pk, hpk, -, rfl⟩
    obtain ⟨⟨k', pk'⟩, he, rfl⟩ := List.mem_map.1 hpk
    have hlookup := HashMap.lookup_eq_some_iff.2 he
    exact ⟨pk', (h.filed k' pk' hlookup).1 ▸ hlookup⟩
  · rintro ⟨pk, hlookup⟩
    obtain ⟨rfl, level, hlevel⟩ := h.filed k pk hlookup
    exact ⟨pk, List.mem_map.2 ⟨⟨pk.key, pk⟩, HashMap.lookup_eq_some_iff.1 hlookup, rfl⟩,
      ⟨level, by cases level <;> simp, hlevel⟩, rfl⟩

end Daemon

/-- A run whose steps clear no forged key without its file keeps the files those of the forged keys,
and a restart after it restores exactly these. -/
theorem diskAgrees_of_keepsFiles (P : Platform) (d : Daemon) (steps : List SequentialStep)
    (h : d.DiskAgrees) (hfit : ∀ s ∈ steps, s.AliasFits)
    (hc : Machine.AllSteps (Daemon.sequentialDrained P) (KeepsFiles P) d steps) :
    (Machine.run (Daemon.sequentialDrained P) d steps).DiskAgrees ∧
      ∀ env k, ((Machine.run (Daemon.sequentialDrained P) d steps).reloaded P env).cache.keys.containsKey
        k = (Machine.run (Daemon.sequentialDrained P) d steps).cache.keys.containsKey k := by
  have hboth : Machine.AllSteps (Daemon.sequentialDrained P)
      (fun d s => s.AliasFits ∧ KeepsFiles P d s) d steps := by
    intro before s after hsteps
    exact ⟨hfit s (by simp [hsteps]), hc before s after hsteps⟩
  have hagrees : (Machine.run (Daemon.sequentialDrained P) d steps).DiskAgrees :=
    hboth.invariant h fun d s hd hs => hd.sequentialDrained hs.1 hs.2
  exact ⟨hagrees, fun env k => hagrees.reloaded_keys env k⟩

namespace Demo

/-- The daemon after a start without files. -/
def started : Daemon := (World.run platform {} (start .GENERATE .AUTO)).daemon.drained

/-- A key is forged; then, in AUTO mode, the real keystore makes one in its place. -/
def passthroughOverForged : List SequentialStep :=
  [.exchange (creation ecParams none), .targetChanged (modes .AUTO .AUTO),
    .exchange (creation ecParams (some (created 9 (some [10]))))]

/-- A key is forged; then, in `?` mode, the reply of the real keystore is re-signed in its place. -/
def patchOverForged : List SequentialStep :=
  [.exchange (creation ecParams none), .targetChanged (modes .LEAF_HACK .AUTO),
    .exchange (creation ecParams (some (created 9 (some [10]))))]

theorem started_diskAgrees : started.DiskAgrees :=
  ⟨rfl, fun _ => rfl, fun k pk (hk : (∅ : HashMap Key PersistedKey).lookup k = some pk) => by simp at hk⟩

theorem creation_aliasFits {params : List KeyParameter} {reply : Option Parcel} :
    (creation params reply).AliasFits := by
  intro k hk
  obtain rfl := Option.some.inj hk
  show modifiedUtf8Length "a" ≤ 65535
  decide

end Demo

open Demo in
theorem diskAgrees_passthroughOverForged :
    let d := Machine.run (Daemon.sequentialDrained platform) started passthroughOverForged
    d.DiskAgrees ∧
      ∀ env k, (d.reloaded platform env).cache.keys.containsKey k = d.cache.keys.containsKey k := by
  refine diskAgrees_of_keepsFiles platform started passthroughOverForged started_diskAgrees ?_ ?_
  · intro s hs
    simp only [passthroughOverForged, List.mem_cons, List.not_mem_nil, or_false] at hs
    rcases hs with rfl | rfl | rfl
    · exact creation_aliasFits
    · trivial
    · exact creation_aliasFits
  · refine Machine.allSteps_cons (fun r k _ hk => ?_) (Machine.allSteps_cons trivial ?_)
    · obtain rfl := Option.some.inj hk
      exact .inl (by decide)
    · refine Machine.allSteps_cons (fun r k hr hk => ?_) Machine.allSteps_nil
      obtain rfl := Option.some.inj hk
      obtain rfl := Option.some.inj hr
      exact .inr (by decide)

open Demo in
/-- The re-signing drops the forged key from memory only: its file comes back at the next start. -/
theorem patch_leaves_file : ¬ ∀ (P : Platform) (d : Daemon) (steps : List SequentialStep),
    d.DiskAgrees → (∀ s ∈ steps, s.AliasFits) →
      (Machine.run (Daemon.sequentialDrained P) d steps).DiskAgrees ∧
        ∀ env k, ((Machine.run (Daemon.sequentialDrained P) d steps).reloaded P
          env).cache.keys.containsKey k =
            (Machine.run (Daemon.sequentialDrained P) d steps).cache.keys.containsKey k := by
  intro h
  have hfit : ∀ s ∈ patchOverForged, s.AliasFits := by
    intro s hs
    simp only [patchOverForged, List.mem_cons, List.not_mem_nil, or_false] at hs
    rcases hs with rfl | rfl | rfl
    · exact creation_aliasFits
    · trivial
    · exact creation_aliasFits
  -- the key that the real keystore has superseded is forged again
  exact absurd ((h platform started patchOverForged started_diskAgrees hfit).2 (env 12) key)
    (by decide)

end TrickyStore
