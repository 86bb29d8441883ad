import TrickyStore.Proof.LastCreator
import TrickyStore.Proof.ListingAgreement
import TrickyStore.Proof.StartingPhase

/-!
# Deleted keys

`deleteKey` clears the key of its alias, in memory and on disk, before the real keystore is asked.  A
request that names the key by its id alone is forwarded as it is, and nothing is cleared: the entry of
the deleted key still answers.
-/

open Lib

namespace TrickyStore

open CertificateAliasCache

/-- The client is told that its request succeeded. -/
def Answer.succeeded : Answer → Bool
  | .fromHook (.error ..) _ => false
  | .fromHook .. => true
  | .fromKeystore resultCode reply => resultCode = 0 && (reply.bind Parcel.readException).isSome

/-- The metadata of an entry of `k` carries the id. -/
def CertificateAliasCache.CarriesId (c : CertificateAliasCache) (k : Key) (n : Int) : Prop :=
  (∃ i, c.keys.lookup k = some i ∧ i.response.nspace = some n) ∨
    ∃ r, c.patchedResponses.lookup k = some r ∧ r.nspace = some n

/-- A `deleteKey` by the owner of `k`, which has an entry: the descriptor has its alias, or the id that
its metadata carries and no alias. -/
structure Exchange.Deletes (x : Exchange) (d : Daemon) (k : Key) : Prop where
  uid : x.uid = k.uid
  entry : d.cache.isPatchedKey k = true
  request : ∃ desc, x.request = .deleteKey (some desc) ∧
    (desc.keyAlias = some k.keyAlias ∨ desc.keyAlias = none ∧ d.cache.CarriesId k desc.nspace)

/-- The step is not a creation of `k` that succeeds. -/
def CreatesNot (P : Platform) (k : Key) (d : Daemon) : SequentialStep → Prop
  | .exchange z => z.isCreation = true → z.namedKey = some k → (d.serve P z).2.succeeded = false
  | .targetChanged _ => True

/-- `y` is not answered from what was stored for `k` in `d`: a read names no entry of it, and a listing by
the owner has the alias only where the real keystore lists it. -/
structure NotAnsweredFrom (P : Platform) (d : Daemon) (k : Key) (d' : Daemon) (y : Exchange) : Prop where
  read : y.request.isRead = true → ∀ o, (d'.serve P y).2.origin = some o → o.key = k →
    ¬ d.cache.HasEntry o
  listing : ∀ domain startPastAlias, y.request = .listEntries domain startPastAlias → y.uid = k.uid →
    k.keyAlias ∈ (d'.serve P y).2.aliases →
      k.keyAlias ∈ (Answer.fromKeystore y.resultCode y.reply).aliases

/-- A deleted key stays deleted until it is created again: no request is answered from what was stored
before the deletion, and no file is left once the executor has run its tasks. -/
def StaysDeleted (P : Platform) (d₀ : Daemon) (steps : List SequentialStep) : Prop :=
  ∀ before x between after, steps = before ++ .exchange x :: (between ++ after) →
    let d := Machine.run (Daemon.sequential P) d₀ before
    let d' := Machine.run (Daemon.sequential P) (d.serve P x).1 between
    ∀ k, x.Deletes d k → (d.serve P x).2.succeeded = true →
      Machine.AllSteps (Daemon.sequential P) (CreatesNot P k) (d.serve P x).1 between →
        d'.persistence.settled.lookup k = none ∧
          ∀ y rest, after = .exchange y :: rest → NotAnsweredFrom P d k d' y

/-- A successful deletion of a key with an entry carries its alias. -/
def DeletionStep (P : Platform) (d : Daemon) : SequentialStep → Prop
  | .exchange x => ∀ k, x.Deletes d k → (d.serve P x).2.succeeded = true → x.namedKey = some k
  | .targetChanged _ => True

namespace Daemon

variable {P : Platform} {env : Env} {uid : Int} {level : SecurityLevel} {d d' : Daemon} {k : Key}
  {x y : Exchange}

/-- Nothing of `k` is forged: no entry, no usage counter, and no file once the pending tasks have run. -/
structure Unforged (k : Key) (d : Daemon) : Prop where
  keys : d.cache.keys.lookup k = none
  usageRemaining : d.cache.usageRemaining.lookup k = none
  file : d.persistence.settled.lookup k = none

end Daemon

/-- Only a `generateKey` forges a key. -/
theorem HookStep.unforged {uid : Int} {request : Request} {now : ℕ} {ids : Int → Prop}
    {c c' : CertificateAliasCache} {p p' : PassthroughKeyRegistry} {k : Key}
    (h : HookStep uid request now ids c p c' p') (hgenerate : request.isGenerateKey = false)
    (hkeys : c.keys.lookup k = none) (husage : c.usageRemaining.lookup k = none) :
    c'.keys.lookup k = none ∧ c'.usageRemaining.lookup k = none := by
  cases h with
  | unchanged | unskipped | regranted | granted | ungranted | resigned => exact ⟨hkeys, husage⟩
  | cleared a | relinquished a =>
    rw [clear_keys, clear_usageRemaining, HashMap.lookup_erase_ite, HashMap.lookup_erase_ite, hkeys, husage]
    simp only [ite_self, and_self]
  | generated _ _ _ _ _ _ _ _ _ hrequest => simp [hgenerate] at hrequest
  | patched _ _ _ _ hrequest => simp [hgenerate] at hrequest
  | promoted _ _ _ hrequest => simp [hgenerate] at hrequest
  | updated k' =>
    rw [updateKeyCertChain_keys_lookup, hkeys]
    exact ⟨rfl, husage⟩

/-- A hook that saves nothing leaves no file where there is none. -/
theorem PersistStep.file_eq_none {ids : Int → Prop} {p p' : PersistenceManager} {k : Key}
    (h : PersistStep ids p p') (hids : ∀ n, ¬ ids n) (hfile : p.settled.lookup k = none) :
    p'.settled.lookup k = none := by
  cases h with
  | kept => exact hfile
  | deleted k' =>
    rw [PersistenceManager.settled_deleteKey, HashMap.lookup_erase_ite, hfile, ite_self]
  | saved pk hn => exact absurd hn (hids _)

namespace Daemon

variable {P : Platform} {env : Env} {uid : Int} {level : SecurityLevel} {d d' : Daemon} {k : Key}
  {x y : Exchange}

namespace Unforged

theorem tick (h : d.Unforged k) : d.tick.Unforged k := ⟨h.keys, h.usageRemaining, h.file⟩

theorem looksUp (h : d.Unforged k) (hlook : LooksUp env uid d d') : d'.Unforged k := by
  obtain ⟨config, rfl⟩ := hlook.eq
  exact ⟨h.keys, h.usageRemaining, h.file⟩

theorem clear (h : d.Unforged k) (k' : Key) (b : Bool) :
    (d.clearSyntheticCertificateState k' b).Unforged k where
  keys := by
    show (d.cache.clear k').keys.lookup k = none
    rw [clear_keys, HashMap.lookup_erase_ite, h.keys, ite_self]
  usageRemaining := by
    show (d.cache.clear k').usageRemaining.lookup k = none
    rw [clear_usageRemaining, HashMap.lookup_erase_ite, h.usageRemaining, ite_self]
  file := by
    cases b with
    | false => exact h.file
    | true =>
      show (d.persistence.deleteKey k').settled.lookup k = none
      rw [PersistenceManager.settled_deleteKey, HashMap.lookup_erase_ite, h.file, ite_self]

/-- A forged key is another key. -/
theorem storeGeneratedKey {a : String} {domain : Int} {kgp : KeyGenParameters} {pair : KeyPair}
    {chain : List Certificate} {skip : Bool} (h : d.Unforged k) (hk : k ≠ ⟨uid, a⟩) :
    (d.storeGeneratedKey P env level uid a domain kgp pair chain skip).1.Unforged k := by
  have hcleared := h.clear ⟨uid, a⟩ false
  refine ⟨(AList.lookup_insert_ne hk).trans hcleared.keys, ?_, ?_⟩
  · show (CertificateAliasCache.storeGenerated _ _ _ _ _ _ _).usageRemaining.lookup k = none
    by_cases hlimit : kgp.usageCountLimit > 0
    · simp only [storeGenerated, hlimit, if_true]
      exact (AList.lookup_insert_ne hk).trans hcleared.usageRemaining
    · simp only [storeGenerated, hlimit, if_false]
      exact hcleared.usageRemaining
  · refine (congrArg (AList.lookup k) (PersistenceManager.settled_execute ..)).trans ?_
    unfold PersistenceManager.runTask
    dsimp only
    split_ifs
    · exact (AList.lookup_insert_ne hk).trans hcleared.file
    · exact hcleared.file

/-- The pre-hook of `generateKey` forges the named key and answers with its metadata, or nothing of `k`. -/
theorem preGenerateKey {kd ak : Option KeyDescriptor} {params : Option (List KeyParameter)}
    (h : d.Unforged k) :
    (d.preGenerateKey P env level uid kd ak params).1.Unforged k ∨
      (kd.bind KeyDescriptor.keyAlias).map (fun a => (⟨uid, a⟩ : Key)) = some k ∧
        ∃ m, (d.preGenerateKey P env level uid kd ak params).2 = .typedReply m := by
  have houtcome := preGenerateKey_outcome P env uid level d kd ak params
  generalize d.preGenerateKey P env level uid kd ak params = outcome at houtcome ⊢
  cases houtcome with
  | answered hlook => exact .inl (h.looksUp hlook)
  | @forged d₁ req pair chain skip hlook hcheck =>
    by_cases hk : k = ⟨uid, req.keyAlias⟩
    · refine .inr ⟨?_, _, rfl⟩
      rw [checkGenerateKey_ok hcheck, hk]
      rfl
    · exact .inl ((h.looksUp hlook.checked).storeGeneratedKey hk)
  | @forwarded d₁ a r hlook =>
    have h₁ : d₁.Unforged k := h.looksUp hlook
    cases r with
    | passthroughRealTee =>
      refine .inl (Unforged.clear ?_ _ _)
      exact ⟨h₁.keys, h₁.usageRemaining, h₁.file⟩
    | _ => exact .inl ⟨h₁.keys, h₁.usageRemaining, h₁.file⟩

theorem postGenerateKey {kd : Option KeyDescriptor} {reply : Option Parcel} (h : d.Unforged k) :
    (d.postGenerateKey P env level uid kd reply).1.Unforged k := by
  rcases postGenerateKey_cases P env uid level d kd reply with hpost | ⟨a, -, hpost | ⟨m, hpost⟩ | ⟨m, chain, hpost⟩⟩
  · rwa [hpost]
  · rw [hpost]
    exact ⟨h.keys, h.usageRemaining, h.file⟩
  · have hcleared := h.clear ⟨uid, a⟩ true
    rw [hpost]
    refine ⟨?_, ?_, hcleared.file⟩
    · show ((d.cache.clear ⟨uid, a⟩).register ⟨uid, a⟩ _).keys.lookup k = none
      rw [register_keys]
      exact hcleared.keys
    · show ((d.cache.clear ⟨uid, a⟩).register ⟨uid, a⟩ _).usageRemaining.lookup k = none
      rw [register_usageRemaining]
      exact hcleared.usageRemaining
  · have hcleared := h.clear ⟨uid, a⟩ false
    rw [hpost]
    refine ⟨?_, ?_, hcleared.file⟩
    · show ((d.cache.clear ⟨uid, a⟩).storePatched ⟨uid, a⟩ _).keys.lookup k = none
      rw [storePatched, register_keys]
      exact hcleared.keys
    · show ((d.cache.clear ⟨uid, a⟩).storePatched ⟨uid, a⟩ _).usageRemaining.lookup k = none
      rw [storePatched, register_usageRemaining]
      exact hcleared.usageRemaining

/-- The pre-hook of another request forges nothing. -/
theorem pre_of_not_generateKey {request : Request} (h : d.Unforged k)
    (hgenerate : request.isGenerateKey = false) : (d.pre P env uid request).1.Unforged k := by
  obtain ⟨hkeys, husage⟩ := (pre_steps P env request).unforged hgenerate h.keys h.usageRemaining
  refine ⟨hkeys, husage, (pre_persistence P env uid d request).file_eq_none ?_ h.file⟩
  intro _ ⟨hrequest, _⟩
  rw [hgenerate] at hrequest
  cases hrequest

theorem post {request : Request} {resultCode : Int} {reply : Option Parcel} (h : d.Unforged k) :
    (d.post P env uid request resultCode reply).1.Unforged k := by
  cases hgenerate : request.isGenerateKey with
  | false =>
    obtain ⟨hkeys, husage⟩ :=
      (post_steps P env request resultCode reply).unforged hgenerate h.keys h.usageRemaining
    exact ⟨hkeys, husage, (post_persistence P env uid d request resultCode reply).file_eq_none
      (fun _ hn => hn) h.file⟩
  | true =>
    cases request with
    | generateKey level kd ak params =>
      have hpost : (d.postGenerateKey P env level uid kd reply).1.Unforged k := h.postGenerateKey
      exact hpost.tick
    | _ => cases hgenerate

/-- A request forges a key of `k` only where it creates `k` and succeeds. -/
theorem serve (h : d.Unforged k) (hx : CreatesNot P k d (.exchange x)) : (d.serve P x).1.Unforged k := by
  have hpre : (x.preHook P d).1.Unforged k ∨ x.isCreation = true ∧ x.namedKey = some k ∧
      ∃ m, (x.preHook P d).2 = .typedReply m := by
    cases hgenerate : x.request.isGenerateKey with
    | false => exact .inl (h.pre_of_not_generateKey hgenerate)
    | true =>
      cases hrequest : x.request with
      | generateKey level kd ak params =>
        rw [Exchange.preHook_of_request d hrequest]
        rcases h.preGenerateKey with hpre | ⟨hkey, hreply⟩
        · exact .inl hpre.tick
        · refine .inr ⟨by rw [Exchange.isCreation, hrequest], ?_, hreply⟩
          rw [Exchange.namedKey, hrequest]
          exact hkey
      | _ =>
        rw [hrequest] at hgenerate
        cases hgenerate
  rcases hpre with hpre | ⟨hcreate, hnamed, m, hreply⟩
  · rcases serve_fst (P := P) (d := d) (x := x) with ⟨-, hs⟩ | ⟨-, hs⟩
    · rwa [hs]
    · rw [hs]
      exact hpre.post
  · have hsucceeded := hx hcreate hnamed
    rw [serve_of_override hreply] at hsucceeded
    cases hsucceeded

theorem sequential {s : SequentialStep} (h : d.Unforged k) (hs : CreatesNot P k d s) :
    (d.sequential P s).Unforged k := by
  cases s with
  | exchange x => exact h.serve hs
  | targetChanged => exact ⟨h.keys, h.usageRemaining, h.file⟩

end Unforged

/-! ## The deletion -/

theorem unforged_cleanupKey : (d.cleanupKey k).Unforged k :=
  ⟨AList.lookup_erase _ _, AList.lookup_erase _ _, by
    show (d.persistence.deleteKey k).settled.lookup k = none
    rw [PersistenceManager.settled_deleteKey, AList.lookup_erase]⟩

/-- A deletion by alias clears the key before it is forwarded. -/
theorem preHook_deleteKey {desc : KeyDescriptor} (hx : x.request = .deleteKey (some desc))
    (hk : x.namedKey = some k) : (x.preHook P d).1 = (d.cleanupKey k).tick := by
  obtain ⟨a, ha, rfl⟩ := Option.map_eq_some_iff.1 hk
  have hdesc : desc.keyAlias = some a := by simpa [hx, Request.keyDescriptor] using ha
  rw [Exchange.preHook_of_request d hx]
  simp only [onPreTransact, preDeleteKey, Option.bind_some, hdesc]

/-- Nothing that was stored for the key is left by a deletion by alias. -/
theorem deleted_of_namedKey {desc : KeyDescriptor} (hx : x.request = .deleteKey (some desc))
    (hk : x.namedKey = some k) :
    (d.serve P x).1.CreatedSince k d.clock ∧ (d.serve P x).1.Unforged k := by
  have hpre := preHook_deleteKey (P := P) (d := d) hx hk
  have hsince : (x.preHook P d).1.CreatedSince k d.clock := by
    rw [hpre]
    exact ⟨Nat.le_succ _, noOlder_clear⟩
  have hunforged : (x.preHook P d).1.Unforged k := by
    rw [hpre]
    exact unforged_cleanupKey.tick
  rcases serve_fst (P := P) (d := d) (x := x) with ⟨-, hs⟩ | ⟨-, hs⟩
  · rw [hs]
    exact ⟨hsince, hunforged⟩
  · rw [hs]
    exact ⟨hsince.post, hunforged.post⟩

/-! ## Later answers -/

/-- A read that names `k` is answered from a young entry. -/
theorem CreatedSince.serial_le {t : ℕ} {o : Origin} (h : d.CreatedSince k t)
    (ho : (d.serve P y).2.origin = some o) (hk : o.key = k) : t ≤ o.serial := by
  rcases serve_origin ho with ho | ⟨-, ho⟩
  · obtain ⟨-, -, -, -, hentry⟩ := pre_answeredFrom ho
    exact h.noOlder o hk hentry
  · obtain ⟨-, -, -, hentry⟩ := post_answeredFrom ho
    have h' : (y.preHook P d).1.CreatedSince k t := h.pre
    exact h'.noOlder o hk hentry

theorem aliases_fromKeystore {resultCode : Int} {reply : Option Parcel} {ds : List (Option KeyDescriptor)}
    (h : (reply.bind Parcel.readException).bind readDescriptors = some ds) :
    (Answer.fromKeystore resultCode reply).aliases = ds.filterMap fun e => e.bind KeyDescriptor.keyAlias := by
  rw [Answer.aliases, h]
  rfl

/-- The post-hook of a listing keeps the reply or merges the forged keys of the caller into it. -/
theorem postListEntries_cases (d : Daemon) (env : Env) (uid domain : Int) (startPastAlias : Option String)
    (resultCode : Int) (p : Parcel) :
    (d.postListEntries env uid domain startPastAlias resultCode p).2 = .Skip ∨
      ∃ ds, p.readException.bind readDescriptors = some ds ∧
        (d.postListEntries env uid domain startPastAlias resultCode p).2 =
          .OverrideReply 0 (.descriptors (d.mergedDescriptors uid startPastAlias ds)) none := by
  unfold postListEntries mergeListEntries
  cases hds : p.readException.bind readDescriptors with
  | none =>
    left
    dsimp only
    repeat' split
    all_goals rfl
  | some ds =>
    dsimp only
    repeat' split
    all_goals first | exact .inl rfl | exact .inr ⟨ds, rfl, rfl⟩

theorem mem_mergedDescriptors {startPastAlias : Option String} {ds : List (Option KeyDescriptor)}
    {a : String} (ha : a ∈ (d.mergedDescriptors uid startPastAlias ds).filterMap KeyDescriptor.keyAlias) :
    (a ∈ ds.filterMap fun e => e.bind KeyDescriptor.keyAlias) ∨ d.cache.keys.containsKey ⟨uid, a⟩ = true := by
  have hperm := List.Perm.filterMap KeyDescriptor.keyAlias (List.mergeSort_perm
    (ds.filterMap id ++ (d.aliasesToAdd uid startPastAlias (ds.filterMap fun e =>
      e.bind KeyDescriptor.keyAlias)).map fun a => ({ domain := 0, nspace := uid, keyAlias := some a } :
        KeyDescriptor)) fun x y => stringLe (x.keyAlias.getD "") (y.keyAlias.getD ""))
  rw [filterMap_descriptors] at hperm
  refine (List.mem_append.1 (hperm.mem_iff.1 ha)).imp_right fun hadd => ?_
  exact (mem_aliasesToAdd.1 hadd).1.1

/-- The listing hooks add forged keys, and no other. -/
theorem mem_aliases_of_unforged {domain : Int} {startPastAlias : Option String}
    (hy : y.request = .listEntries domain startPastAlias) (huid : y.uid = k.uid) (h : d.Unforged k)
    (hmem : k.keyAlias ∈ (d.serve P y).2.aliases) :
    k.keyAlias ∈ (Answer.fromKeystore y.resultCode y.reply).aliases := by
  have hpre : (y.preHook P d).2 = .Skip ∨ (y.preHook P d).2 = .Continue := by
    rw [Exchange.preHook_of_request d hy]
    dsimp only [onPreTransact, preListEntries]
    split_ifs <;> simp
  rcases hpre with hskip | hcontinue
  · rwa [serve_of_skip hskip] at hmem
  · have hunforged : (y.preHook P d).1.Unforged k :=
      h.pre_of_not_generateKey (by rw [hy]; rfl)
    cases hreply : y.reply with
    | none =>
      have hkept : (y.postHook P (y.preHook P d).1).2 = .Skip := by
        rw [Exchange.postHook_of_request _ hy, hreply]
        rfl
      rwa [serve_of_kept hcontinue hkept, hreply] at hmem
    | some p =>
      have hpost : (y.postHook P (y.preHook P d).1).2 = ((y.preHook P d).1.postListEntries y.postEnv
          y.uid domain startPastAlias y.resultCode p).2 := by
        rw [Exchange.postHook_of_request _ hy, hreply]
        rfl
      rcases postListEntries_cases (y.preHook P d).1 y.postEnv y.uid domain startPastAlias y.resultCode p with
        hkept | ⟨ds, hds, hmerged⟩
      · rwa [serve_of_kept hcontinue (hpost.trans hkept), hreply] at hmem
      · rw [serve_of_replaced hcontinue (hpost.trans hmerged)] at hmem
        have hlisted : ((some p).bind Parcel.readException).bind readDescriptors = some ds := hds
        rw [aliases_fromKeystore hlisted]
        refine (mem_mergedDescriptors hmem).resolve_right fun hforged => ?_
        obtain ⟨i, hi⟩ := HashMap.containsKey_eq_true.1 hforged
        rw [huid] at hi
        exact absurd hi (by simp [hunforged.keys])

end Daemon

/-- In a run whose successful deletions carry the alias of the key, a deleted key stays deleted. -/
theorem staysDeleted_of_deletionSteps (P : Platform) (history : List Event) (steps : List SequentialStep)
    (h : Machine.AllSteps (Daemon.sequential P) (DeletionStep P) (World.run P {} history).daemon steps) :
    StaysDeleted P (World.run P {} history).daemon steps := by
  intro before x between after hsteps d d' k hx hsucceeded hbetween
  have htimed : d.Timed := Machine.run_invariant (fun _ _ h => h.sequential) (Daemon.timed_run history)
  have hnamed : x.namedKey = some k := h before _ _ hsteps k hx hsucceeded
  obtain ⟨desc, hrequest, -⟩ := hx.request
  obtain ⟨hsince, hunforged⟩ := Daemon.deleted_of_namedKey (P := P) (d := d) hrequest hnamed
  have hsince' : d'.CreatedSince k d.clock := Machine.run_invariant (fun _ _ h => h.sequential) hsince
  have hunforged' : d'.Unforged k := hbetween.invariant hunforged fun _ _ h hs => h.sequential hs
  refine ⟨hunforged'.file, fun y rest _ => ⟨fun _ o ho hk hold => ?_, fun domain past hy huid hmem => ?_⟩⟩
  · have hyoung : d.clock ≤ o.serial := hsince'.serial_le ho hk
    have hold' : o.serial < d.clock := htimed o hold
    omega
  · exact Daemon.mem_aliases_of_unforged hy huid hunforged' hmem

/-! ## Two deletions of a re-signed key -/

namespace Demo

/-- The owner deletes the key 9 of the real keystore. -/
def deletion (descriptor : KeyDescriptor) : Exchange :=
  { uid := owner, request := .deleteKey (some descriptor), preEnv := env 7, postEnv := env 8
    reply := some [.int 0] }

/-- A key is created in the real keystore and re-signed, deleted, and read. -/
def deletedResigned (descriptor : KeyDescriptor) : List SequentialStep :=
  [.exchange (creation ecParams (some (created 9 (some [10])))), .exchange (deletion descriptor),
    .exchange reading]

end Demo

open Demo in
theorem staysDeleted_byAlias :
    StaysDeleted platform (World.run platform {} (start .LEAF_HACK .AUTO)).daemon (deletedResigned byAlias) := by
  refine staysDeleted_of_deletionSteps platform (start .LEAF_HACK .AUTO) (deletedResigned byAlias) ?_
  have hother {d : Daemon} {x : Exchange} (hx : ∀ desc, x.request ≠ .deleteKey desc) :
      DeletionStep platform d (.exchange x) := by
    intro k hdeletes
    obtain ⟨desc, hrequest, -⟩ := hdeletes.request
    exact absurd hrequest (hx _)
  refine Machine.allSteps_cons (hother fun _ h => by cases h) ?_
  refine Machine.allSteps_cons (fun k hdeletes _ => ?_) ?_
  · obtain ⟨desc, hrequest, ha⟩ := hdeletes.request
    cases hrequest
    have hk : k = key := by
      cases k
      rcases ha with ha | ⟨ha, -⟩
      · cases ha
        cases hdeletes.uid
        rfl
      · cases ha
    rw [hk]
    rfl
  · exact Machine.allSteps_cons (hother fun _ h => by cases h) Machine.allSteps_nil

open Demo in
/-- The deletion by id succeeds, and the re-signed certificate is still served. -/
theorem deletion_by_id_leaves_entry :
    ¬ ∀ P history steps, StaysDeleted P (World.run P {} history).daemon steps := by
  intro h
  obtain ⟨-, hanswer⟩ := h platform (start .LEAF_HACK .AUTO) (deletedResigned (byId 9))
    [.exchange (creation ecParams (some (created 9 (some [10]))))] (deletion (byId 9)) []
    [.exchange reading] rfl key ⟨rfl, by decide, byId 9, rfl, .inr ⟨rfl, .inr ⟨_, rfl, rfl⟩⟩⟩ (by decide)
    Machine.allSteps_nil
  exact (hanswer reading [] rfl).read rfl ⟨key, 1⟩ (by decide) rfl (.inr ⟨_, rfl, rfl⟩)

end TrickyStore
