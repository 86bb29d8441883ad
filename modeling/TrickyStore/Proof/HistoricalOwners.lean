import TrickyStore.Proof.ForgedRequests
import TrickyStore.Proof.OwnershipExclusive

/-!
# Owners from an earlier mode

A uid that is plain AUTO now may have forged and re-signed keys of an earlier `!` or `?` mode.  The
pre-hook of `getKeyEntry` asks for the current mode before it uses them; the handlers of
`createOperation`, `updateSubcomponent`, `grant`, `ungrant` and `deleteKey` do not.  Their decisions
are compared with those in the state without the leftovers.
-/

open Lib

namespace TrickyStore

open CertificateAliasCache

/-- What a pre-hook decides: to forward, or the local reply. -/
def Result.decision : Result → Option (Int × LocalReply)
  | .OverrideReply code reply _ => some (code, reply)
  | _ => none

/-- The cache without its entries for the keys that satisfy `p`; the grants stay. -/
def CertificateAliasCache.eraseKeys (c : CertificateAliasCache) (p : Key → Bool) :
    CertificateAliasCache :=
  { c with
    keys := c.keys.removeIf fun k _ => p k
    keyPairs := c.keyPairs.removeIf fun k _ => p k
    skipLeafHacks := c.skipLeafHacks.removeIf fun k _ => p k
    keysByNspace := c.keysByNspace.removeIf fun _ k => p k
    patchedResponses := c.patchedResponses.removeIf fun k _ => p k
    usageRemaining := c.usageRemaining.removeIf fun k _ => p k }

namespace Daemon

variable (P : Platform) (env : Env) (uid : Int) (d : Daemon)

/-- The uid's own keys that are not tracked: what the cache has of them is from an earlier mode. -/
def historical (k : Key) : Bool := k.uid = uid && !d.passthrough.isTracked k

def eraseHistory : Daemon := { d with cache := d.cache.eraseKeys (d.historical uid) }

/-- The uid's requests are decided as if there were no leftovers. -/
def DecidedAlike : Prop :=
  ∀ request : Request, request.isKeyRequest = true →
    (d.pre P env uid request).2.decision = ((d.eraseHistory uid).pre P env uid request).2.decision

def HistoryIgnored : Prop :=
  ∀ uid, d.config.isPlainAuto uid = true → d.DecidedAlike P env uid

/-- The leftovers of the uid have nothing that a handler could find: no forged key, no id that hides a
grant, no counter that a grant of a limited key could meet. -/
structure Spent : Prop where
  forged : ∀ k, d.historical uid k = true → d.cache.keys.containsKey k = false
  hidden : ∀ n k g, n ≠ 0 → d.cache.keysByNspace.lookup n = some k → d.historical uid k = true →
    d.cache.grants.lookup n = some g → g.granteeUid = uid →
      g.allows KeyPermission.UPDATE = true ∧ d.cache.keys.containsKey g.key = false
  counters : ∀ n g i k remaining, n ≠ 0 → d.cache.grants.lookup n = some g → g.granteeUid = uid →
    d.cache.ownKey uid n = none → d.cache.keys.lookup g.key = some i → 0 < i.params.usageCountLimit →
      d.historical uid k = true → d.cache.usageRemaining.lookup k = some remaining → 0 < remaining

end Daemon

/-! ## Forged keys are not tracked -/

theorem HookStep.forgedUntracked {uid : Int} {request : Request} {now : ℕ} {ids : Int → Prop}
    {c c' : CertificateAliasCache} {p p' : PassthroughKeyRegistry}
    (h : HookStep uid request now ids c p c' p')
    (hc : ∀ k, ¬ (c.keys.containsKey k = true ∧ p.isTracked k = true)) (k : Key) :
    ¬ (c'.keys.containsKey k = true ∧ p'.isTracked k = true) := by
  rintro ⟨hforged, htracked⟩
  cases h with
  | unchanged | unskipped | regranted | granted | ungranted | resigned => exact hc k ⟨hforged, htracked⟩
  | cleared => exact hc k ⟨(containsKey_clear_keys.1 hforged).2, htracked⟩
  | relinquished =>
    exact hc k ⟨(containsKey_clear_keys.1 hforged).2, (PassthroughKeyRegistry.isTracked_remove_iff.1 htracked).2⟩
  | generated =>
    obtain ⟨hk, htracked⟩ := PassthroughKeyRegistry.isTracked_remove_iff.1 htracked
    rw [storeGenerated, HashMap.containsKey_insert, if_neg hk] at hforged
    exact hc k ⟨(containsKey_clear_keys.1 hforged).2, htracked⟩
  | patched =>
    rw [storePatched, register_keys] at hforged
    exact hc k ⟨(containsKey_clear_keys.1 hforged).2, (PassthroughKeyRegistry.isTracked_remove_iff.1 htracked).2⟩
  | promoted =>
    rw [register_keys] at hforged
    obtain ⟨hk, hforged⟩ := containsKey_clear_keys.1 hforged
    exact hc k ⟨hforged, (isTracked_promote_iff.1 htracked).resolve_left hk⟩
  | updated =>
    rw [containsKey_updateKeyCertChain_keys] at hforged
    exact hc k ⟨hforged, htracked⟩

/-- After every run no forged key is tracked. -/
theorem World.run_forgedUntracked (P : Platform) (es : List Event)
    (h : Machine.AllSteps (World.next P) World.Observed {} es) (k : Key) :
    ¬ ((World.run P {} es).daemon.cache.keys.containsKey k = true ∧
      (World.run P {} es).daemon.passthrough.isTracked k = true) := by
  refine (h.invariant (I := fun w : World => (w.starting = true → w.Quiet) ∧
    ∀ k, ¬ (w.daemon.cache.keys.containsKey k = true ∧ w.daemon.passthrough.isTracked k = true))
    ⟨fun _ => World.quiet_init, fun k h => (by cases h.1)⟩ ?_).2 k
  rintro w e ⟨hquiet, hw⟩ hobserved
  refine ⟨World.quiet_step hquiet hobserved, ?_⟩
  cases e with
  | arrive id uid request env =>
    rcases w.arrive_daemon P id uid request env with hd | hd <;> rw [World.next, hd]
    · exact hw
    · exact (Daemon.pre_steps P env request).forgedUntracked hw
  | complete id resultCode reply env =>
    rcases w.complete_daemon P id resultCode reply env with hd | ⟨t, -, hd⟩ <;> rw [World.next, hd]
    · exact hw
    · exact (Daemon.post_steps P env t.request resultCode reply).forgedUntracked hw
  | operate op call =>
    dsimp only [World.next, World.withDaemon, Daemon.operate]
    split <;> exact hw
  | abandon | targetChanged | packageManagerDied | persist => exact hw
  | keyboxChanged | restart => exact fun k h => (by cases h.1)
  | loadPersistedKeys level env =>
    dsimp only [World.next]
    split_ifs with hstarting
    · -- while the process starts, nothing is tracked
      have hp : (w.daemon.loadPersistedKeys P env level).passthrough = w.daemon.passthrough :=
        Daemon.loadPersistedKeys_invariant (I := fun d => d.passthrough = w.daemon.passthrough) rfl
          fun _ _ _ hd => hd
      rintro k ⟨-, htracked⟩
      have huntracked := (hquiet hstarting).tracked k
      rw [← hp] at huntracked
      exact Bool.false_ne_true (huntracked.symm.trans htracked)
    · exact hw
  | initializeConfig modes keyboxes =>
    dsimp only [World.next]
    split_ifs
    · cases modes <;> cases keyboxes
      · exact hw
      · exact fun k h => (by cases h.1)
      · exact hw
      · exact fun k h => (by cases h.1)
    · exact hw

/-! ## The cache without the leftovers -/

namespace Daemon

variable {P : Platform} {env : Env} {uid : Int} {d : Daemon} {desc : KeyDescriptor} {k : Key}

theorem historical_eq_true :
    d.historical uid k = true ↔ k.uid = uid ∧ d.passthrough.isTracked k = false := by
  simp [historical]

/-- Without an own forged key, only a grant leads to one. -/
theorem findGeneratedOwner_of_unforged {c : CertificateAliasCache}
    (h : ∀ k, k.uid = uid → c.keys.lookup k = none) :
    c.findGeneratedOwner uid desc =
      if desc.nspace ≠ 0 then
        (c.grantedKey uid desc.nspace).bind fun k => (c.keys.lookup k).map fun i => (k, i)
      else none := by
  have halias : ((desc.keyAlias.map fun a => (⟨uid, a⟩ : Key)).toList.findSome?
      fun k => (c.keys.lookup k).map fun i => (k, i)) = none := by
    cases desc.keyAlias <;> simp [h]
  have hown : ((c.ownKey uid desc.nspace).toList.findSome?
      fun k => (c.keys.lookup k).map fun i => (k, i)) = none := by
    cases hk : c.ownKey uid desc.nspace with
    | none => rfl
    | some k => simp [h k (ownKey_eq_some.1 hk).2]
  unfold findGeneratedOwner resolveOwnerKeys
  rw [List.findSome?_append, halias, Option.or_none]
  split_ifs
  · rw [List.findSome?_append, hown, Option.none_or]
    cases c.grantedKey uid desc.nspace <;> simp
  · rfl

theorem eraseHistory_keys (h : ∀ k, k.uid = uid → d.cache.keys.lookup k = none) (k : Key) :
    (d.eraseHistory uid).cache.keys.lookup k = d.cache.keys.lookup k := by
  refine HashMap.lookup_removeIf_of_kept fun i hi => (Bool.not_eq_true _).mp fun hhist => ?_
  rw [h k (historical_eq_true.1 hhist).1] at hi
  cases hi

theorem eraseHistory_ownKey {n : Int} :
    (d.eraseHistory uid).cache.ownKey uid n = some k ↔
      d.cache.ownKey uid n = some k ∧ d.historical uid k = false := by
  rw [ownKey_eq_some, ownKey_eq_some]
  show (d.cache.keysByNspace.removeIf _).lookup n = some k ∧ _ ↔ _
  rw [HashMap.lookup_removeIf_eq_some]
  tauto

/-! ## The decisions for a uid without forged key -/

section Unforged

variable (h : ∀ k, k.uid = uid → d.cache.keys.lookup k = none)

include h

theorem containsKey_resolveKey (hk : d.cache.resolveKey uid desc = some k) :
    d.cache.keys.containsKey k = false := by
  rw [HashMap.containsKey_eq_false]
  exact h k (resolveKey_uid hk)

theorem preDeleteKey_decision (kd : Option KeyDescriptor) :
    (d.preDeleteKey uid kd).2.decision = none := by
  unfold preDeleteKey
  split
  · rfl
  · next a _ =>
    have hk : d.cache.keys.containsKey ⟨uid, a⟩ = false :=
      HashMap.containsKey_eq_false.2 (h ⟨uid, a⟩ rfl)
    simp only [hk, Bool.false_and, Bool.false_eq_true, if_false]
    rfl

theorem preGrant_decision (kd : Option KeyDescriptor) (granteeUid : Int) (accessVector : BitVec 32) :
    (d.preGrant env uid kd granteeUid accessVector).2.decision = none := by
  unfold preGrant
  split
  · split
    · rfl
    · next k hk =>
      obtain ⟨desc, -, hk⟩ := Option.bind_eq_some_iff.1 hk
      simp only [containsKey_resolveKey h hk, Bool.false_eq_true, if_false]
      split <;> rfl
  · rfl

theorem preUngrant_decision (kd : Option KeyDescriptor) (granteeUid : Int) :
    (d.preUngrant uid kd granteeUid).2.decision = none := by
  unfold preUngrant
  split
  · rfl
  · next k hk =>
    obtain ⟨desc, -, hk⟩ := Option.bind_eq_some_iff.1 hk
    simp only [containsKey_resolveKey h hk, Bool.false_eq_true, if_false]
    rfl

/-- An `updateSubcomponent` that means no own key is decided by the grant that it names. -/
theorem preUpdateSubcomponent_decision (cert chain : Option Bytes) :
    (d.preUpdateSubcomponent uid (some desc) cert chain).2.decision =
      if (d.cache.resolveKey uid desc).isSome then none
      else (d.grantFor uid desc.nspace).bind fun g =>
        if g.allows KeyPermission.UPDATE then
          if d.cache.keys.containsKey g.key then Result.successReply.decision else none
        else some (0, .error ResponseCode.PERMISSION_DENIED "UPDATE permission not granted") := by
  cases hk : d.cache.resolveKey uid desc with
  | some k =>
    have htarget : d.updateTarget uid desc = some (some k) := by rw [updateTarget, hk]
    simp only [preUpdateSubcomponent, htarget, containsKey_resolveKey h hk, Bool.false_eq_true,
      if_false, Option.isSome_some, if_true]
    rfl
  | none =>
    cases hg : d.grantFor uid desc.nspace with
    | none =>
      have htarget : d.updateTarget uid desc = some none := by simp only [updateTarget, hk, hg]
      simp only [preUpdateSubcomponent, htarget]
      rfl
    | some g =>
      have htarget : d.updateTarget uid desc =
          if g.allows KeyPermission.UPDATE then
            some (if d.cache.isPatchedKey g.key then some g.key else none)
          else none := by simp only [updateTarget, hk, hg]
      rw [Option.isSome_none, if_neg Bool.false_ne_true, Option.bind_some]
      by_cases hallows : g.allows KeyPermission.UPDATE = true
      · by_cases hcached : d.cache.isPatchedKey g.key = true
        · rw [if_pos hallows, if_pos hcached] at htarget
          simp only [preUpdateSubcomponent, htarget, hallows, if_true]
          split <;> rfl
        · rw [if_pos hallows, if_neg hcached] at htarget
          have hforged : ¬ d.cache.keys.containsKey g.key = true :=
            fun hforged => hcached (by rw [isPatchedKey, hforged, Bool.true_or])
          simp only [preUpdateSubcomponent, htarget, hallows, if_true, if_neg hforged]
          rfl
      · rw [if_neg hallows] at htarget
        simp only [preUpdateSubcomponent, htarget, if_neg hallows]
        rfl

end Unforged

/-- A `createOperation` is decided by the key that it finds, the usage check and the request. -/
theorem preCreateOperation_decision_congr {d' : Daemon} (opParams : List KeyParameter) (force : Bool)
    (hfound : d'.cache.findGeneratedOwner uid desc = d.cache.findGeneratedOwner uid desc)
    (hoperations : d'.operations = d.operations)
    (husage : ∀ owner info, d.cache.findGeneratedOwner uid desc = some (owner, info) →
      d'.usageExhausted uid desc info = d.usageExhausted uid desc info) :
    (d'.preCreateOperation P env uid (some desc) opParams force).2.decision =
      (d.preCreateOperation P env uid (some desc) opParams force).2.decision := by
  dsimp only [preCreateOperation]
  rw [hfound, hoperations]
  cases howner : d.cache.findGeneratedOwner uid desc with
  | none => rfl
  | some found =>
    obtain ⟨owner, info⟩ := found
    simp only [husage owner info howner]
    split_ifs
    · rfl
    · rfl
    · cases authorizeOperation info.params (OpRequest.parse opParams) env.currentTimeMillis with
      | some errCode => rfl
      | none =>
        unfold SoftwareOperationBinder.create
        cases SoftwareOperationBinder.selectEngine info (OpRequest.parse opParams) with
        | error t => rfl
        | ok engine =>
          simp only [bind, Except.bind]
          cases P.jca.init engine <;> rfl

/-! ## Leftovers that decide nothing -/

theorem Spent.unforged (h : d.Spent uid)
    (huntracked : ∀ k, ¬ (d.cache.keys.containsKey k = true ∧ d.passthrough.isTracked k = true))
    (k : Key) (hk : k.uid = uid) : d.cache.keys.lookup k = none := by
  rw [← HashMap.containsKey_eq_false]
  cases htracked : d.passthrough.isTracked k with
  | false => exact h.forged k (historical_eq_true.2 ⟨hk, htracked⟩)
  | true => exact (Bool.not_eq_true _).mp fun hforged => huntracked k ⟨hforged, htracked⟩

theorem eraseHistory_unforged (h : ∀ k, k.uid = uid → d.cache.keys.lookup k = none) (k : Key)
    (hk : k.uid = uid) : (d.eraseHistory uid).cache.keys.lookup k = none :=
  (eraseHistory_keys h k).trans (h k hk)

theorem eraseHistory_containsKey (h : ∀ k, k.uid = uid → d.cache.keys.lookup k = none) (k : Key) :
    (d.eraseHistory uid).cache.keys.containsKey k = d.cache.keys.containsKey k :=
  congrArg Option.isSome (eraseHistory_keys h k)

theorem eraseHistory_findGeneratedOwner (h : ∀ k, k.uid = uid → d.cache.keys.lookup k = none) :
    (d.eraseHistory uid).cache.findGeneratedOwner uid desc = d.cache.findGeneratedOwner uid desc := by
  rw [findGeneratedOwner_of_unforged h, findGeneratedOwner_of_unforged (eraseHistory_unforged h)]
  simp only [eraseHistory_keys h]
  rfl

/-- The descriptor loses its key only when its id is that of a leftover. -/
theorem resolveKey_eraseHistory (hk : d.cache.resolveKey uid desc = none) :
    (d.eraseHistory uid).cache.resolveKey uid desc = none := by
  unfold resolveKey at hk ⊢
  obtain ⟨hown, halias⟩ := Option.or_eq_none_iff.1 hk
  rw [Option.or_eq_none_iff]
  refine ⟨?_, halias⟩
  split_ifs at hown ⊢
  · refine Option.eq_none_iff_forall_ne_some.2 fun k hk => ?_
    rw [(eraseHistory_ownKey.1 hk).1] at hown
    cases hown
  · rfl

theorem Spent.updateSubcomponent (h : d.Spent uid)
    (hunforged : ∀ k, k.uid = uid → d.cache.keys.lookup k = none) (cert chain : Option Bytes) :
    (d.preUpdateSubcomponent uid (some desc) cert chain).2.decision =
      ((d.eraseHistory uid).preUpdateSubcomponent uid (some desc) cert chain).2.decision := by
  rw [preUpdateSubcomponent_decision hunforged,
    preUpdateSubcomponent_decision (eraseHistory_unforged hunforged)]
  simp only [eraseHistory_containsKey hunforged]
  show _ = if _ then _ else (d.grantFor uid desc.nspace).bind _
  cases hk : d.cache.resolveKey uid desc with
  | none => rw [resolveKey_eraseHistory hk]
  | some k =>
    cases hk' : (d.eraseHistory uid).cache.resolveKey uid desc with
    | some k' => rfl
    | none =>
      -- the id is that of a leftover, and hides at most a harmless grant
      cases hg : d.grantFor uid desc.nspace with
      | none => rfl
      | some g =>
        obtain ⟨hn, hgrant, hgrantee⟩ := grantFor_eq_some hg
        unfold resolveKey at hk hk'
        obtain ⟨hown', halias⟩ := Option.or_eq_none_iff.1 hk'
        rw [if_pos hn] at hown' hk
        rw [halias, Option.or_none] at hk
        have hhist : d.historical uid k = true := by
          refine (Bool.not_eq_false _).mp fun hnot => ?_
          rw [eraseHistory_ownKey.2 ⟨hk, hnot⟩] at hown'
          cases hown'
        obtain ⟨hallows, hforged⟩ :=
          h.hidden desc.nspace k g hn (ownKey_eq_some.1 hk).1 hhist hgrant hgrantee
        simp [hallows, hforged]

theorem Spent.usageExhausted (h : d.Spent uid)
    (hunforged : ∀ k, k.uid = uid → d.cache.keys.lookup k = none) {owner : Key} {info : Info}
    (hfound : d.cache.findGeneratedOwner uid desc = some (owner, info)) :
    (d.eraseHistory uid).usageExhausted uid desc info = d.usageExhausted uid desc info := by
  rw [findGeneratedOwner_of_unforged hunforged] at hfound
  split_ifs at hfound with hn
  obtain ⟨k, hk, hfound⟩ := Option.bind_eq_some_iff.1 hfound
  obtain ⟨i, hi, heq⟩ := Option.map_eq_some_iff.1 hfound
  obtain ⟨rfl, rfl⟩ := Prod.mk.inj heq
  obtain ⟨g, hgrant, hgrantee, rfl⟩ := grantedKey_eq_some.1 hk
  have hkept {k : Key} (hk : d.historical uid k = false) :
      (d.eraseHistory uid).cache.usageRemaining.lookup k = d.cache.usageRemaining.lookup k :=
    HashMap.lookup_removeIf_of_kept fun _ _ => hk
  unfold Daemon.usageExhausted resolveKey
  rw [if_pos hn, if_pos hn]
  cases hown : d.cache.ownKey uid desc.nspace with
  | some k =>
    cases hhist : d.historical uid k with
    | true =>
      have hforged := (h.hidden desc.nspace k g hn (ownKey_eq_some.1 hown).1 hhist hgrant hgrantee).2
      rw [HashMap.containsKey_eq_false.1 hforged] at hi
      cases hi
    | false =>
      rw [eraseHistory_ownKey.2 ⟨hown, hhist⟩]
      simp only [Option.some_or, hkept hhist]
  | none =>
    have hown' : (d.eraseHistory uid).cache.ownKey uid desc.nspace = none := by
      refine Option.eq_none_iff_forall_ne_some.2 fun k hk => ?_
      rw [(eraseHistory_ownKey.1 hk).1] at hown
      cases hown
    rw [hown', Option.none_or]
    cases desc.keyAlias with
    | none => rfl
    | some a =>
      simp only [Option.map_some]
      cases hhist : d.historical uid ⟨uid, a⟩ with
      | false => rw [hkept hhist]
      | true =>
        have hgone : (d.eraseHistory uid).cache.usageRemaining.lookup ⟨uid, a⟩ = none := by
          refine Option.eq_none_iff_forall_ne_some.2 fun r hr => ?_
          have hkeep := (HashMap.lookup_removeIf_eq_some.1 hr).2
          exact Bool.false_ne_true (hkeep.symm.trans hhist)
        rw [hgone]
        cases hr : d.cache.usageRemaining.lookup ⟨uid, a⟩ with
        | none => rfl
        | some r =>
          by_cases hlimit : 0 < i.params.usageCountLimit
          · have hr := h.counters desc.nspace g i ⟨uid, a⟩ r hn hgrant hgrantee hown hi hlimit hhist hr
            simp only [Option.any_none, Option.any_some, Bool.and_false]
            have hnot : ¬ r ≤ 0 := by omega
            simp [hnot]
          · simp [hlimit]

/-- Leftovers in which no handler finds anything have no influence. -/
theorem Spent.decision (h : d.Spent uid)
    (huntracked : ∀ k, ¬ (d.cache.keys.containsKey k = true ∧ d.passthrough.isTracked k = true))
    {request : Request} (hrequest : request.isKeyRequest = true) :
    (d.pre P env uid request).2.decision =
      ((d.eraseHistory uid).pre P env uid request).2.decision := by
  have hunforged := h.unforged huntracked
  have hunforged' := eraseHistory_unforged hunforged
  show (d.onPreTransact P env uid request).2.decision =
    ((d.eraseHistory uid).onPreTransact P env uid request).2.decision
  cases request with
  | createOperation level kd opParams force =>
    cases kd with
    | none => rfl
    | some desc =>
      exact (preCreateOperation_decision_congr opParams force
        (eraseHistory_findGeneratedOwner hunforged) rfl
        fun owner info hfound => h.usageExhausted hunforged hfound).symm
  | deleteKey kd => exact (preDeleteKey_decision hunforged kd).trans (preDeleteKey_decision hunforged' kd).symm
  | updateSubcomponent kd cert chain =>
    cases kd with
    | none => rfl
    | some desc => exact h.updateSubcomponent hunforged cert chain
  | grant kd granteeUid accessVector =>
    exact (preGrant_decision hunforged kd granteeUid accessVector).trans
      (preGrant_decision hunforged' kd granteeUid accessVector).symm
  | ungrant kd granteeUid =>
    exact (preUngrant_decision hunforged kd granteeUid).trans
      (preUngrant_decision hunforged' kd granteeUid).symm
  | _ => cases hrequest

/-! ## Leftovers that decide something -/

/-- A leftover forged key refuses a forced operation on its alias. -/
theorem historical_unforged (h : d.DecidedAlike P env uid) (hk : d.historical uid k = true) :
    d.cache.keys.containsKey k = false := by
  refine HashMap.containsKey_eq_false.2 (Option.eq_none_iff_forall_ne_some.2 fun i hi => ?_)
  obtain ⟨rfl, -⟩ := historical_eq_true.1 hk
  have hsame := h (.createOperation .trustedEnvironment (some { keyAlias := some k.keyAlias }) [] true)
    rfl
  have hgone : (d.eraseHistory k.uid).cache.keys.lookup k = none := by
    refine Option.eq_none_iff_forall_ne_some.2 fun i' hi' => ?_
    have hkeep := (HashMap.lookup_removeIf_eq_some.1 hi').2
    exact Bool.false_ne_true (hkeep.symm.trans hk)
  have hfound : d.cache.findGeneratedOwner k.uid { keyAlias := some k.keyAlias } = some (k, i) := by
    simp [findGeneratedOwner, resolveOwnerKeys, hi]
  have hlost : (d.eraseHistory k.uid).cache.findGeneratedOwner k.uid
      { keyAlias := some k.keyAlias } = none := by
    simp [findGeneratedOwner, resolveOwnerKeys, hgone]
  simp only [pre, onPreTransact, preCreateOperation, hfound, hlost, if_true] at hsame
  cases hsame

/-- An id that hides a grant decides an `updateSubcomponent` that the grant would decide. -/
theorem hidden_harmless (h : d.DecidedAlike P env uid)
    (hunforged : ∀ k, k.uid = uid → d.cache.keys.lookup k = none) {n : Int} {g : GrantInfo} (hn : n ≠ 0)
    (hk : d.cache.keysByNspace.lookup n = some k) (hhist : d.historical uid k = true)
    (hgrant : d.cache.grants.lookup n = some g) (hgrantee : g.granteeUid = uid) :
    g.allows KeyPermission.UPDATE = true ∧ d.cache.keys.containsKey g.key = false := by
  have hsame := h (.updateSubcomponent (some { nspace := n }) none none) rfl
  have hown : d.cache.ownKey uid n = some k := ownKey_eq_some.2 ⟨hk, (historical_eq_true.1 hhist).1⟩
  have hown' : (d.eraseHistory uid).cache.ownKey uid n = none := by
    refine Option.eq_none_iff_forall_ne_some.2 fun k' hk' => ?_
    obtain ⟨hk', hnot⟩ := eraseHistory_ownKey.1 hk'
    rw [hown] at hk'
    rw [← Option.some.inj hk', hhist] at hnot
    cases hnot
  have hresolve : d.cache.resolveKey uid { nspace := n } = some k := by simp [resolveKey, hn, hown]
  have hresolve' : (d.eraseHistory uid).cache.resolveKey uid { nspace := n } = none := by
    simp [resolveKey, hown']
  have hfor : (d.eraseHistory uid).grantFor uid n = some g := by
    show (if n ≠ 0 then (d.cache.grants.lookup n).filter _ else none) = some g
    simp [hn, hgrant, hgrantee]
  change (d.preUpdateSubcomponent uid (some { nspace := n }) none none).2.decision =
    ((d.eraseHistory uid).preUpdateSubcomponent uid (some { nspace := n }) none none).2.decision at hsame
  rw [preUpdateSubcomponent_decision hunforged,
    preUpdateSubcomponent_decision (eraseHistory_unforged hunforged), hresolve, hresolve', hfor,
    Option.bind_some, eraseHistory_containsKey hunforged] at hsame
  by_cases hallows : g.allows KeyPermission.UPDATE = true
  · refine ⟨hallows, (Bool.not_eq_true _).mp fun hforged => ?_⟩
    simp [hallows, hforged, Result.successReply, Result.decision] at hsame
  · simp [hallows] at hsame

/-- An exhausted counter of a leftover refuses an operation on a granted key with a limit. -/
theorem counter_harmless (h : d.DecidedAlike P env uid)
    (hunforged : ∀ k, k.uid = uid → d.cache.keys.lookup k = none) {n : Int} {g : GrantInfo} {i : Info}
    {remaining : Int} (hn : n ≠ 0) (hgrant : d.cache.grants.lookup n = some g)
    (hgrantee : g.granteeUid = uid) (hown : d.cache.ownKey uid n = none)
    (hi : d.cache.keys.lookup g.key = some i) (hlimit : 0 < i.params.usageCountLimit)
    (hk : d.historical uid k = true) (hr : d.cache.usageRemaining.lookup k = some remaining) :
    0 < remaining := by
  by_contra hexhausted
  obtain ⟨rfl, -⟩ := historical_eq_true.1 hk
  let desc : KeyDescriptor := { nspace := n, keyAlias := some k.keyAlias }
  have hsame := h (.createOperation .trustedEnvironment (some desc) [] false) rfl
  have hfound : d.cache.findGeneratedOwner k.uid desc = some (g.key, i) := by
    rw [findGeneratedOwner_of_unforged hunforged, if_pos hn,
      grantedKey_eq_some.2 ⟨g, hgrant, hgrantee, rfl⟩, Option.bind_some, hi]
    rfl
  have hgone : (d.eraseHistory k.uid).cache.usageRemaining.lookup k = none := by
    refine Option.eq_none_iff_forall_ne_some.2 fun r hr' => ?_
    have hkeep := (HashMap.lookup_removeIf_eq_some.1 hr').2
    exact Bool.false_ne_true (hkeep.symm.trans hk)
  have hown' : (d.eraseHistory k.uid).cache.ownKey k.uid n = none := by
    refine Option.eq_none_iff_forall_ne_some.2 fun k' hk' => ?_
    rw [(eraseHistory_ownKey.1 hk').1] at hown
    cases hown
  have husage : d.usageExhausted k.uid desc i = true := by
    have hle : remaining ≤ 0 := by omega
    simp [usageExhausted, resolveKey, desc, hn, hown, hr, hlimit, hle]
  have husage' : (d.eraseHistory k.uid).usageExhausted k.uid desc i = false := by
    simp [usageExhausted, resolveKey, desc, hn, hown', hgone]
  have hfound' : (d.eraseHistory k.uid).cache.findGeneratedOwner k.uid desc = some (g.key, i) :=
    (eraseHistory_findGeneratedOwner hunforged).trans hfound
  simp only [pre, onPreTransact, preCreateOperation, hfound, hfound', husage, husage', if_true,
    Bool.false_eq_true, if_false] at hsame
  repeat' split at hsame
  all_goals simp [Result.decision, Result.errorReply] at hsame

end Daemon

/-- After every run, the leftovers of plain AUTO uids have no influence exactly if no handler could find
any of them. -/
theorem historyIgnored_iff_spent (P : Platform) (es : List Event) (env : Env)
    (h : Machine.AllSteps (World.next P) World.Observed {} es) :
    (World.run P {} es).daemon.HistoryIgnored P env ↔
      ∀ uid, (World.run P {} es).daemon.config.isPlainAuto uid = true →
        (World.run P {} es).daemon.Spent uid := by
  have huntracked := World.run_forgedUntracked P es h
  constructor
  · intro hignored uid hauto
    have hsame := hignored uid hauto
    have hunforged (k : Key) := Daemon.historical_unforged (k := k) hsame
    have hnone (k : Key) (hk : k.uid = uid) :
        (World.run P {} es).daemon.cache.keys.lookup k = none := by
      rw [← HashMap.containsKey_eq_false]
      cases htracked : (World.run P {} es).daemon.passthrough.isTracked k with
      | false => exact hunforged k (Daemon.historical_eq_true.2 ⟨hk, htracked⟩)
      | true => exact (Bool.not_eq_true _).mp fun hforged => huntracked k ⟨hforged, htracked⟩
    exact ⟨hunforged, fun n k g hn hk hhist hgrant hgrantee =>
        Daemon.hidden_harmless hsame hnone hn hk hhist hgrant hgrantee,
      fun n g i k r hn hgrant hgrantee hown hi hlimit hhist hr =>
        Daemon.counter_harmless hsame hnone hn hgrant hgrantee hown hi hlimit hhist hr⟩
  · intro hspent uid hauto request hrequest
    exact (hspent uid hauto).decision huntracked hrequest

namespace Demo

/-- A real key of the owner is signed again in `?` mode, and the owner is put into AUTO mode. -/
def resignedBefore : List Event :=
  start .LEAF_HACK .AUTO ++ [.arrive 1 owner (generate ecParams) (env 5),
    .complete 1 0 (some (created 9 (some [3]))) (env 6), .targetChanged (modes .AUTO .AUTO)]

/-- The owner forges a key in `!` mode and is put into AUTO mode. -/
def modeWithdrawn : List Event :=
  start .GENERATE .AUTO ++ [.arrive 1 owner (generate ecParams) (env 5),
    .targetChanged (modes .AUTO .AUTO)]

def signByAlias : Request :=
  .createOperation .trustedEnvironment (some byAlias) [⟨Tag.PURPOSE, .keyPurpose KeyPurpose.SIGN⟩] false

end Demo

open Demo in
theorem historyIgnored_resignedBefore :
    (World.run platform {} resignedBefore).daemon.cache.patchedResponses.containsKey key = true ∧
      (World.run platform {} resignedBefore).daemon.HistoryIgnored platform (env 7) := by
  refine ⟨by decide, (historyIgnored_iff_spent platform resignedBefore (env 7)
    (Machine.allSteps_cons trivial (Machine.allSteps_cons trivial (Machine.allSteps_cons trivial
      (Machine.allSteps_cons rfl Machine.allSteps_nil))))).2 ?_⟩
  exact fun _ _ => ⟨fun _ _ => rfl, fun _ _ _ _ _ _ hgrant => (by cases hgrant),
    fun _ _ _ _ _ _ hgrant => (by cases hgrant)⟩

open Demo in
/-- In AUTO mode the owner still gets a local operation on the key that it forged in `!` mode. -/
theorem withdrawn_mode_still_signs :
    ¬ ∀ P es env, Machine.AllSteps (World.next P) World.Observed {} es →
      (World.run P {} es).daemon.HistoryIgnored P env := by
  intro h
  have hsame := h platform modeWithdrawn (env 7)
    (Machine.allSteps_cons trivial (Machine.allSteps_cons trivial (Machine.allSteps_cons rfl
      Machine.allSteps_nil))) owner (by decide) signByAlias rfl
  exact absurd hsame (by decide)

end TrickyStore
