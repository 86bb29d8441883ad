import TrickyStore.Proof.OperationParameters
import TrickyStore.Proof.Sequential

/-!
# Requests about a forged key

The real keystore does not know a forged key, so a request that names one has to be answered by the
hooks.  Each handler tests on its own whether a key is forged, and the tests differ: `deleteKey` looks
at the alias and at `skipLeafHacks`, the others resolve the descriptor, and `createOperation` falls
through when the engine cannot be set up.
-/

open Lib

namespace TrickyStore

def Result.isOverride : Result → Bool
  | .OverrideReply .. => true
  | _ => false

/-- The five requests that a client makes about a key it has. -/
def Request.isKeyRequest : Request → Bool
  | .createOperation .. | .updateSubcomponent .. | .grant .. | .ungrant .. | .deleteKey .. => true
  | _ => false

namespace Daemon

variable (P : Platform) (env : Env) (uid : Int) (d : Daemon)

/-- The descriptor names the caller's key `k`: by its alias, or by its id and no alias. -/
def Names (k : Key) (desc : KeyDescriptor) : Prop :=
  k.uid = uid ∧ (desc.keyAlias = some k.keyAlias ∨
    desc.keyAlias = none ∧ desc.nspace ≠ 0 ∧ d.cache.keysByNspace.lookup desc.nspace = some k)

/-- The checks of `createOperation` refuse the request, or there is an engine for the algorithm of the key
and the purpose of the request, and the crypto provider sets it up. -/
def OperationHandled (desc : KeyDescriptor) (opParams : List KeyParameter) (force : Bool)
    (info : Info) : Prop :=
  force = true ∨ d.usageExhausted uid desc info = true ∨
    authorizeOperation info.params (OpRequest.parse opParams) env.currentTimeMillis ≠ none ∨
      ∃ engine, Built info (OpRequest.parse opParams) engine ∧ P.jca.init engine = none

/-- What the handler of a request needs to answer it: `deleteKey` an alias whose key is not in
`skipLeafHacks`, `createOperation` an engine or a reason to refuse, the others a descriptor that
resolves to a forged key. -/
def HandledLocally : Request → Prop
  | .deleteKey kd => ∃ a, kd.bind KeyDescriptor.keyAlias = some a ∧
      d.cache.skipLeafHacks.containsKey ⟨uid, a⟩ = false
  | .createOperation _ kd opParams force => ∀ desc owner info, kd = some desc →
      d.cache.findGeneratedOwner uid desc = some (owner, info) →
        d.OperationHandled P env uid desc opParams force info
  | .updateSubcomponent kd _ _ | .grant kd _ _ | .ungrant kd _ =>
    ∃ k, kd.bind (d.cache.resolveKey uid) = some k ∧ d.cache.keys.containsKey k = true
  | _ => False

variable {P env uid d} {k : Key} {desc : KeyDescriptor}

theorem Names.mem_resolveOwnerKeys (h : d.Names uid k desc) :
    k ∈ d.cache.resolveOwnerKeys uid desc := by
  obtain ⟨rfl, ha | ⟨-, hn, hk⟩⟩ := h
  · exact CertificateAliasCache.mem_resolveOwnerKeys.2 (.inr ⟨k.keyAlias, ha, rfl⟩)
  · exact CertificateAliasCache.mem_resolveOwnerKeys.2
      (.inl ⟨hn, .inl (CertificateAliasCache.ownKey_eq_some.2 ⟨hk, rfl⟩)⟩)

/-- A named forged key is found; perhaps not this one, if the id of the descriptor names another. -/
theorem Names.findGeneratedOwner (h : d.Names uid k desc) (hk : d.cache.keys.containsKey k = true) :
    ∃ owner info, d.cache.findGeneratedOwner uid desc = some (owner, info) := by
  obtain ⟨i, hi⟩ := HashMap.containsKey_eq_true.1 hk
  cases hfound : d.cache.findGeneratedOwner uid desc with
  | some found => exact ⟨found.1, found.2, rfl⟩
  | none =>
    have hnone := List.findSome?_eq_none_iff.1 hfound k h.mem_resolveOwnerKeys
    simp [hi] at hnone

theorem preDeleteKey_isOverride_iff (hnames : d.Names uid k desc)
    (hk : d.cache.keys.containsKey k = true) :
    (d.preDeleteKey uid (some desc)).2.isOverride = true ↔
      ∃ a, desc.keyAlias = some a ∧ d.cache.skipLeafHacks.containsKey ⟨uid, a⟩ = false := by
  obtain ⟨rfl, ha | ⟨ha, -⟩⟩ := hnames
  · simp only [preDeleteKey, Option.bind_some, ha, hk, Option.some.injEq, exists_eq_left', Bool.true_and]
    cases d.cache.skipLeafHacks.containsKey ⟨k.uid, k.keyAlias⟩ <;> simp [Result.isOverride, Result.successReply]
  · simp [preDeleteKey, ha, Result.isOverride]

theorem Names.resolveKey (h : d.Names uid k desc) :
    ∃ k', d.cache.resolveKey uid desc = some k' := by
  unfold CertificateAliasCache.resolveKey
  obtain ⟨rfl, ha | ⟨-, hn, hk⟩⟩ := h
  · rw [ha]
    cases if desc.nspace ≠ 0 then d.cache.ownKey k.uid desc.nspace else none with
    | none => exact ⟨_, rfl⟩
    | some k' => exact ⟨k', rfl⟩
  · rw [if_pos hn, CertificateAliasCache.ownKey_eq_some.2 ⟨hk, rfl⟩]
    exact ⟨k, rfl⟩

/-- The handlers that resolve the descriptor answer exactly for a forged key. -/
theorem preUpdateSubcomponent_isOverride_iff {cert chain : Option Bytes} {k' : Key}
    (hk' : d.cache.resolveKey uid desc = some k') :
    (d.preUpdateSubcomponent uid (some desc) cert chain).2.isOverride = true ↔
      d.cache.keys.containsKey k' = true := by
  have htarget : d.updateTarget uid desc = some (some k') := by rw [updateTarget, hk']
  simp only [preUpdateSubcomponent, htarget]
  split_ifs with hk
  · exact ⟨fun _ => hk, fun _ => rfl⟩
  · exact ⟨fun h => (by cases h), fun h => absurd h hk⟩

theorem preGrant_isOverride_iff {granteeUid : Int} {accessVector : BitVec 32} {k' : Key}
    (hkeyboxes : d.hasKeyboxes = true) (hk' : d.cache.resolveKey uid desc = some k') :
    (d.preGrant env uid (some desc) granteeUid accessVector).2.isOverride = true ↔
      d.cache.keys.containsKey k' = true := by
  simp only [preGrant, hkeyboxes, if_true, Option.bind_some, hk']
  split_ifs with hk
  · exact ⟨fun _ => hk, fun _ => rfl⟩
  · exact ⟨fun h => (by cases h), fun h => absurd h hk⟩
  · exact ⟨fun h => (by cases h), fun h => absurd h hk⟩

theorem preUngrant_isOverride_iff {granteeUid : Int} {k' : Key}
    (hk' : d.cache.resolveKey uid desc = some k') :
    (d.preUngrant uid (some desc) granteeUid).2.isOverride = true ↔
      d.cache.keys.containsKey k' = true := by
  simp only [preUngrant, Option.bind_some, hk']
  split_ifs with hk
  · exact ⟨fun _ => hk, fun _ => rfl⟩
  · exact ⟨fun h => (by cases h), fun h => absurd h hk⟩

theorem preCreateOperation_isOverride_iff {opParams : List KeyParameter} {force : Bool} {owner : Key}
    {info : Info} (hfound : d.cache.findGeneratedOwner uid desc = some (owner, info)) :
    (d.preCreateOperation P env uid (some desc) opParams force).2.isOverride = true ↔
      d.OperationHandled P env uid desc opParams force info := by
  simp only [preCreateOperation, hfound, OperationHandled]
  split_ifs with hforce hexhausted
  · exact ⟨fun _ => .inl hforce, fun _ => rfl⟩
  · exact ⟨fun _ => .inr (.inl hexhausted), fun _ => rfl⟩
  · cases hauth : authorizeOperation info.params (OpRequest.parse opParams)
        env.currentTimeMillis with
    | some errCode => exact ⟨fun _ => .inr (.inr (.inl (by simp))), fun _ => rfl⟩
    | none =>
      simp only [hforce, hexhausted, ne_eq, not_true_eq_false, false_or, Bool.false_eq_true]
      simp only [← selectEngine_iff_built (authorized_of_none hauth)]
      unfold SoftwareOperationBinder.create
      cases hselect : SoftwareOperationBinder.selectEngine info (OpRequest.parse opParams) with
      | error t => simp [bind, Except.bind, Result.isOverride]
      | ok engine =>
        cases hinit : P.jca.init engine with
        | none => simp [bind, Except.bind, hinit, Result.isOverride]
        | some t => simp [bind, Except.bind, hinit, Result.isOverride]

/-- An operation that the checks let through has no engine for a purpose outside `enginePurposes`, though
the key may allow it. -/
theorem not_operationHandled {opParams : List KeyParameter} {info : Info}
    (husage : d.usageExhausted uid desc info = false)
    (hauth : authorizeOperation info.params (OpRequest.parse opParams) env.currentTimeMillis = none)
    (hpurpose : (OpRequest.parse opParams).purpose ∉ enginePurposes info.params.algorithm) :
    ¬ d.OperationHandled P env uid desc opParams false info := by
  rintro (hforce | hexhausted | hrefused | ⟨engine, hbuilt, -⟩)
  · cases hforce
  · rw [husage] at hexhausted
    cases hexhausted
  · exact hrefused hauth
  · exact hpurpose hbuilt.purpose_mem

end Daemon

/-- A request about a forged key is answered by its pre-hook exactly if its handler has what it
needs. -/
theorem Daemon.key_request_answered_iff (P : Platform) (env : Env) (uid : Int) (d : Daemon) (k : Key)
    (desc : KeyDescriptor) (request : Request) (hkeyboxes : d.hasKeyboxes = true)
    (hk : d.cache.keys.containsKey k = true) (hnames : d.Names uid k desc)
    (hdesc : request.keyDescriptor = some desc) (hrequest : request.isKeyRequest = true) :
    (d.pre P env uid request).2.isOverride = true ↔ d.HandledLocally P env uid request := by
  obtain ⟨k', hk'⟩ := hnames.resolveKey
  show (d.onPreTransact P env uid request).2.isOverride = true ↔ _
  have hresolved : (∃ k, (some desc).bind (d.cache.resolveKey uid) = some k ∧
      d.cache.keys.containsKey k = true) ↔ d.cache.keys.containsKey k' = true := by
    simp only [Option.bind_some, hk', Option.some.injEq, exists_eq_left']
  cases request with
  | deleteKey kd =>
    obtain rfl : kd = some desc := hdesc
    exact preDeleteKey_isOverride_iff hnames hk
  | updateSubcomponent kd cert chain =>
    obtain rfl : kd = some desc := hdesc
    exact (preUpdateSubcomponent_isOverride_iff hk').trans hresolved.symm
  | grant kd granteeUid accessVector =>
    obtain rfl : kd = some desc := hdesc
    exact (preGrant_isOverride_iff hkeyboxes hk').trans hresolved.symm
  | ungrant kd granteeUid =>
    obtain rfl : kd = some desc := hdesc
    exact (preUngrant_isOverride_iff hk').trans hresolved.symm
  | createOperation level kd opParams force =>
    obtain rfl : kd = some desc := hdesc
    obtain ⟨owner, info, hfound⟩ := hnames.findGeneratedOwner hk
    refine (preCreateOperation_isOverride_iff hfound).trans ⟨fun h desc' owner' info' hd hf => ?_,
      fun h => h desc owner info rfl hfound⟩
    obtain rfl := Option.some.inj hd
    obtain ⟨-, rfl⟩ := Prod.mk.inj (Option.some.inj (hfound.symm.trans hf))
    exact h
  | _ => cases hrequest

namespace Demo

/-- The owner has forged a key with the id 5. -/
def withForgedKey (params : List KeyParameter) : Daemon :=
  (World.run platform {} (start .GENERATE .AUTO ++ [.arrive 1 owner (generate params) (env 5)])).daemon

/-- An EC key that is allowed to decrypt. -/
def decryptingParams : List KeyParameter := ⟨Tag.PURPOSE, .keyPurpose KeyPurpose.DECRYPT⟩ :: ecParams

def operation (purpose : Int) : Request :=
  .createOperation .trustedEnvironment (some byAlias) [⟨Tag.PURPOSE, .keyPurpose purpose⟩] false

end Demo

open Demo in
/-- The key signs; to decrypt with it, the request goes to the real keystore. -/
theorem Daemon.operation_answered_by_purpose :
    ((withForgedKey decryptingParams).pre platform (env 7) owner (operation KeyPurpose.SIGN)).2.isOverride = true ∧
      ((withForgedKey decryptingParams).pre platform (env 7) owner
        (operation KeyPurpose.DECRYPT)).2.isOverride = false := by
  have hiff (purpose : Int) := key_request_answered_iff platform (env 7) owner (withForgedKey decryptingParams) key
    byAlias (operation purpose) (by decide) (by decide) ⟨rfl, .inl rfl⟩ rfl rfl
  obtain ⟨info, hfound, hparams, hpair⟩ : ∃ info,
      (withForgedKey decryptingParams).cache.findGeneratedOwner owner byAlias = some (key, info) ∧
        info.params = KeyGenParameters.ofParams platform.x500Name decryptingParams ∧
        info.keyPair = some ⟨[1], [2]⟩ := ⟨_, rfl, rfl, rfl⟩
  constructor
  · refine (hiff KeyPurpose.SIGN).2 fun desc owner' info' hdesc hfound' => ?_
    obtain rfl := Option.some.inj hdesc
    obtain ⟨-, rfl⟩ := Prod.mk.inj (Option.some.inj (hfound.symm.trans hfound'))
    exact .inr (.inr (.inr ⟨_, .ecdsa _ (by rw [hparams]; decide) (by decide) hpair, rfl⟩))
  · refine Bool.eq_false_iff.2 fun h => ?_
    refine not_operationHandled ?_ ?_ ?_ ((hiff KeyPurpose.DECRYPT).1 h byAlias key info rfl hfound)
    · rw [usageExhausted, hparams]
      decide
    · rw [hparams]
      decide
    · rw [hparams]
      decide

open Demo in
/-- `deleteKey` by the key's id goes to the real keystore. -/
theorem Daemon.deleteKey_by_id_forwarded :
    ¬ ∀ P history env uid k desc request, let d := (World.run P {} history).daemon
      d.hasKeyboxes = true → d.config.isPlainAuto uid = false →
        d.cache.keys.containsKey k = true → d.passthrough.isTracked k = false →
          d.Names uid k desc → request.keyDescriptor = some desc → request.isKeyRequest = true →
            (d.pre P env uid request).2.isOverride = true := by
  intro h
  have hoverride := h platform
    (start .GENERATE .AUTO ++ [.arrive 1 owner (generate ecParams) (env 5)]) (env 7) owner key
    (byId 5) (.deleteKey (some (byId 5))) (by decide) (by decide) (by decide) (by decide)
    ⟨rfl, .inr ⟨rfl, by decide, by decide⟩⟩ rfl rfl
  cases hoverride

end TrickyStore
