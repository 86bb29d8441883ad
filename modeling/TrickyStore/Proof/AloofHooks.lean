import TrickyStore.Proof.DiskAgreement
import TrickyStore.Proof.PassthroughTracking
import TrickyStore.Proof.SameOwners

/-!
# What a hook needs to leave a request alone

For the hooks of the seven requests on a key: the exact condition under which the hook answers nothing
and changes no owner.  Each of them asks what the daemon has under the alias or the id of the
descriptor; none asks for its domain.
-/

open Lib

namespace TrickyStore

open CertificateAliasCache

/-- The id of the grant in a reply to `grant`. -/
def Parcel.grantId (p : Parcel) : Option Int :=
  (p.readException.bind fun body => body.readTypedObject keyDescriptorCreator).bind
    fun r => r.1.map KeyDescriptor.nspace

/-- The entry in a reply that begins with two headers. -/
def Parcel.entryBehindTwoHeaders (p : Parcel) : Option KeyEntryResponse :=
  ((p.readException.bind readException).bind (readTypedObject keyEntryResponseCreator)).bind Prod.fst

namespace Daemon

variable (P : Platform) (env : Env) (uid : Int) (desc : KeyDescriptor) (d : Daemon)

/-- Nothing is known about the key. -/
def Lacks (k : Key) : Prop := d.cache.Lacks k ∧ d.passthrough.Lacks k

/-! ## What a handler needs to do nothing -/

/-- `createOperation`: no forged key is found, or the operation cannot be made. -/
def NoOperation (opParams : List KeyParameter) (force : Bool) : Prop :=
  ∀ owner info, d.cache.findGeneratedOwner uid desc = some (owner, info) →
    ¬ d.OperationHandled P env uid desc opParams force info

/-- `updateSubcomponent`: it is not refused, and invalidates keys that nothing is known about. -/
def NoUpdate (resultCode : Int) (reply : Option Parcel) : Prop :=
  d.updateTarget uid desc ≠ none ∧
    (∀ k, d.updateTarget uid desc = some (some k) →
      d.cache.keys.lookup k = none ∧ d.cache.Lacks ⟨uid, k.keyAlias⟩) ∧
    ∀ a, resultCode = 0 → reply.isSome = true → d.invalidatedAfter uid desc = some a → d.Lacks ⟨uid, a⟩

/-- `grant`: the key is not forged, and a grant that is recorded has been there before. -/
def NoGrant (granteeUid : Int) (accessVector : BitVec 32) (resultCode : Int) (reply : Option Parcel) :
    Prop :=
  d.hasKeyboxes = true → ∀ k, d.cache.resolveKey uid desc = some k →
    d.cache.keys.lookup k = none ∧ ∀ n, d.cache.isPatchedKey k = true → resultCode = 0 →
      reply.bind Parcel.grantId = some n →
        d.cache.grants.lookup n = some ⟨uid, granteeUid, k, accessVector⟩

/-- `ungrant`: the key is not forged and not granted to the grantee. -/
def NoUngrant (granteeUid : Int) : Prop :=
  ∀ k, d.cache.resolveKey uid desc = some k → d.cache.keys.lookup k = none ∧
    ∀ n g, d.cache.grants.lookup n = some g → g.key = k → g.granteeUid ≠ granteeUid

/-- `getKeyEntry` in the mode of the caller: what it would serve or reject is not there. -/
def NoEntryByMode : Prop :=
  if d.needGenerate env uid then
    d.isPassthroughDescriptor uid desc = true ∨ d.cachedOwner uid desc = none
  else if d.needHack env uid then
    d.isPassthroughDescriptor uid desc = true ∨
      if (d.checked env uid).config.isPlainAuto uid then
        ∀ a, desc.keyAlias = some a → d.cachedOwner uid desc ≠ none → d.cache.Lacks ⟨uid, a⟩
      else if d.cache.shouldSkipLeafHackFor uid desc then d.cache.findGeneratedOwner uid desc = none
      else d.cache.resolvePatchedOwner uid desc = none
  else d.cachedOwner uid desc = none

/-- `getKeyEntry`, before the real keystore is asked: a grant has nothing to serve either. -/
def NoEntryBefore : Prop :=
  d.hasKeyboxes = true →
    (∀ g, d.grantFor uid desc.nspace = some g → g.allows KeyPermission.GET_INFO = true ∧
      (d.config.isPlainAuto uid = true ∨ d.cache.cachedResponse g.key = none)) ∧
    d.NoEntryByMode env uid desc

/-- `getKeyEntry`, on the reply `p`: nothing is cached to be served in its place, and in `?` mode there is
no entry to be re-signed. -/
def NoEntryAfter (p : Parcel) : Prop :=
  d.hasKeyboxes = true → p.readException.isSome = true → d.needGenerate env uid = false →
    d.needHack env uid = true → d.isPassthroughDescriptor uid desc = false →
    (d.checked env uid).config.isPlainAuto uid = false →
      (∀ k, d.cache.resolveKey uid desc = some k → d.cache.patchedResponses.lookup k = none) ∧
      d.cache.findGeneratedOwner uid desc = none ∧
      ((d.checked env uid).config.isExplicitLeafHack uid = true →
        ∀ r, p.entryBehindTwoHeaders = some r → getCertificateChain P r = none)

/-- `generateKey` on the route: nothing is forged, and what the route drops is not there. -/
def RouteAloof (level : SecurityLevel) (ak : Option KeyDescriptor) (kgp : KeyGenParameters) (k : Key) :
    Route → Prop
  | .generate => d.generateKeyPair P env uid ak kgp level.toInt = none
  | .passthroughRealTee => d.cache.Lacks k
  | .forwardSymmetric | .forwardPlainAsymmetric => True
  | _ => d.cache.skipLeafHacks.lookup k = none

/-- The key is tracked under the id, and nothing else is known of it. -/
def Promoted (k : Key) (n : Option Int) : Prop :=
  d.cache.KnowsOnly k n ∧ d.passthrough.isTracked k = true ∧
    ∀ m, n = some m → m ≠ 0 → d.passthrough.byNspace.lookup m = some k

/-- `generateKey`, before the real keystore is asked. -/
def NoGenerateBefore (level : SecurityLevel) (ak : Option KeyDescriptor)
    (params : Option (List KeyParameter)) : Prop :=
  ∀ a ps r, desc.keyAlias = some a → params = some ps →
    d.generateKeyRoute P env uid (some desc) ak params = some r →
      d.RouteAloof P env uid level ak (KeyGenParameters.ofParams P.x500Name ps) ⟨uid, a⟩ r

/-- `generateKey`, on the reply `p`: a key on the passthrough route, or marked as one, has been promoted
before; otherwise there is no certificate to be re-signed. -/
def NoGenerateAfter (level : SecurityLevel) (ak : Option KeyDescriptor)
    (params : Option (List KeyParameter)) (p : Parcel) : Prop :=
  ∀ a r m, desc.keyAlias = some a → d.generateKeyRoute P env uid (some desc) ak params = some r →
    r ≠ .generate → p.keyMetadata = some m →
      if r = .passthroughRealTee ∨ d.treatsAsPassthrough level ⟨uid, a⟩ = true then
        d.Promoted ⟨uid, a⟩ ((m.bind KeyMetadata.key).map KeyDescriptor.nspace)
      else p.leafCertificate P = none

end Daemon

/-- A targeted uid keeps its mode, whatever the package manager says later. -/
theorem PkgConfig.resolved_needs {c : PkgConfig} {uid : Int} {pm pm' : PackageManager} {tee : TeeState}
    (h : c.needHack pm uid = true) : (c.checked pm tee uid).needHack pm' uid = true ∧
      (c.checked pm tee uid).needGenerate pm' uid = c.needGenerate pm uid := by
  cases hps : c.packages pm uid with
  | none => simp [PkgConfig.needHack, PkgConfig.checkNeed, hps] at h
  | some ps =>
    have hresolved : (c.checked pm tee uid).packages pm' uid = some ps := by
      rw [PkgConfig.packages, PkgConfig.checked_lookup, if_pos rfl, hps]
      rfl
    simp only [PkgConfig.needHack, PkgConfig.needGenerate, PkgConfig.checkNeed, hps, hresolved,
      PkgConfig.checked_packageModes, TeeProbeClassifier.autoLeafHackAllowed,
      TeeProbeClassifier.autoGenerateAllowed] at h ⊢
    exact ⟨h, trivial⟩

namespace Daemon

variable {P : Platform} {env : Env} {uid : Int} {desc : KeyDescriptor} {d d' : Daemon} {k : Key}

/-- The caches of a daemon on which nothing differs know the same. -/
theorem OwnersSame.lacks_iff (h : d.OwnersSame d') : d'.Lacks k ↔ d.Lacks k :=
  and_congr h.cache.knowsOnly_iff h.passthrough.lacks_iff

/-! ## deleteKey -/

theorem preDeleteKey_aloof_iff : d.Aloof (d.preDeleteKey uid (some desc)) ↔
    ∀ a, desc.keyAlias = some a → d.Lacks ⟨uid, a⟩ := by
  unfold preDeleteKey
  cases ha : desc.keyAlias with
  | none =>
    simp only [Option.bind_some, ha, reduceCtorEq, false_implies, implies_true, iff_true]
    exact ⟨rfl, .of_owners rfl rfl⟩
  | some a =>
    simp only [Option.bind_some, ha, Option.some.injEq, forall_eq', Aloof]
    rw [ownersSame_cleanup_iff (k := ⟨uid, a⟩) rfl rfl]
    refine ⟨fun h => h.2, fun h => ⟨?_, h⟩⟩
    simp [HashMap.containsKey, h.1.keys, Result.isOverride]

theorem postDeleteKey_aloof {resultCode : Int} (h : ∀ a, desc.keyAlias = some a → d.Lacks ⟨uid, a⟩) :
    d.Aloof (d.postDeleteKey uid (some desc) resultCode) := by
  unfold postDeleteKey
  cases ha : desc.keyAlias with
  | none =>
    simp only [Option.bind_some, ha]
    exact ⟨rfl, .of_owners rfl rfl⟩
  | some a =>
    simp only [Option.bind_some, ha]
    split_ifs
    · exact ⟨rfl, (ownersSame_cleanup_iff rfl rfl).2 (h a ha)⟩
    · exact ⟨rfl, .of_owners rfl rfl⟩

/-! ## ungrant -/

theorem preUngrant_aloof_iff {granteeUid : Int} :
    d.Aloof (d.preUngrant uid (some desc) granteeUid) ↔ d.NoUngrant uid desc granteeUid := by
  unfold preUngrant NoUngrant
  cases hk : d.cache.resolveKey uid desc with
  | none =>
    simp only [Option.bind_some, hk, reduceCtorEq, false_implies, implies_true, iff_true]
    exact ⟨rfl, .of_owners rfl rfl⟩
  | some k =>
    simp only [Option.bind_some, hk, Option.some.injEq, forall_eq', Aloof]
    have hforged : (if d.cache.keys.containsKey k = true then Result.successReply
        else .Skip).isOverride = false ↔ d.cache.keys.lookup k = none := by
      rw [← HashMap.containsKey_eq_false]
      cases d.cache.keys.containsKey k <;> simp [Result.isOverride, Result.successReply]
    rw [hforged]
    refine and_congr_right fun _ => ⟨fun h n g hg hkey hgrantee => ?_, fun h => ?_⟩
    · have hsame := h.cache.grants n
      rw [hg] at hsame
      have hkept := (HashMap.lookup_removeIf_eq_some.1 hsame).2
      simp [hkey, hgrantee] at hkept
    · refine ⟨⟨fun _ => rfl, fun _ => rfl, fun _ => rfl, fun _ => rfl, fun _ => rfl, fun n => ?_,
        fun _ => rfl⟩, .refl⟩
      refine HashMap.lookup_removeIf_of_kept fun g hg => ?_
      by_cases hkey : g.key = k
      · simp [hkey, h n g hg hkey]
      · simp [hkey]

theorem preUngrant_ne_continue {kd : Option KeyDescriptor} {granteeUid : Int} :
    (d.preUngrant uid kd granteeUid).2 ≠ .Continue := by
  unfold preUngrant
  split
  · simp
  · dsimp only
    split <;> simp [Result.successReply]

/-! ## createOperation -/

theorem preCreateOperation_aloof_iff {opParams : List KeyParameter} {force : Bool} :
    d.Aloof (d.preCreateOperation P env uid (some desc) opParams force) ↔
      d.NoOperation P env uid desc opParams force := by
  have hsame : d.OwnersSame (d.preCreateOperation P env uid (some desc) opParams force).1 := by
    rcases preCreateOperation_fst P env uid d (some desc) opParams force with h | ⟨op, h⟩ <;> rw [h]
    · exact .of_owners rfl rfl
    · exact .of_owners rfl rfl
  unfold Aloof NoOperation
  cases hfound : d.cache.findGeneratedOwner uid desc with
  | none => simp [preCreateOperation, hfound, Result.isOverride, OwnersSame.of_owners]
  | some found =>
    obtain ⟨owner, info⟩ := found
    rw [← Bool.not_eq_true, preCreateOperation_isOverride_iff hfound]
    refine ⟨fun h owner' info' heq => ?_, fun h => ⟨h owner info rfl, hsame⟩⟩
    obtain ⟨rfl, rfl⟩ := Prod.mk.inj (Option.some.inj heq)
    exact h.1

theorem preCreateOperation_ne_continue {kd : Option KeyDescriptor} {opParams : List KeyParameter}
    {force : Bool} : (d.preCreateOperation P env uid kd opParams force).2 ≠ .Continue := by
  intro h
  simp only [preCreateOperation] at h
  repeat' split at h
  all_goals cases h

/-! ## grant -/

theorem preGrant_aloof_iff {granteeUid : Int} {accessVector : BitVec 32} :
    d.Aloof (d.preGrant env uid (some desc) granteeUid accessVector) ↔
      (d.hasKeyboxes = true → ∀ k, d.cache.resolveKey uid desc = some k →
        d.cache.keys.lookup k = none) := by
  unfold preGrant
  by_cases hboxes : d.hasKeyboxes = true
  · rw [if_pos hboxes]
    cases hk : d.cache.resolveKey uid desc with
    | none =>
      simp only [Option.bind_some, hk, reduceCtorEq, false_implies, implies_true, iff_true]
      exact ⟨rfl, .of_owners rfl rfl⟩
    | some k =>
      simp only [Option.bind_some, hk, Option.some.injEq, forall_eq', hboxes, forall_const]
      rw [← HashMap.containsKey_eq_false]
      by_cases hforged : d.cache.keys.containsKey k = true
      · rw [if_pos hforged, hforged]
        exact ⟨fun h => (by cases h.1), fun h => (by cases h)⟩
      · rw [if_neg hforged]
        refine ⟨fun _ => (Bool.not_eq_true _).mp hforged, fun _ => ?_⟩
        split_ifs <;> exact ⟨rfl, .of_owners rfl rfl⟩
  · rw [if_neg hboxes]
    exact ⟨fun _ h => absurd h hboxes, fun _ => ⟨rfl, .of_owners rfl rfl⟩⟩

/-- A recorded grant changes nothing when it has been there before. -/
theorem postGrant_aloof_iff {granteeUid : Int} {accessVector : BitVec 32} {resultCode : Int}
    {reply : Parcel} : d.Aloof (d.postGrant uid (some desc) granteeUid accessVector resultCode reply) ↔
      (d.hasKeyboxes = true → ∀ k, d.cache.resolveKey uid desc = some k → ∀ n,
        d.cache.isPatchedKey k = true → resultCode = 0 → reply.grantId = some n →
          d.cache.grants.lookup n = some ⟨uid, granteeUid, k, accessVector⟩) := by
  unfold postGrant
  split
  · next hcode =>
    cases hbody : reply.readException with
    | none => simp [Parcel.grantId, hbody, Aloof, Result.isOverride, OwnersSame.of_owners]
    | some body =>
      cases hk : d.cache.resolveKey uid desc with
      | none => simp [hk, Aloof, Result.isOverride, OwnersSame.of_owners]
      | some k =>
        simp only [Option.bind_some, hk, Option.some.injEq, forall_eq', Parcel.grantId, hbody, hcode.1,
          hcode.2, forall_const]
        cases hread : body.readTypedObject Parcel.keyDescriptorCreator with
        | none => simp [Aloof, Result.isOverride, OwnersSame.of_owners]
        | some read =>
          obtain ⟨grantDescriptor, rest⟩ := read
          cases grantDescriptor with
          | none => simp [Aloof, Result.isOverride, OwnersSame.of_owners]
          | some grantDescriptor =>
            simp only [Option.bind_some, Option.map_some, Option.some.injEq]
            by_cases hcached : d.cache.isPatchedKey k = true
            · rw [if_pos hcached]
              refine ⟨fun h n _ hn => ?_, fun h => ⟨rfl, ?_, .refl⟩⟩
              · rw [← hn, ← h.2.cache.grants]
                exact AList.lookup_insert _
              · refine ⟨fun _ => rfl, fun _ => rfl, fun _ => rfl, fun _ => rfl, fun _ => rfl,
                  fun n => ?_, fun _ => rfl⟩
                rw [HashMap.lookup_insert_ite]
                split_ifs with hn
                · rw [hn, h _ hcached rfl]
                · rfl
            · rw [if_neg hcached]
              exact ⟨fun _ n h => absurd h hcached, fun _ => ⟨rfl, .of_owners rfl rfl⟩⟩
  · next hcode =>
    refine ⟨fun _ hboxes k _ n _ hzero => absurd ⟨hzero, hboxes⟩ hcode,
      fun _ => ⟨rfl, .of_owners rfl rfl⟩⟩

/-! ## updateSubcomponent -/

theorem preUpdateSubcomponent_aloof_iff {cert chain : Option Bytes} :
    d.Aloof (d.preUpdateSubcomponent uid (some desc) cert chain) ↔
      d.updateTarget uid desc ≠ none ∧ ∀ k, d.updateTarget uid desc = some (some k) →
        d.cache.keys.lookup k = none ∧ d.cache.Lacks ⟨uid, k.keyAlias⟩ := by
  have houtcome := preUpdateSubcomponent_outcome uid d desc cert chain
  generalize d.preUpdateSubcomponent uid (some desc) cert chain = outcome at houtcome ⊢
  cases houtcome with
  | refused htarget => simp [htarget, Aloof, Result.errorReply, Result.isOverride]
  | untouched htarget => simp [htarget, Aloof, Result.isOverride, OwnersSame.of_owners]
  | updated k htarget hforged =>
    simp only [htarget, ne_eq, reduceCtorEq, not_false_eq_true, true_and, Option.some.injEq, forall_eq']
    rw [← HashMap.containsKey_eq_false, hforged]
    exact ⟨fun h => (by cases h.1), fun h => (by cases h.1)⟩
  | cleared k htarget hforged =>
    simp only [htarget, ne_eq, reduceCtorEq, not_false_eq_true, true_and, Option.some.injEq, forall_eq']
    have hsame : d.OwnersSame (d.invalidateCertificateResponseState ⟨uid, k.keyAlias⟩ false) ↔
        d.cache.Lacks ⟨uid, k.keyAlias⟩ := ownersSame_clear_iff rfl rfl
    rw [← HashMap.containsKey_eq_false, hforged]
    exact ⟨fun h => ⟨rfl, hsame.1 h.2⟩, fun h => ⟨rfl, hsame.2 h.2⟩⟩

theorem preUpdateSubcomponent_continue {cert chain : Option Bytes}
    (h : d.Aloof (d.preUpdateSubcomponent uid (some desc) cert chain)) :
    (d.preUpdateSubcomponent uid (some desc) cert chain).2 = .Continue := by
  obtain ⟨htarget, hforged⟩ := preUpdateSubcomponent_aloof_iff.1 h
  have houtcome := preUpdateSubcomponent_outcome uid d desc cert chain
  generalize d.preUpdateSubcomponent uid (some desc) cert chain = outcome at houtcome ⊢
  cases houtcome with
  | refused hk => exact absurd hk htarget
  | untouched => rfl
  | updated k hk hkey =>
    cases hkey.symm.trans (HashMap.containsKey_eq_false.2 (hforged k hk).1)
  | cleared => rfl

theorem postUpdateSubcomponent_aloof_iff {resultCode : Int} :
    d.Aloof (d.postUpdateSubcomponent uid (some desc) resultCode) ↔
      ∀ a, resultCode = 0 → d.invalidatedAfter uid desc = some a → d.Lacks ⟨uid, a⟩ := by
  unfold postUpdateSubcomponent invalidatedAfter
  cases halias : desc.keyAlias.or (d.cache.findAliasForNspace uid desc.nspace) with
  | none => simp [halias, Aloof, Result.isOverride, OwnersSame.of_owners]
  | some a =>
    simp only [halias, Option.some.injEq]
    by_cases hcode : resultCode = 0
    · rw [if_pos hcode]
      have hsame : d.OwnersSame (d.invalidateCertificateResponseState ⟨uid, a⟩ true) ↔
          d.Lacks ⟨uid, a⟩ := ownersSame_cleanup_iff rfl rfl
      exact ⟨fun h a' _ ha' => ha' ▸ hsame.1 h.2, fun h => ⟨rfl, hsame.2 (h a hcode rfl)⟩⟩
    · rw [if_neg hcode]
      exact ⟨fun _ _ h => absurd h hcode, fun _ => ⟨rfl, .of_owners rfl rfl⟩⟩

theorem OwnersSame.invalidatedAfter (h : d.OwnersSame d') :
    d'.invalidatedAfter uid desc = d.invalidatedAfter uid desc := by
  simp only [Daemon.invalidatedAfter, findAliasForNspace, ownKey, h.cache.keysByNspace]

/-! ## getKeyEntry -/

theorem aloof_checked_iff {r : Result} : d.Aloof (d.checked env uid, r) ↔ r.isOverride = false :=
  and_iff_left (OwnersSame.of_owners rfl rfl)

theorem serveCached_isOverride {cached : Option (Key × KeyEntryResponse)} {otherwise : Result}
    (h : otherwise.isOverride = false) :
    (serveCached cached otherwise).isOverride = false ↔ cached = none := by
  cases cached with
  | none => simp [serveCached, h]
  | some o => simp [serveCached, Result.typedObjectReply, Result.isOverride]

/-- Historical owners are rejected where there are any. -/
theorem rejectHistoricalOwners_same_iff :
    d.OwnersSame (d.rejectHistoricalOwners uid desc) ↔
      ∀ a, desc.keyAlias = some a → d.cachedOwner uid desc ≠ none → d.cache.Lacks ⟨uid, a⟩ := by
  unfold rejectHistoricalOwners
  cases ha : desc.keyAlias with
  | none =>
    simp only [reduceCtorEq, false_implies, implies_true, iff_true]
    exact .of_owners rfl rfl
  | some a =>
    have hcached : d.cachedOwner uid desc ≠ none ↔
        ¬ ((!(d.cache.findGeneratedKey uid desc).isSome &&
          !(d.cache.resolvePatchedResponse uid desc).isSome) = true) := by
      unfold cachedOwner findGeneratedKey resolvePatchedResponse
      cases d.cache.findGeneratedOwner uid desc <;> cases d.cache.resolvePatchedOwner uid desc <;> simp
    simp only [Option.some.injEq, forall_eq', hcached]
    split_ifs with hnone
    · exact ⟨fun _ h => absurd hnone h, fun _ => .of_owners rfl rfl⟩
    · have hclear : d.OwnersSame (d.clearSyntheticCertificateState ⟨uid, a⟩
          (d.cache.findGeneratedKey uid desc).isSome) ↔ d.cache.Lacks ⟨uid, a⟩ :=
        ownersSame_clear_iff rfl rfl
      exact ⟨fun h _ => hclear.1 h, fun h => hclear.2 (h hnone)⟩

theorem preGetKeyEntryByMode_aloof_iff :
    d.Aloof (d.preGetKeyEntryByMode env uid desc) ↔ d.NoEntryByMode env uid desc := by
  have hhack : (d.checked env uid).needHack env uid = d.needHack env uid :=
    PkgConfig.checked_needHack uid
  have htracked : (d.checked env uid).isPassthroughDescriptor uid desc =
      d.isPassthroughDescriptor uid desc := rfl
  have hcache : (d.checked env uid).cache = d.cache := rfl
  have hskip : Result.isOverride .Skip = false := rfl
  have hcontinue : Result.isOverride .Continue = false := rfl
  unfold preGetKeyEntryByMode NoEntryByMode
  simp only [hhack, htracked, hcache]
  by_cases hpass : d.isPassthroughDescriptor uid desc = true
  · simp only [hpass, if_true, true_or]
    split_ifs
    · exact iff_of_true (aloof_checked_iff.2 rfl) trivial
    · exact iff_of_true (aloof_checked_iff.2 rfl) trivial
    · exact aloof_checked_iff.trans (serveCached_isOverride hskip)
  · simp only [(Bool.not_eq_true _).mp hpass, Bool.false_eq_true, if_false, false_or]
    split_ifs
    · exact aloof_checked_iff.trans (serveCached_isOverride hskip)
    · have hreject : (d.checked env uid).OwnersSame
          ((d.checked env uid).rejectHistoricalOwners uid desc) ↔ _ := rejectHistoricalOwners_same_iff
      exact ⟨fun h => hreject.1 ⟨h.2.cache, h.2.passthrough⟩,
        fun h => ⟨rfl, (hreject.2 h).cache, (hreject.2 h).passthrough⟩⟩
    · rw [aloof_checked_iff, serveCached_isOverride hcontinue, Option.map_eq_none_iff]
    · exact aloof_checked_iff.trans (serveCached_isOverride hcontinue)
    · exact aloof_checked_iff.trans (serveCached_isOverride hskip)

/-- Where no grant serves the caller, the pre-hook goes by the mode. -/
theorem preGetKeyEntry_eq_byMode (hboxes : d.hasKeyboxes = true)
    (h : ∀ g, d.grantFor uid desc.nspace = some g → g.allows KeyPermission.GET_INFO = true ∧
      (d.config.isPlainAuto uid = true ∨ d.cache.cachedResponse g.key = none)) :
    d.preGetKeyEntry env uid (some desc) = d.preGetKeyEntryByMode env uid desc := by
  unfold preGetKeyEntry
  rw [if_pos hboxes]
  cases hg : d.grantFor uid desc.nspace with
  | none => simp only [hg]
  | some g =>
    obtain ⟨hallows, hserve⟩ := h g hg
    simp only [hg, hallows, if_true]
    cases hr : d.cache.cachedResponse g.key with
    | none => rfl
    | some r =>
      have hauto := hserve.resolve_right (by rw [hr]; simp)
      simp [GetKeyEntryCurrentModeAuthority.shouldServeGrantCachedResponse, hauto]

theorem preGetKeyEntry_aloof_iff :
    d.Aloof (d.preGetKeyEntry env uid (some desc)) ↔ d.NoEntryBefore env uid desc := by
  by_cases hboxes : d.hasKeyboxes = true
  · have hgrants : d.Aloof (d.preGetKeyEntry env uid (some desc)) →
        ∀ g, d.grantFor uid desc.nspace = some g → g.allows KeyPermission.GET_INFO = true ∧
          (d.config.isPlainAuto uid = true ∨ d.cache.cachedResponse g.key = none) := by
      intro h g hg
      unfold preGetKeyEntry at h
      simp only [if_pos hboxes, hg] at h
      by_cases hallows : g.allows KeyPermission.GET_INFO = true
      · refine ⟨hallows, ?_⟩
        rw [if_pos hallows] at h
        by_contra hnot
        rw [not_or] at hnot
        obtain ⟨r, hr⟩ := Option.ne_none_iff_exists'.1 hnot.2
        simp [hr, GetKeyEntryCurrentModeAuthority.shouldServeGrantCachedResponse, hnot.1, Aloof,
          Result.typedObjectReply, Result.isOverride] at h
      · rw [if_neg hallows] at h
        cases h.1
    constructor
    · intro h _
      have hg := hgrants h
      rw [preGetKeyEntry_eq_byMode hboxes hg] at h
      exact ⟨hg, preGetKeyEntryByMode_aloof_iff.1 h⟩
    · intro h
      rw [preGetKeyEntry_eq_byMode hboxes (h hboxes).1]
      exact preGetKeyEntryByMode_aloof_iff.2 (h hboxes).2
  · unfold preGetKeyEntry
    rw [if_neg hboxes]
    exact iff_of_true ⟨rfl, .of_owners rfl rfl⟩ fun h => absurd h hboxes

/-- The post-hook does nothing when its action finds nothing to deliver. -/
theorem postGetKeyEntry_aloof_iff {p : Parcel} :
    d.Aloof (d.postGetKeyEntry env uid P (some desc) p) ↔ (p.readException.isSome = true →
      (GetKeyEntryPostPolicy.decide (d.postHookInput env uid (some desc)) = .SERVE_CACHED_PATCH →
        d.ownedResponse uid (some desc) = none) ∧
      (GetKeyEntryPostPolicy.decide (d.postHookInput env uid (some desc)) = .PATCH_LEAF →
        ∀ r, p.entryBehindTwoHeaders = some r → getCertificateChain P r = none)) := by
  unfold postGetKeyEntry
  cases hbody : p.readException with
  | none => exact iff_of_true ⟨rfl, .of_owners rfl rfl⟩ (by simp)
  | some body =>
    dsimp only
    cases haction : GetKeyEntryPostPolicy.decide (d.postHookInput env uid (some desc)) with
    | PASSTHROUGH_UNMODIFIED => exact iff_of_true ⟨rfl, .of_owners rfl rfl⟩ (by simp)
    | SERVE_CACHED_PATCH =>
      have hserve : d.Aloof (d.checked env uid,
          serveCached ((d.checked env uid).ownedResponse uid (some desc)) .Skip) ↔
            d.ownedResponse uid (some desc) = none :=
        aloof_checked_iff.trans (serveCached_isOverride rfl)
      simpa using hserve
    | PATCH_LEAF =>
      have hentry : p.entryBehindTwoHeaders = ((body.readException.bind
          (Parcel.readTypedObject Parcel.keyEntryResponseCreator)).bind Prod.fst) := by
        rw [Parcel.entryBehindTwoHeaders, hbody, Option.bind_some]
      simp only [Option.isSome_some, reduceCtorEq, false_implies, true_and, forall_const, hentry]
      unfold patchLeaf
      cases hread : body.readException.bind
          (Parcel.readTypedObject Parcel.keyEntryResponseCreator) with
      | none => exact iff_of_true ⟨rfl, .of_owners rfl rfl⟩ (by simp)
      | some read =>
        obtain ⟨r, rest⟩ := read
        cases r with
        | none => exact iff_of_true ⟨rfl, .of_owners rfl rfl⟩ (by simp)
        | some r =>
          simp only [Option.bind_some, Option.some.injEq, forall_eq']
          cases getCertificateChain P r with
          | none => exact iff_of_true ⟨rfl, .of_owners rfl rfl⟩ rfl
          | some chain => exact iff_of_false (fun h => by cases h.1) (by simp)

theorem ownedResponse_eq_none_iff : d.ownedResponse uid (some desc) = none ↔
    (∀ k, d.cache.resolveKey uid desc = some k → d.cache.patchedResponses.lookup k = none) ∧
      d.cache.findGeneratedOwner uid desc = none := by
  unfold ownedResponse
  rw [Option.or_eq_none_iff, Option.bind_some, Option.bind_some, Option.map_eq_none_iff,
    Option.bind_eq_none_iff]
  simp only [Option.map_eq_none_iff]

theorem postGetKeyEntry_aloof_of_tracked {p : Parcel}
    (h : d.isPassthroughDescriptor uid desc = true ∨ d.config.isPlainAuto uid = true) :
    d.Aloof (d.postGetKeyEntry env uid P (some desc) p) := by
  have haction : GetKeyEntryPostPolicy.decide (d.postHookInput env uid (some desc)) =
      .PASSTHROUGH_UNMODIFIED := by
    unfold GetKeyEntryPostPolicy.decide postHookInput
    rcases h with h | h <;> simp [h]
  rw [postGetKeyEntry_aloof_iff, haction]
  simp

/-- In `?` mode the post-hook re-signs, unless it has something to serve. -/
theorem postGetKeyEntry_aloof_of_hack {p : Parcel} (hgenerate : d.needGenerate env uid = false)
    (hhack : d.needHack env uid = true) (htracked : d.isPassthroughDescriptor uid desc = false)
    (hauto : d.config.isPlainAuto uid = false) :
    d.Aloof (d.postGetKeyEntry env uid P (some desc) p) ↔ (p.readException.isSome = true →
      (∀ k, d.cache.resolveKey uid desc = some k → d.cache.patchedResponses.lookup k = none) ∧
      d.cache.findGeneratedOwner uid desc = none ∧
      (d.config.isExplicitLeafHack uid = true →
        ∀ r, p.entryBehindTwoHeaders = some r → getCertificateChain P r = none)) := by
  rw [postGetKeyEntry_aloof_iff, ownedResponse_eq_none_iff]
  refine imp_congr_right fun _ => ?_
  have hpatched : ((d.cache.resolveKey uid desc).any d.cache.patchedResponses.containsKey = false) ↔
      ∀ k, d.cache.resolveKey uid desc = some k → d.cache.patchedResponses.lookup k = none := by
    cases d.cache.resolveKey uid desc with
    | none => simp
    | some k => simp
  have hgenerated : (d.cache.findGeneratedKey uid desc).isSome = false ↔
      d.cache.findGeneratedOwner uid desc = none := by
    simp [findGeneratedKey]
  rw [← hpatched, ← hgenerated]
  unfold GetKeyEntryPostPolicy.decide postHookInput
  simp only [Option.any_some, htracked, hauto, hhack, hgenerate, Option.bind_some]
  cases (d.cache.resolveKey uid desc).any d.cache.patchedResponses.containsKey <;>
    cases (d.cache.findGeneratedKey uid desc).isSome <;>
    cases d.config.isExplicitLeafHack uid <;> simp

/-- In `?` mode an untracked key without an entry to serve goes to the real keystore. -/
theorem preGetKeyEntryByMode_of_hack (h : d.NoEntryByMode env uid desc)
    (hgenerate : d.needGenerate env uid = false) (hhack : d.needHack env uid = true)
    (htracked : d.isPassthroughDescriptor uid desc = false)
    (hauto : (d.checked env uid).config.isPlainAuto uid = false) :
    d.preGetKeyEntryByMode env uid desc = (d.checked env uid, .Continue) := by
  have hchecked : (d.checked env uid).needHack env uid = true :=
    (PkgConfig.checked_needHack uid).trans hhack
  have htracked' : (d.checked env uid).isPassthroughDescriptor uid desc = false := htracked
  have hcache : (d.checked env uid).cache = d.cache := rfl
  unfold NoEntryByMode at h
  simp only [hgenerate, hhack, htracked, hauto, Bool.false_eq_true, if_false, if_true, false_or] at h
  simp only [preGetKeyEntryByMode, hgenerate, hchecked, htracked', hauto, hcache, Bool.false_eq_true,
    if_false, if_true]
  split_ifs with hskip
  · rw [if_pos hskip] at h
    rw [h]
    rfl
  · rw [if_neg hskip] at h
    rw [h]
    rfl

theorem serveCached_skip_ne_continue {cached : Option (Key × KeyEntryResponse)} :
    serveCached cached .Skip ≠ .Continue := by
  cases cached <;> simp [serveCached, Result.typedObjectReply]

theorem rejectHistoricalOwners_config : (d.rejectHistoricalOwners uid desc).config = d.config := by
  unfold rejectHistoricalOwners
  cases desc.keyAlias with
  | none => rfl
  | some a =>
    dsimp only
    split_ifs <;> rfl

/-- Without keyboxes, or for a caller that is not targeted, there is no post-hook. -/
theorem preGetKeyEntryByMode_ne_continue
    (hgenerate : d.needGenerate env uid = false) (hhack : d.needHack env uid = false) :
    (d.preGetKeyEntryByMode env uid desc).2 ≠ .Continue := by
  have hchecked : (d.checked env uid).needHack env uid = false :=
    (PkgConfig.checked_needHack uid).trans hhack
  simp only [preGetKeyEntryByMode, hgenerate, hchecked, Bool.false_eq_true, if_false]
  cases (d.checked env uid).cachedOwner uid desc <;>
    simp [serveCached, Result.typedObjectReply]

/-- In the mode of the caller: the post-hook runs for a tracked key, where it does nothing, in automatic
mode, where it does nothing either, and in `?` mode. -/
theorem getKeyEntryByMode_aloof_iff {env' : Env} {p : Parcel}
    (h : d.NoEntryByMode env uid desc) :
    ((d.preGetKeyEntryByMode env uid desc).2 = .Continue →
        (d.preGetKeyEntryByMode env uid desc).1.tick.Aloof
          ((d.preGetKeyEntryByMode env uid desc).1.tick.postGetKeyEntry env' uid P (some desc) p)) ↔
      (p.readException.isSome = true → d.needGenerate env uid = false →
        d.needHack env uid = true → d.isPassthroughDescriptor uid desc = false →
        (d.checked env uid).config.isPlainAuto uid = false →
          (∀ k, d.cache.resolveKey uid desc = some k → d.cache.patchedResponses.lookup k = none) ∧
          d.cache.findGeneratedOwner uid desc = none ∧
          ((d.checked env uid).config.isExplicitLeafHack uid = true →
            ∀ r, p.entryBehindTwoHeaders = some r → getCertificateChain P r = none)) := by
  have hchecked : (d.checked env uid).needHack env uid = d.needHack env uid :=
    PkgConfig.checked_needHack uid
  by_cases htracked : d.isPassthroughDescriptor uid desc = true
  · refine iff_of_true (fun hcontinue => ?_) (by simp [htracked])
    have hfst : (d.preGetKeyEntryByMode env uid desc).1 = d.checked env uid := by
      have htracked' : (d.checked env uid).isPassthroughDescriptor uid desc = true := htracked
      unfold preGetKeyEntryByMode
      simp only [htracked', if_true]
      split_ifs <;> rfl
    rw [hfst]
    exact postGetKeyEntry_aloof_of_tracked (.inl htracked)
  · have htracked' : (d.checked env uid).isPassthroughDescriptor uid desc = false :=
      (Bool.not_eq_true _).mp htracked
    by_cases hgenerate : d.needGenerate env uid = true
    · refine iff_of_true (fun hcontinue => ?_) (by simp [hgenerate])
      simp only [preGetKeyEntryByMode, hgenerate, htracked', if_true, Bool.false_eq_true,
        if_false] at hcontinue
      exact absurd hcontinue serveCached_skip_ne_continue
    by_cases hhack : d.needHack env uid = true
    · rw [Bool.not_eq_true] at htracked hgenerate
      by_cases hauto : (d.checked env uid).config.isPlainAuto uid = true
      · refine iff_of_true (fun _ => ?_) (by simp [hauto])
        have hpre : d.preGetKeyEntryByMode env uid desc =
            ((d.checked env uid).rejectHistoricalOwners uid desc, .Continue) := by
          simp [preGetKeyEntryByMode, hgenerate, hchecked, hhack, htracked', hauto]
        rw [hpre]
        refine postGetKeyEntry_aloof_of_tracked (.inr ?_)
        rw [← hauto]
        exact congrArg (PkgConfig.isPlainAuto · uid) rejectHistoricalOwners_config
      · rw [Bool.not_eq_true] at hauto
        have hpre : d.preGetKeyEntryByMode env uid desc = (d.checked env uid, .Continue) :=
          preGetKeyEntryByMode_of_hack h hgenerate hhack htracked hauto
        have hhack' : (d.checked env uid).needHack env' uid = true :=
          (PkgConfig.resolved_needs hhack).1
        have hgenerate' : (d.checked env uid).needGenerate env' uid = false :=
          (PkgConfig.resolved_needs hhack).2.trans hgenerate
        rw [hpre]
        have hpost : (d.checked env uid).tick.Aloof
            ((d.checked env uid).tick.postGetKeyEntry env' uid P (some desc) p) ↔ _ :=
          postGetKeyEntry_aloof_of_hack hgenerate' hhack' htracked' hauto
        simp only [forall_const, hpost, hgenerate, hhack, htracked, hauto]
        rfl
    · refine iff_of_true (fun hcontinue => ?_) (by simp [hhack])
      exact absurd hcontinue (preGetKeyEntryByMode_ne_continue ((Bool.not_eq_true _).mp hgenerate)
        ((Bool.not_eq_true _).mp hhack))

/-! ## generateKey -/

theorem checkGenerateKey_request {ak : Option KeyDescriptor} {params : Option (List KeyParameter)}
    {d₁ : Daemon} {req : KeygenRequest}
    (h : d.checkGenerateKey P env uid (some desc) ak params = (d₁, .ok req)) :
    ∃ ps, params = some ps ∧ req.kgp = KeyGenParameters.ofParams P.x500Name ps ∧
      req.attestationKeyDescriptor = ak := by
  unfold checkGenerateKey at h
  cases params with
  | none => cases h
  | some ps =>
    refine ⟨ps, rfl, ?_⟩
    dsimp only at h
    repeat' split at h
    all_goals cases h <;> exact ⟨rfl, rfl⟩

theorem routeGenerateKey_aloof_iff {level : SecurityLevel} {req : KeygenRequest} :
    d.Aloof (d.routeGenerateKey P env level uid req) ↔ ∀ r, d.selectedRoute env uid req = some r →
      d.RouteAloof P env uid level req.attestationKeyDescriptor req.kgp ⟨uid, req.keyAlias⟩ r := by
  have hskipped : d.OwnersSame { d.checked env uid with cache := { d.cache with
      skipLeafHacks := d.cache.skipLeafHacks.erase ⟨uid, req.keyAlias⟩ } } ↔
        d.cache.skipLeafHacks.lookup ⟨uid, req.keyAlias⟩ = none := by
    rw [← erase_same_iff]
    exact ⟨fun h => h.cache.skipLeafHacks, fun h => ⟨⟨fun _ => rfl, fun _ => rfl, h, fun _ => rfl,
      fun _ => rfl, fun _ => rfl, fun _ => rfl⟩, .refl⟩⟩
  have hcleared {d₂ : Daemon} {k : Key} (hc : d₂.cache = d.cache.clear k)
      (hp : d₂.passthrough = d.passthrough) : d.Aloof (d₂, .Continue) ↔ d.cache.Lacks k :=
    ⟨fun h => (ownersSame_clear_iff hc hp).1 h.2, fun h => ⟨rfl, (ownersSame_clear_iff hc hp).2 h⟩⟩
  unfold routeGenerateKey
  dsimp only
  cases hroute : d.selectedRoute env uid req with
  | none => exact iff_of_true ⟨rfl, .of_owners rfl rfl⟩ (by simp)
  | some r =>
    simp only [Option.some.injEq, forall_eq']
    cases r with
    | generate =>
      have hpair : (d.checked env uid).generateKeyPair P env uid req.attestationKeyDescriptor req.kgp
          level.toInt = d.generateKeyPair P env uid req.attestationKeyDescriptor req.kgp
            level.toInt := rfl
      simp only [hpair, RouteAloof]
      cases d.generateKeyPair P env uid req.attestationKeyDescriptor req.kgp level.toInt with
      | none => exact iff_of_true ⟨rfl, .of_owners rfl rfl⟩ rfl
      | some made => exact iff_of_false (fun h => by cases h.1) (by simp)
    | passthroughRealTee =>
      exact hcleared rfl rfl
    | forwardSymmetric => exact iff_of_true ⟨rfl, .of_owners rfl rfl⟩ trivial
    | forwardPlainAsymmetric => exact iff_of_true ⟨rfl, .of_owners rfl rfl⟩ trivial
    | leafForwardAttestation => exact ⟨fun h => hskipped.1 h.2, fun h => ⟨rfl, hskipped.2 h⟩⟩
    | leafForward => exact ⟨fun h => hskipped.1 h.2, fun h => ⟨rfl, hskipped.2 h⟩⟩
    | skip => exact ⟨fun h => hskipped.1 h.2, fun h => ⟨rfl, hskipped.2 h⟩⟩

/-- A request whose checks do not answer it is left alone exactly on its route's condition. -/
theorem preGenerateKey_aloof_iff {level : SecurityLevel} {ak : Option KeyDescriptor}
    {params : Option (List KeyParameter)} (h : ∀ d₁ r,
      d.checkGenerateKey P env uid (some desc) ak params = (d₁, .error r) → r.isOverride = false) :
    d.Aloof (d.preGenerateKey P env level uid (some desc) ak params) ↔
      d.NoGenerateBefore P env uid desc level ak params := by
  have hfst := checkGenerateKey_fst P env uid d (some desc) ak params
  unfold preGenerateKey NoGenerateBefore generateKeyRoute
  cases hcheck : d.checkGenerateKey P env uid (some desc) ak params with
  | mk d₁ outcome =>
    rw [hcheck] at hfst
    have hcache : d₁.cache = d.cache := by rcases hfst with rfl | rfl <;> rfl
    have hpassthrough : d₁.passthrough = d.passthrough := by rcases hfst with rfl | rfl <;> rfl
    have hkeyboxes : d₁.keyboxes = d.keyboxes := by rcases hfst with rfl | rfl <;> rfl
    cases outcome with
    | error r =>
      exact iff_of_true ⟨h d₁ r hcheck, .of_owners hcache hpassthrough⟩ (by simp)
    | ok req =>
      obtain ⟨ps, hps, hkgp, hak⟩ := checkGenerateKey_request hcheck
      have ha : desc.keyAlias = some req.keyAlias := checkGenerateKey_ok hcheck
      have hsame (o : Daemon × Result) : d.Aloof o ↔ d₁.Aloof o := by
        unfold Aloof
        refine and_congr_right fun _ => ⟨fun h => ⟨?_, ?_⟩, fun h => ⟨?_, ?_⟩⟩
        · exact hcache ▸ h.cache
        · exact hpassthrough ▸ h.passthrough
        · exact hcache ▸ h.cache
        · exact hpassthrough ▸ h.passthrough
      have haloof (r : Route) (kgp : KeyGenParameters) (k : Key) :
          d₁.RouteAloof P env uid level ak kgp k r ↔ d.RouteAloof P env uid level ak kgp k r := by
        cases r <;> simp only [RouteAloof, generateKeyPair, getKeyboxForAlgorithm,
          getAttestationKeyInfo, hcache, hkeyboxes]
      dsimp only
      rw [hsame, routeGenerateKey_aloof_iff, hak, hkgp]
      simp only [haloof]
      constructor
      · intro hroute a ps' r ha' hps' hr
        cases ha.symm.trans ha'
        cases hps.symm.trans hps'
        exact hroute r hr
      · intro hroute r hr
        exact hroute _ _ r ha hps hr

theorem postGenerateKey_aloof_iff {level : SecurityLevel} {p : Parcel} {a : String}
    (ha : desc.keyAlias = some a) :
    d.Aloof (d.postGenerateKey P env level uid (some desc) (some p)) ↔ ∀ m, p.keyMetadata = some m →
      if d.treatsAsPassthrough level ⟨uid, a⟩ = true then
        d.Promoted ⟨uid, a⟩ ((m.bind KeyMetadata.key).map KeyDescriptor.nspace)
      else p.leafCertificate P = none := by
  have ha' : (some desc : Option KeyDescriptor).bind KeyDescriptor.keyAlias = some a := ha
  have htaken : d.Aloof (d.takeMark level ⟨uid, a⟩, .Skip) := ⟨rfl, .of_owners rfl rfl⟩
  cases hm : p.keyMetadata with
  | none =>
    rw [postGenerateKey_of_keyMetadata_none ha' hm]
    exact iff_of_true htaken (by simp)
  | some m =>
    simp only [Option.some.injEq, forall_eq']
    by_cases hmarked : d.treatsAsPassthrough level ⟨uid, a⟩ = true
    · rw [postGenerateKey_of_marked ha' hm hmarked, if_pos hmarked]
      unfold Promoted
      rw [← clear_register_same_iff, ← PassthroughKeyRegistry.promote_same_iff]
      exact ⟨fun h => ⟨h.2.cache, h.2.passthrough⟩, fun h => ⟨rfl, h.1, h.2⟩⟩
    · rw [if_neg hmarked]
      rw [Bool.not_eq_true] at hmarked
      cases hl : p.leafCertificate P with
      | none =>
        rw [postGenerateKey_of_no_leaf ha' hl hmarked]
        exact iff_of_true htaken rfl
      | some leaf =>
        obtain ⟨m', hpost⟩ := postGenerateKey_of_leaf env ha' hl hmarked
        rw [hpost]
        exact iff_of_false (fun h => by cases h.1) (by simp)

theorem OwnersSame.promoted_iff {n : Option Int} (h : d.OwnersSame d') :
    d'.Promoted k n ↔ d.Promoted k n := by
  unfold Promoted
  rw [h.cache.knowsOnly_iff, h.passthrough.tracked]
  simp only [h.passthrough.byNspace]

theorem OwnersSame.tick (h : d.OwnersSame d') : d.OwnersSame d'.tick := ⟨h.cache, h.passthrough⟩

theorem keyAlias_of_generateKeyRoute {ak : Option KeyDescriptor} {params : Option (List KeyParameter)}
    {r : Route} (h : d.generateKeyRoute P env uid (some desc) ak params = some r) :
    ∃ a, desc.keyAlias = some a := by
  unfold generateKeyRoute at h
  split at h
  · cases h
  · next d₁ req hcheck => exact ⟨_, checkGenerateKey_ok hcheck⟩

/-- Behind the pre-hook a key is marked if the route has marked it, or it was marked before. -/
theorem treatsAsPassthrough_preGenerateKey {level : SecurityLevel} {ak : Option KeyDescriptor}
    {params : Option (List KeyParameter)} {a : String} {r : Route} (ha : desc.keyAlias = some a)
    (hroute : d.generateKeyRoute P env uid (some desc) ak params = some r) (hr : r ≠ .generate) :
    (d.preGenerateKey P env level uid (some desc) ak params).1.tick.treatsAsPassthrough level ⟨uid, a⟩ =
      true ↔ r = .passthroughRealTee ∨ d.treatsAsPassthrough level ⟨uid, a⟩ = true := by
  by_cases hpass : r = .passthroughRealTee
  · obtain ⟨a', ha', -, -, -, hpending⟩ := preGenerateKey_of_passthrough level (hpass ▸ hroute)
    cases ha.symm.trans ha'
    simp [treatsAsPassthrough, tick, hpending, hpass]
  · have hforward : r.isForward = true := by cases r <;> simp_all [Route.isForward]
    obtain ⟨a', -, -, -, -, hpending⟩ := preGenerateKey_of_forward level hroute hforward
    simp [treatsAsPassthrough, tick, hpending, hpass]

end Daemon

end TrickyStore
