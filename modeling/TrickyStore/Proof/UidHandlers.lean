import TrickyStore.Proof.GenerateKey
import TrickyStore.Proof.UidView

/-!
# The handlers of a uid in states alike for it

While nobody has a grant, each hook run for a uid gives the same result in states alike for the uid, and
leads to such states again.
-/

open Lib

namespace TrickyStore

open CertificateAliasCache

namespace PkgConfig

variable {c c' : PkgConfig} {pm : PackageManager} {uid : Int}

theorem packages_congr (h : c'.uidPackages.lookup uid = c.uidPackages.lookup uid) :
    c'.packages pm uid = c.packages pm uid := by
  unfold packages
  rw [h]

theorem checkNeed_congr (h : c'.uidPackages.lookup uid = c.uidPackages.lookup uid)
    (hmodes : c'.packageModes = c.packageModes) (targetMode : Mode) (autoPredicate : Bool) :
    c'.checkNeed pm uid targetMode autoPredicate = c.checkNeed pm uid targetMode autoPredicate := by
  unfold checkNeed
  rw [packages_congr h, hmodes]

theorem hasTargetMode_congr (h : c'.uidPackages.lookup uid = c.uidPackages.lookup uid)
    (hmodes : c'.packageModes = c.packageModes) (mode : Mode) :
    c'.hasTargetMode uid mode = c.hasTargetMode uid mode := by
  unfold hasTargetMode
  rw [h, hmodes]

end PkgConfig

namespace Daemon

/-- The hook has the same result, and the uid cannot tell the states behind it apart. -/
structure SameOutcome (uid : Int) (o o' : Daemon × Result) : Prop where
  alike : o.1.AlikeFor uid o'.1
  result : o'.2.unnumbered = o.2.unnumbered

variable {P : Platform} {env : Env} {uid : Int} {level : SecurityLevel} {d d' d'' : Daemon}
  {desc : KeyDescriptor} {k : Key}

namespace AlikeFor

theorem refl : d.AlikeFor uid d := ⟨.refl, .refl, fun _ _ _ => rfl, rfl, rfl, rfl, rfl⟩

theorem trans (h : d.AlikeFor uid d') (h' : d'.AlikeFor uid d'') : d.AlikeFor uid d'' where
  cache := h.cache.trans h'.cache
  passthrough := h.passthrough.trans h'.passthrough
  pending := fun level k hk => (h'.pending level k hk).trans (h.pending level k hk)
  keyboxes := h'.keyboxes.trans h.keyboxes
  packageModes := h'.packageModes.trans h.packageModes
  uidPackages := h'.uidPackages.trans h.uidPackages
  operations := h'.operations.trans h.operations

theorem symm (h : d.AlikeFor uid d') : d'.AlikeFor uid d where
  cache := h.cache.symm
  passthrough := h.passthrough.symm
  pending := fun level k hk => (h.pending level k hk).symm
  keyboxes := h.keyboxes.symm
  packageModes := h.packageModes.symm
  uidPackages := h.uidPackages.symm
  operations := h.operations.symm

section Reads

variable (h : d.AlikeFor uid d')

include h

theorem needHack : d'.needHack env uid = d.needHack env uid :=
  PkgConfig.checkNeed_congr h.uidPackages h.packageModes ..

theorem needGenerate : d'.needGenerate env uid = d.needGenerate env uid :=
  PkgConfig.checkNeed_congr h.uidPackages h.packageModes ..

theorem isExplicitLeafHack : d'.config.isExplicitLeafHack uid = d.config.isExplicitLeafHack uid :=
  PkgConfig.hasTargetMode_congr h.uidPackages h.packageModes ..

theorem isPlainAuto : d'.config.isPlainAuto uid = d.config.isPlainAuto uid := by
  have hmode := PkgConfig.hasTargetMode_congr h.uidPackages h.packageModes
  unfold PkgConfig.isPlainAuto PkgConfig.isExplicitGenerate PkgConfig.isExplicitLeafHack
  rw [hmode, hmode, hmode]

theorem hasPermissionForUid (permission : String) :
    d'.config.hasPermissionForUid env.packageManager uid permission =
      d.config.hasPermissionForUid env.packageManager uid permission := by
  unfold PkgConfig.hasPermissionForUid
  rw [PkgConfig.packages_congr h.uidPackages]

theorem hasKeyboxes : d'.hasKeyboxes = d.hasKeyboxes := by
  unfold Daemon.hasKeyboxes
  rw [h.keyboxes]

theorem hackCertificateChain (chain : List Certificate) :
    d'.hackCertificateChain env chain uid = d.hackCertificateChain env chain uid := by
  unfold Daemon.hackCertificateChain
  rw [h.keyboxes]

theorem generateKeyPair (ak : Option KeyDescriptor) (params : KeyGenParameters) (securityLevel : Int) :
    d'.generateKeyPair P env uid ak params securityLevel =
      d.generateKeyPair P env uid ak params securityLevel := by
  have hattest (a : KeyDescriptor) :
      d'.getAttestationKeyInfo P uid a = d.getAttestationKeyInfo P uid a := by
    have hpairs (keyAlias : String) :
        d'.cache.getKeyPairs uid keyAlias = d.cache.getKeyPairs uid keyAlias :=
      h.cache.keyPairs ⟨uid, keyAlias⟩ rfl
    simp only [getAttestationKeyInfo, h.cache.findAliasForNspace, hpairs]
  simp only [Daemon.generateKeyPair, getKeyboxForAlgorithm, h.keyboxes, hattest]

theorem isPassthroughDescriptor (hc : d.cache.Ungranted) (hc' : d'.cache.Ungranted) :
    d'.isPassthroughDescriptor uid desc = d.isPassthroughDescriptor uid desc := by
  have hany : ((d.cache.resolveOwnerKeys uid desc).any fun k => d'.passthrough.isTracked k) =
      (d.cache.resolveOwnerKeys uid desc).any fun k => d.passthrough.isTracked k := by
    rw [Bool.eq_iff_iff, List.any_eq_true, List.any_eq_true]
    refine exists_congr fun k => and_congr_right fun hk => ?_
    rw [h.passthrough.tracked k (hc.uid_of_mem hk)]
  unfold Daemon.isPassthroughDescriptor TrickyStore.isPassthroughDescriptor
  rw [h.passthrough.isTrackedDescriptor, h.cache.resolveOwnerKeys hc hc', hany]

theorem cachedOwner (hc : d.cache.Ungranted) (hc' : d'.cache.Ungranted) :
    (d'.cachedOwner uid desc).map (fun o => (o.1, o.2.unnumbered)) =
      (d.cachedOwner uid desc).map fun o => (o.1, o.2.unnumbered) := by
  have hfound : ((d'.cache.findGeneratedOwner uid desc).map _).map _ = _ :=
    congrArg (Option.map fun o : Key × Info => (o.1, o.2.response)) (h.cache.findGeneratedOwner hc hc')
  simp only [Option.map_map] at hfound
  unfold Daemon.cachedOwner
  rw [Option.map_or, Option.map_or, h.cache.resolvePatchedOwner hc hc', Option.map_map, Option.map_map]
  exact congrArg (Option.or · _) hfound

end Reads

/-! ## Operations on the state -/

section Steps

variable (h : d.AlikeFor uid d')

include h

theorem tick : d.tick.AlikeFor uid d'.tick :=
  ⟨h.cache, h.passthrough, h.pending, h.keyboxes, h.packageModes, h.uidPackages, h.operations⟩

theorem withCache {c c' : CertificateAliasCache} (hc : c.AlikeFor uid c') :
    ({ d with cache := c } : Daemon).AlikeFor uid { d' with cache := c' } :=
  ⟨hc, h.passthrough, h.pending, h.keyboxes, h.packageModes, h.uidPackages, h.operations⟩

theorem checked (env : Env) : (d.checked env uid).AlikeFor uid (d'.checked env uid) := by
  refine ⟨h.cache, h.passthrough, h.pending, h.keyboxes, ?_, ?_, h.operations⟩
  · exact PkgConfig.checked_packageModes.trans (h.packageModes.trans
      PkgConfig.checked_packageModes.symm)
  · unfold Daemon.checked
    dsimp only
    rw [PkgConfig.checked_lookup, PkgConfig.checked_lookup, if_pos rfl, if_pos rfl,
      PkgConfig.packages_congr h.uidPackages]

theorem resolved (env : Env) : (d.resolved env uid).AlikeFor uid (d'.resolved env uid) := by
  refine ⟨h.cache, h.passthrough, h.pending, h.keyboxes, ?_, ?_, h.operations⟩
  · exact PkgConfig.getOrPut_packageModes.trans (h.packageModes.trans
      PkgConfig.getOrPut_packageModes.symm)
  · unfold Daemon.resolved
    dsimp only
    rw [PkgConfig.getOrPut_lookup, PkgConfig.getOrPut_lookup, if_pos rfl, if_pos rfl,
      PkgConfig.packages_congr h.uidPackages]

theorem cleared (hk : k.uid = uid) (b b' : Bool) :
    (d.clearSyntheticCertificateState k b).AlikeFor uid (d'.clearSyntheticCertificateState k b') :=
  ⟨h.cache.clear hk, h.passthrough, h.pending, h.keyboxes, h.packageModes, h.uidPackages, h.operations⟩

theorem relinquished : (d.relinquishPassthroughOwnership k).AlikeFor uid
    (d'.relinquishPassthroughOwnership k) :=
  ⟨h.cache, h.passthrough.remove, h.pending, h.keyboxes, h.packageModes, h.uidPackages, h.operations⟩

theorem cleanupKey (hk : k.uid = uid) : (d.cleanupKey k).AlikeFor uid (d'.cleanupKey k) :=
  (h.cleared hk true true).relinquished

theorem invalidated (hk : k.uid = uid) (b : Bool) :
    (d.invalidateCertificateResponseState k b).AlikeFor uid
      (d'.invalidateCertificateResponseState k b) := by
  unfold invalidateCertificateResponseState
  cases b with
  | true => exact (h.cleared hk false false).relinquished
  | false => exact h.cleared hk false false

end Steps

end AlikeFor

/-! ## The pre-hooks -/

section Hooks

variable (h : d.AlikeFor uid d')

include h

theorem preDeleteKey_same (kd : Option KeyDescriptor) :
    SameOutcome uid (d.preDeleteKey uid kd) (d'.preDeleteKey uid kd) := by
  unfold preDeleteKey
  cases kd.bind KeyDescriptor.keyAlias with
  | none => exact ⟨h, rfl⟩
  | some a =>
    refine ⟨h.cleanupKey rfl, ?_⟩
    have hskip : d'.cache.skipLeafHacks.containsKey ⟨uid, a⟩ = d.cache.skipLeafHacks.containsKey ⟨uid, a⟩ :=
      congrArg Option.isSome (h.cache.skipLeafHacks ⟨uid, a⟩ rfl)
    dsimp only
    rw [h.cache.containsKey rfl, hskip]

theorem postDeleteKey_same (kd : Option KeyDescriptor) (resultCode : Int) :
    SameOutcome uid (d.postDeleteKey uid kd resultCode) (d'.postDeleteKey uid kd resultCode) := by
  unfold postDeleteKey
  cases kd.bind KeyDescriptor.keyAlias with
  | none => exact ⟨h, rfl⟩
  | some a =>
    refine ⟨?_, rfl⟩
    dsimp only
    split_ifs
    · exact h.cleanupKey rfl
    · exact h

theorem preImportKey_same : SameOutcome uid (d.preImportKey env uid) (d'.preImportKey env uid) := by
  refine ⟨h.checked env, ?_⟩
  unfold preImportKey
  rw [h.needHack, h.needGenerate]

theorem postImportKey_same (kd : Option KeyDescriptor) (reply : Option Parcel) :
    SameOutcome uid (d.postImportKey uid kd reply) (d'.postImportKey uid kd reply) := by
  unfold postImportKey
  cases reply.bind Parcel.readException with
  | none => exact ⟨h, rfl⟩
  | some body =>
    cases kd.bind KeyDescriptor.keyAlias with
    | none => exact ⟨h, rfl⟩
    | some a => exact ⟨h.cleanupKey rfl, rfl⟩

theorem preListEntries_alike : (d.preListEntries env uid).1.AlikeFor uid (d'.preListEntries env uid).1 := by
  unfold preListEntries
  rw [h.hasKeyboxes]
  cases d.hasKeyboxes with
  | true => exact h.checked env
  | false => exact h

theorem postListEntries_alike (domain : Int) (startPastAlias : Option String) (resultCode : Int)
    (reply : Parcel) : (d.postListEntries env uid domain startPastAlias resultCode reply).1.AlikeFor uid
      (d'.postListEntries env uid domain startPastAlias resultCode reply).1 := by
  unfold postListEntries
  rw [h.hasKeyboxes]
  cases d.hasKeyboxes with
  | true => exact h.checked env
  | false => exact h

theorem preUngrant_same (kd : Option KeyDescriptor) (granteeUid : Int) :
    SameOutcome uid (d.preUngrant uid kd granteeUid) (d'.preUngrant uid kd granteeUid) := by
  have hresolve : kd.bind (d'.cache.resolveKey uid) = kd.bind (d.cache.resolveKey uid) := by
    cases kd with
    | none => rfl
    | some desc => exact h.cache.resolveKey
  unfold preUngrant
  rw [hresolve]
  cases hk : kd.bind (d.cache.resolveKey uid) with
  | none => exact ⟨h, rfl⟩
  | some k =>
    obtain ⟨desc, -, hk⟩ := Option.bind_eq_some_iff.1 hk
    refine ⟨h.withCache ⟨h.cache.keys, h.cache.keyPairs, h.cache.skipLeafHacks,
      h.cache.patchedResponses, h.cache.usageRemaining, h.cache.keysByNspace⟩, ?_⟩
    dsimp only
    rw [h.cache.containsKey (resolveKey_uid hk)]

/-! ## updateSubcomponent -/

theorem postUpdateSubcomponent_same (kd : Option KeyDescriptor) (resultCode : Int) :
    SameOutcome uid (d.postUpdateSubcomponent uid kd resultCode)
      (d'.postUpdateSubcomponent uid kd resultCode) := by
  unfold postUpdateSubcomponent
  cases kd with
  | none => exact ⟨h, rfl⟩
  | some desc =>
    dsimp only
    rw [h.cache.findAliasForNspace]
    cases desc.keyAlias.or (d.cache.findAliasForNspace uid desc.nspace) with
    | none => exact ⟨h, rfl⟩
    | some a =>
      refine ⟨?_, rfl⟩
      dsimp only
      split_ifs
      · exact h.invalidated rfl true
      · exact h

end Hooks

theorem grantFor_eq_none (hc : d.cache.Ungranted) (n : Int) : d.grantFor uid n = none := by
  unfold grantFor
  rw [hc]
  split_ifs <;> rfl

/-- Without grants `updateSubcomponent` works on the key of the descriptor. -/
theorem updateTarget_of_ungranted (hc : d.cache.Ungranted) :
    d.updateTarget uid desc = some (d.cache.resolveKey uid desc) := by
  unfold updateTarget
  cases hk : d.cache.resolveKey uid desc with
  | none => simp only [grantFor_eq_none hc]
  | some k => rfl

theorem preUpdateSubcomponent_same (h : d.AlikeFor uid d') (hc : d.cache.Ungranted)
    (hc' : d'.cache.Ungranted) (kd : Option KeyDescriptor) (cert chain : Option Bytes) :
    SameOutcome uid (d.preUpdateSubcomponent uid kd cert chain)
      (d'.preUpdateSubcomponent uid kd cert chain) := by
  unfold preUpdateSubcomponent
  cases kd with
  | none => exact ⟨h, rfl⟩
  | some desc =>
    simp only [updateTarget_of_ungranted hc, updateTarget_of_ungranted hc', h.cache.resolveKey]
    cases hk : d.cache.resolveKey uid desc with
    | none => exact ⟨h, rfl⟩
    | some k =>
      have huid : k.uid = uid := resolveKey_uid hk
      simp only [h.cache.containsKey huid]
      split_ifs
      · exact ⟨h.withCache h.cache.updateKeyCertChain, rfl⟩
      · exact ⟨h.invalidated rfl false, rfl⟩

/-! ## createOperation -/

/-- The number of a response plays no part in an operation on its key. -/
theorem selectEngine_congr {info info' : Info} (h : info'.unnumbered = info.unnumbered)
    (op : OpRequest) : SoftwareOperationBinder.selectEngine info' op =
      SoftwareOperationBinder.selectEngine info op := by
  cases info
  cases info'
  simp only [Info.unnumbered, Info.mk.injEq] at h
  obtain ⟨rfl, rfl, -, rfl⟩ := h
  rfl

theorem preCreateOperation_same (h : d.AlikeFor uid d') (hc : d.cache.Ungranted)
    (hc' : d'.cache.Ungranted) (kd : Option KeyDescriptor) (opParams : List KeyParameter)
    (force : Bool) : SameOutcome uid (d.preCreateOperation P env uid kd opParams force)
      (d'.preCreateOperation P env uid kd opParams force) := by
  unfold preCreateOperation
  cases kd with
  | none => exact ⟨h, rfl⟩
  | some desc =>
    have hfound : (d'.cache.findGeneratedOwner uid desc).map _ = _ :=
      h.cache.findGeneratedOwner hc hc'
    cases howner : d.cache.findGeneratedOwner uid desc with
    | none =>
      rw [howner, Option.map_none, Option.map_eq_none_iff] at hfound
      simp only [howner, hfound]
      exact ⟨h, rfl⟩
    | some found =>
      obtain ⟨owner, info⟩ := found
      rw [howner, Option.map_some] at hfound
      obtain ⟨⟨owner', info'⟩, howner', hsame⟩ := Option.map_eq_some_iff.1 hfound
      obtain ⟨rfl, hinfo⟩ := Prod.mk.inj hsame
      have huid : owner'.uid = uid := hc.uid_of_mem (findGeneratedOwner_eq_some howner).1
      have hparams : info'.params = info.params := (congrArg Info.params hinfo :)
      have husage : d'.usageExhausted uid desc info' = d.usageExhausted uid desc info := by
        unfold usageExhausted
        rw [h.cache.resolveKey, hparams]
        cases hk : d.cache.resolveKey uid desc with
        | none => rfl
        | some k =>
          dsimp only
          rw [h.cache.usageRemaining k (resolveKey_uid hk)]
      simp only [howner, howner', husage, hparams, h.cache.resolveKey]
      split_ifs
      · exact ⟨h, rfl⟩
      · exact ⟨h, rfl⟩
      · cases authorizeOperation info.params (OpRequest.parse opParams) env.currentTimeMillis with
        | some errCode => exact ⟨h, rfl⟩
        | none =>
          simp only [SoftwareOperationBinder.create, selectEngine_congr hinfo, hparams]
          cases SoftwareOperationBinder.selectEngine info (OpRequest.parse opParams) with
          | error t => exact ⟨h, rfl⟩
          | ok engine =>
            simp only [bind, Except.bind]
            cases P.jca.init engine with
            | some t => exact ⟨h, rfl⟩
            | none =>
              refine ⟨⟨h.cache, h.passthrough, h.pending, h.keyboxes, h.packageModes, h.uidPackages,
                ?_⟩, rfl⟩
              have hmine {op : SoftwareOperationBinder} (hop : op.origin.key = owner') :
                  op.isOf uid = true := by
                rw [SoftwareOperationBinder.isOf, hop, huid]
                exact decide_eq_true rfl
              rw [List.filter_append, List.filter_append, List.map_append, List.map_append,
                h.operations, List.filter_cons_of_pos (hmine rfl), List.filter_cons_of_pos (hmine rfl)]
              rfl

/-! ## getKeyEntry -/

/-- Delivering a response does not depend on its number. -/
theorem serveCached_congr {cached cached' : Option (Key × KeyEntryResponse)} {otherwise : Result}
    (h : cached'.map (fun o => (o.1, o.2.unnumbered)) = cached.map fun o => (o.1, o.2.unnumbered)) :
    (serveCached cached' otherwise).unnumbered = (serveCached cached otherwise).unnumbered := by
  cases cached with
  | none =>
    rw [Option.map_none, Option.map_eq_none_iff] at h
    rw [h]
  | some o =>
    obtain ⟨o', rfl, ho⟩ := Option.map_eq_some_iff.1 h
    have hr : o'.2.unnumbered = o.2.unnumbered := congrArg Prod.snd ho
    simp only [serveCached, Result.typedObjectReply, Result.unnumbered, LocalReply.unnumbered, hr]

section GetKeyEntry

variable (h : d.AlikeFor uid d') (hc : d.cache.Ungranted) (hc' : d'.cache.Ungranted)

include h hc hc'

theorem AlikeFor.rejectHistoricalOwners :
    (d.rejectHistoricalOwners uid desc).AlikeFor uid (d'.rejectHistoricalOwners uid desc) := by
  unfold Daemon.rejectHistoricalOwners
  cases desc.keyAlias with
  | none => exact h
  | some a =>
    dsimp only
    rw [h.cache.findGeneratedKey hc hc', h.cache.resolvePatchedResponse hc hc']
    split_ifs
    · exact h
    · exact h.cleared rfl _ _

theorem preGetKeyEntryByMode_same :
    SameOutcome uid (d.preGetKeyEntryByMode env uid desc) (d'.preGetKeyEntryByMode env uid desc) := by
  have hchecked := h.checked env
  have hcached {otherwise : Result} : (serveCached ((d'.checked env uid).cachedOwner uid desc)
      otherwise).unnumbered =
        (serveCached ((d.checked env uid).cachedOwner uid desc) otherwise).unnumbered :=
    serveCached_congr (hchecked.cachedOwner hc hc')
  unfold preGetKeyEntryByMode
  dsimp only
  rw [h.needGenerate, hchecked.needHack, hchecked.isPassthroughDescriptor hc hc', hchecked.isPlainAuto,
    hchecked.cache.shouldSkipLeafHackFor hc hc']
  split_ifs
  · exact ⟨hchecked, rfl⟩
  · exact ⟨hchecked, hcached⟩
  · exact ⟨hchecked, rfl⟩
  · exact ⟨hchecked.rejectHistoricalOwners hc hc', rfl⟩
  · have hfound : ((d'.cache.findGeneratedOwner uid desc).map _).map _ = _ :=
      congrArg (Option.map fun o : Key × Info => (o.1, o.2.response))
        (h.cache.findGeneratedOwner hc hc')
    refine ⟨hchecked, serveCached_congr ?_⟩
    simp only [Option.map_map] at hfound ⊢
    exact hfound
  · exact ⟨hchecked, serveCached_congr (h.cache.resolvePatchedOwner hc hc')⟩
  · exact ⟨hchecked, hcached⟩

theorem preGetKeyEntry_same (kd : Option KeyDescriptor) :
    SameOutcome uid (d.preGetKeyEntry env uid kd) (d'.preGetKeyEntry env uid kd) := by
  unfold preGetKeyEntry
  rw [h.hasKeyboxes]
  cases d.hasKeyboxes with
  | false => exact ⟨h, rfl⟩
  | true =>
    cases kd with
    | none => exact ⟨h, rfl⟩
    | some desc =>
      simp only [grantFor_eq_none hc, grantFor_eq_none hc', if_true]
      exact preGetKeyEntryByMode_same h hc hc'

theorem AlikeFor.postHookInput (kd : Option KeyDescriptor) :
    d'.postHookInput env uid kd = d.postHookInput env uid kd := by
  have htracked : kd.any (d'.isPassthroughDescriptor uid) = kd.any (d.isPassthroughDescriptor uid) := by
    cases kd with
    | none => rfl
    | some desc => exact h.isPassthroughDescriptor hc hc'
  have hpatched : (kd.bind (d'.cache.resolveKey uid)).any d'.cache.patchedResponses.containsKey =
      (kd.bind (d.cache.resolveKey uid)).any d.cache.patchedResponses.containsKey := by
    cases kd with
    | none => rfl
    | some desc =>
      rw [Option.bind_some, Option.bind_some, h.cache.resolveKey]
      cases hk : d.cache.resolveKey uid desc with
      | none => rfl
      | some k => exact h.cache.containsPatched (resolveKey_uid hk)
  have hgenerated : (kd.bind (d'.cache.findGeneratedKey uid)).isSome =
      (kd.bind (d.cache.findGeneratedKey uid)).isSome := by
    cases kd with
    | none => rfl
    | some desc => exact h.cache.findGeneratedKey hc hc'
  unfold Daemon.postHookInput
  simp only [htracked, hpatched, hgenerated, h.isExplicitLeafHack, h.needHack, h.needGenerate,
    h.isPlainAuto]

theorem AlikeFor.ownedResponse (kd : Option KeyDescriptor) :
    (d'.ownedResponse uid kd).map (fun o => (o.1, o.2.unnumbered)) =
      (d.ownedResponse uid kd).map fun o => (o.1, o.2.unnumbered) := by
  cases kd with
  | none => rfl
  | some desc =>
    have hfound : ((d'.cache.findGeneratedOwner uid desc).map _).map _ = _ :=
      congrArg (Option.map fun o : Key × Info => (o.1, o.2.response))
        (h.cache.findGeneratedOwner hc hc')
    simp only [Option.map_map] at hfound
    have hpatched : (((d'.cache.resolveKey uid desc).bind fun k =>
        (d'.cache.patchedResponses.lookup k).map fun r => (k, r)).map fun o =>
          (o.1, o.2.unnumbered)) = (((d.cache.resolveKey uid desc).bind fun k =>
        (d.cache.patchedResponses.lookup k).map fun r => (k, r)).map fun o =>
          (o.1, o.2.unnumbered)) := by
      rw [h.cache.resolveKey]
      cases hk : d.cache.resolveKey uid desc with
      | none => rfl
      | some k =>
        have hr := congrArg (Option.map fun r => (k, r))
          (h.cache.patchedResponses k (resolveKey_uid hk))
        simp only [Option.map_map] at hr
        simp only [Option.bind_some, Option.map_map]
        exact hr
    unfold Daemon.ownedResponse
    rw [Option.map_or, Option.map_or, Option.bind_some, Option.bind_some, hpatched, Option.bind_some,
      Option.bind_some, Option.map_map, Option.map_map]
    exact congrArg (Option.or _) hfound

end GetKeyEntry

/-- A re-signed response is kept under the key that its id stands for, if that is the uid's. -/
theorem AlikeFor.patchLeaf (h : d.AlikeFor uid d') (body : Parcel) :
    SameOutcome uid (d.patchLeaf env uid P body) (d'.patchLeaf env uid P body) := by
  unfold Daemon.patchLeaf
  split
  · next response rest hread =>
    dsimp only
    cases getCertificateChain P response with
    | none => exact ⟨h, rfl⟩
    | some chain =>
      dsimp only
      rw [h.hackCertificateChain]
      have howner {k : Key} (hk : k.uid = uid) :
          (response.nspace.filter fun n => n ≠ 0).bind d'.cache.keysByNspace.lookup = some k ↔
            (response.nspace.filter fun n => n ≠ 0).bind d.cache.keysByNspace.lookup = some k := by
        simp only [Option.bind_eq_some_iff, h.cache.keysByNspace _ k hk]
      refine ⟨h.withCache ⟨h.cache.keys, h.cache.keyPairs, h.cache.skipLeafHacks, fun k hk => ?_,
        h.cache.usageRemaining, h.cache.keysByNspace⟩, rfl⟩
      have hsame := howner hk
      dsimp only
      generalize (response.nspace.filter fun n => n ≠ 0).bind d.cache.keysByNspace.lookup = o at hsame ⊢
      generalize (response.nspace.filter fun n => n ≠ 0).bind d'.cache.keysByNspace.lookup = o'
        at hsame ⊢
      by_cases hmine : o = some k
      · rw [hmine, hsame.2 hmine, HashMap.lookup_insert_ite, HashMap.lookup_insert_ite, if_pos rfl,
          if_pos rfl]
        rfl
      · have hother : o' ≠ some k := fun ho' => hmine (hsame.1 ho')
        have hkept {m : HashMap Key KeyEntryResponse} {k' : Key} {r : KeyEntryResponse}
            (hk' : some k' ≠ some k) : (m.insert k' r).lookup k = m.lookup k :=
          AList.lookup_insert_ne fun hk => hk' (congrArg some hk.symm)
        have hpatched := h.cache.patchedResponses k hk
        cases o with
        | none =>
          cases o' with
          | none => exact hpatched
          | some k' => exact (congrArg _ (hkept hother)).trans hpatched
        | some k₁ =>
          cases o' with
          | none => exact hpatched.trans (congrArg _ (hkept hmine)).symm
          | some k' =>
            exact (congrArg _ (hkept hother)).trans (hpatched.trans (congrArg _ (hkept hmine)).symm)
  · exact ⟨h, rfl⟩

theorem postGetKeyEntry_same (h : d.AlikeFor uid d') (hc : d.cache.Ungranted)
    (hc' : d'.cache.Ungranted) (kd : Option KeyDescriptor) (reply : Parcel) :
    SameOutcome uid (d.postGetKeyEntry env uid P kd reply) (d'.postGetKeyEntry env uid P kd reply) := by
  have hchecked := h.checked env
  unfold postGetKeyEntry
  cases reply.readException with
  | none => exact ⟨h, rfl⟩
  | some body =>
    dsimp only
    rw [h.postHookInput hc hc']
    cases GetKeyEntryPostPolicy.decide (d.postHookInput env uid kd) with
    | PASSTHROUGH_UNMODIFIED => exact ⟨hchecked, rfl⟩
    | SERVE_CACHED_PATCH => exact ⟨hchecked, serveCached_congr (hchecked.ownedResponse hc hc' kd)⟩
    | PATCH_LEAF => exact hchecked.patchLeaf body

/-! ## generateKey -/

section GenerateKey

variable (h : d.AlikeFor uid d')

include h

variable (P env) in
/-- The checks end in the same way. -/
theorem checkGenerateKey_alike (kd ak : Option KeyDescriptor) (params : Option (List KeyParameter)) :
    (d.checkGenerateKey P env uid kd ak params).1.AlikeFor uid
        (d'.checkGenerateKey P env uid kd ak params).1 ∧
      (d'.checkGenerateKey P env uid kd ak params).2 =
        (d.checkGenerateKey P env uid kd ak params).2 := by
  unfold checkGenerateKey
  rw [h.hasPermissionForUid]
  split
  · dsimp only
    repeat' split
    all_goals first | exact ⟨h, rfl⟩ | exact ⟨h.resolved env, rfl⟩
  · exact ⟨h, rfl⟩

theorem AlikeFor.selectedRoute (req : KeygenRequest) :
    d'.selectedRoute env uid req = d.selectedRoute env uid req := by
  unfold Daemon.selectedRoute
  rw [h.needGenerate, h.needHack, (h.checked env).isExplicitLeafHack]

theorem routeGenerateKey_same (req : KeygenRequest) :
    SameOutcome uid (d.routeGenerateKey P env level uid req) (d'.routeGenerateKey P env level uid req) := by
  have hchecked := h.checked env
  unfold routeGenerateKey
  dsimp only
  rw [h.selectedRoute]
  cases d.selectedRoute env uid req with
  | none => exact ⟨hchecked, rfl⟩
  | some r =>
    cases r with
    | generate =>
      dsimp only
      rw [hchecked.generateKeyPair, hchecked.needHack]
      cases (d.checked env uid).generateKeyPair P env uid req.attestationKeyDescriptor req.kgp
          level.toInt with
      | none => exact ⟨hchecked, rfl⟩
      | some made =>
        obtain ⟨pair, chain⟩ := made
        have hcleared := (hchecked.relinquished (k := ⟨uid, req.keyAlias⟩)).cleared
          (k := ⟨uid, req.keyAlias⟩) rfl false false
        exact ⟨⟨hcleared.cache.storeGenerated rfl, hcleared.passthrough, hcleared.pending,
          hcleared.keyboxes, hcleared.packageModes, hcleared.uidPackages, hcleared.operations⟩, rfl⟩
    | passthroughRealTee =>
      refine ⟨⟨hchecked.cache.clear rfl, hchecked.passthrough, fun level' k hk => ?_, hchecked.keyboxes,
        hchecked.packageModes, hchecked.uidPackages, hchecked.operations⟩, rfl⟩
      show (AList.insert _ true d'.pendingPassthroughKeys).lookup _ =
        (AList.insert _ true d.pendingPassthroughKeys).lookup _
      rw [HashMap.lookup_insert_ite, HashMap.lookup_insert_ite, h.pending level' k hk]
    | forwardSymmetric => exact ⟨hchecked, rfl⟩
    | forwardPlainAsymmetric => exact ⟨hchecked, rfl⟩
    | leafForwardAttestation => exact ⟨hchecked.withCache hchecked.cache.unskip, rfl⟩
    | leafForward => exact ⟨hchecked.withCache hchecked.cache.unskip, rfl⟩
    | skip => exact ⟨hchecked.withCache hchecked.cache.unskip, rfl⟩

theorem preGenerateKey_same (kd ak : Option KeyDescriptor) (params : Option (List KeyParameter)) :
    SameOutcome uid (d.preGenerateKey P env level uid kd ak params)
      (d'.preGenerateKey P env level uid kd ak params) := by
  obtain ⟨halike, hresult⟩ := checkGenerateKey_alike P env h kd ak params
  unfold preGenerateKey
  cases hcheck : d.checkGenerateKey P env uid kd ak params with
  | mk d₁ outcome =>
    cases hcheck' : d'.checkGenerateKey P env uid kd ak params with
    | mk d₂ outcome' =>
      rw [hcheck, hcheck'] at halike hresult
      obtain rfl : outcome' = outcome := hresult
      cases outcome' with
      | error r => exact ⟨halike, rfl⟩
      | ok req => exact routeGenerateKey_same halike req

variable (level) in
theorem AlikeFor.takeMark (k : Key) : (d.takeMark level k).AlikeFor uid (d'.takeMark level k) := by
  refine ⟨h.cache, h.passthrough, fun level' k' hk' => ?_, h.keyboxes, h.packageModes, h.uidPackages,
    h.operations⟩
  unfold Daemon.takeMark
  dsimp only
  rw [HashMap.lookup_erase_ite, HashMap.lookup_erase_ite, h.pending level' k' hk']

theorem AlikeFor.promotePassthrough (a : String) (metadata : Option KeyMetadata) :
    (d.promotePassthrough uid a metadata).AlikeFor uid (d'.promotePassthrough uid a metadata) :=
  ⟨(h.cache.clear rfl).register _, h.passthrough.promote _, h.pending, h.keyboxes, h.packageModes,
    h.uidPackages, h.operations⟩

theorem patchGenerateKeyReply_same (a : String) (metadata : KeyMetadata) (chain : List Certificate) :
    SameOutcome uid (d.patchGenerateKeyReply env level uid a metadata chain)
      (d'.patchGenerateKeyReply env level uid a metadata chain) := by
  have hcleared := (h.relinquished (k := ⟨uid, a⟩)).cleared (k := ⟨uid, a⟩) rfl false false
  unfold patchGenerateKeyReply
  dsimp only
  rw [hcleared.hackCertificateChain]
  refine ⟨⟨hcleared.cache.storePatched rfl, hcleared.passthrough, hcleared.pending, hcleared.keyboxes,
    ?_, ?_, hcleared.operations⟩, rfl⟩
  · dsimp only
    split_ifs
    · exact (h.resolved env).packageModes
    · exact h.packageModes
  · dsimp only
    split_ifs
    · exact (h.resolved env).uidPackages
    · exact h.uidPackages

theorem postGenerateKey_same (kd : Option KeyDescriptor) (reply : Option Parcel) :
    SameOutcome uid (d.postGenerateKey P env level uid kd reply)
      (d'.postGenerateKey P env level uid kd reply) := by
  cases reply with
  | none => exact ⟨h, rfl⟩
  | some p =>
    cases ha : kd.bind KeyDescriptor.keyAlias with
    | none =>
      rw [postGenerateKey_of_no_alias ha, postGenerateKey_of_no_alias ha]
      exact ⟨h, rfl⟩
    | some a =>
      have hmarked : d'.treatsAsPassthrough level ⟨uid, a⟩ = d.treatsAsPassthrough level ⟨uid, a⟩ := by
        unfold treatsAsPassthrough
        rw [h.pending level ⟨uid, a⟩ rfl]
      have htaken := h.takeMark level ⟨uid, a⟩
      rw [postGenerateKey_eq ha, postGenerateKey_eq ha, hmarked]
      cases p.keyMetadata with
      | none => exact ⟨htaken, rfl⟩
      | some m =>
        dsimp only
        split_ifs
        · exact ⟨htaken.promotePassthrough a m, rfl⟩
        · split
          · exact patchGenerateKeyReply_same htaken a _ _
          · exact ⟨htaken, rfl⟩

end GenerateKey

end Daemon

end TrickyStore
