import TrickyStore.Proof.OtherUids

/-!
# Isolation between uids

While nobody grants, what a uid gets from the daemon depends on its own requests only: two runs of
handlers that agree on those of the uid end in the same decisions on them.
-/

open Lib

namespace TrickyStore

open CertificateAliasCache

def Request.isListing : Request → Bool
  | .listEntries .. => true
  | _ => false

namespace Daemon

variable (P : Platform)

/-- The result of a hook for a request other than a listing. -/
def decision (d : Daemon) : Handler → Option Result
  | .pre uid request env =>
    if request.isListing then none else some (d.pre P env uid request).2.unnumbered
  | .post uid request resultCode reply env =>
    if request.isListing then none
    else some (d.post P env uid request resultCode reply).2.unnumbered
  | _ => none

/-- The decisions on the requests of the uid along a run of handlers. -/
def decisions (uid : Int) (d : Daemon) (hs : List Handler) : List (Option Result) :=
  Machine.observations (handle P) (Handler.concerns uid) (decision P) d hs

end Daemon

/-! ## Calls on operations -/

namespace SoftwareOperationBinder

variable {uid : Int} {op op' : SoftwareOperationBinder} {u u' : HashMap Key Int}

variable (op u) in
/-- A call changes neither what the operation is on nor the counters of other keys. -/
theorem call_kept (call : Call) : ((op.call u call).1.origin = op.origin ∧
      (op.call u call).1.usageKey = op.usageKey) ∧
    ∀ k, op.usageKey ≠ some k → (op.call u call).2.1.lookup k = u.lookup k := by
  cases call with
  | update => exact ⟨⟨rfl, rfl⟩, fun _ _ => rfl⟩
  | abort => exact ⟨⟨rfl, rfl⟩, fun _ _ => rfl⟩
  | updateAad aadInput engine =>
    unfold SoftwareOperationBinder.call updateAad
    dsimp only
    repeat' split
    all_goals exact ⟨⟨rfl, rfl⟩, fun _ _ => rfl⟩
  | finish input engine =>
    have hconsume (k : Key) (hk : op.usageKey ≠ some k) :
        (op.consumeUsage u).2.lookup k = u.lookup k := by
      unfold consumeUsage
      cases hkey : op.usageKey with
      | none => rfl
      | some k' =>
        have hne : k ≠ k' := fun h => hk (by rw [hkey, h])
        dsimp only
        split_ifs
        · rfl
        · exact AList.lookup_insert_ne hne
        · exact AList.lookup_insert_ne hne
    unfold SoftwareOperationBinder.call finish
    dsimp only
    split
    · exact ⟨⟨rfl, rfl⟩, fun _ _ => rfl⟩
    · exact ⟨⟨rfl, rfl⟩, fun _ _ => rfl⟩
    · split <;> next h => exact ⟨⟨rfl, rfl⟩, fun k hk => by rw [← hconsume k hk, h]⟩

section Congr

variable (h : op'.unnumbered = op.unnumbered) (hkey : ∀ k, op.usageKey = some k → k.uid = uid)
  (hu : ∀ k, k.uid = uid → u'.lookup k = u.lookup k)

include h hkey hu

theorem consumeUsage_congr : (op'.consumeUsage u').1 = (op.consumeUsage u).1 ∧
    ∀ k, k.uid = uid → (op'.consumeUsage u').2.lookup k = (op.consumeUsage u).2.lookup k := by
  have husageKey : op'.usageKey = op.usageKey := (congrArg usageKey h :)
  have hlimit : op'.usageCountLimit = op.usageCountLimit := (congrArg usageCountLimit h :)
  unfold consumeUsage
  rw [husageKey, hlimit]
  cases hk : op.usageKey with
  | none => exact ⟨rfl, hu⟩
  | some k =>
    dsimp only
    rw [hu k (hkey k hk)]
    split_ifs
    · exact ⟨rfl, hu⟩
    · exact ⟨rfl, fun k' hk' => by rw [HashMap.lookup_insert_ite, HashMap.lookup_insert_ite, hu k' hk']⟩
    · exact ⟨rfl, fun k' hk' => by rw [HashMap.lookup_insert_ite, HashMap.lookup_insert_ite, hu k' hk']⟩

/-- A call on an operation of the uid has the same effect on it and on the counters of the uid. -/
theorem call_congr (call : Call) :
    (op'.call u' call).1.unnumbered = (op.call u call).1.unnumbered ∧
      ∀ k, k.uid = uid → (op'.call u' call).2.1.lookup k = (op.call u call).2.1.lookup k := by
  have hactive : op'.checkActive = op.checkActive := by
    have hflag : op'.active = op.active := (congrArg active h :)
    unfold checkActive
    rw [hflag]
  have hended : ({ op' with active := false } : SoftwareOperationBinder).unnumbered =
      ({ op with active := false } : SoftwareOperationBinder).unnumbered :=
    (congrArg (fun o : SoftwareOperationBinder => { o with active := false }) h :)
  cases call with
  | update => exact ⟨h, hu⟩
  | abort => exact ⟨hended, hu⟩
  | updateAad aadInput engine =>
    unfold SoftwareOperationBinder.call updateAad
    dsimp only
    rw [hactive]
    repeat' split
    all_goals first | exact ⟨h, hu⟩ | exact ⟨hended, hu⟩
  | finish input engine =>
    have hpassed : ({ op' with active := false, passes := op'.passes + 1 } :
        SoftwareOperationBinder).unnumbered =
        ({ op with active := false, passes := op.passes + 1 } : SoftwareOperationBinder).unnumbered :=
      (congrArg (fun o : SoftwareOperationBinder =>
        { o with active := false, passes := o.passes + 1 }) h :)
    obtain ⟨hallowed, hcounters⟩ := consumeUsage_congr h hkey hu
    unfold SoftwareOperationBinder.call finish
    dsimp only
    rw [hactive]
    split
    · exact ⟨h, hu⟩
    · exact ⟨h, hu⟩
    · cases hb : op.consumeUsage u with
      | mk b u₁ =>
        cases hb' : op'.consumeUsage u' with
        | mk b' u₁' =>
          rw [hb, hb'] at hallowed hcounters
          obtain rfl : b' = b := hallowed
          cases b' with
          | false => exact ⟨h, hcounters⟩
          | true => exact ⟨hpassed, hcounters⟩

end Congr

end SoftwareOperationBinder

namespace Daemon

variable {P : Platform} {uid v : Int} {ids : Int → Prop} {d d' : Daemon} {e : Handler}

/-! ## The uid's keys stay apart -/

/-- A hook for any uid keeps them apart. -/
theorem Apart.hook {request : Request} {now : ℕ} {brought : Int → Prop} (h : d.Apart uid ids)
    (hstep : d.Steps v request brought now d') (hframe : OthersFrame v d d')
    (hgrant : request.isGrant = false)
    (hids : request.isGenerateKey = true → ∀ n, brought n → (v = uid ↔ ids n)) : d'.Apart uid ids := by
  refine ⟨hstep.apart h.owners hgrant hids, fun op hop k hk => ?_⟩
  rcases hframe.made op hop with hop | hmade
  · exact h.charged op hop k hk
  · exact hmade k hk

theorem Apart.operateOwn (h : d.Apart uid ids) (n : ℕ) (call : SoftwareOperationBinder.Call) :
    (d.operateOwn v n call).Apart uid ids := by
  unfold Daemon.operateOwn operate
  split
  · exact h
  · next op hop =>
    obtain ⟨⟨horigin, husage⟩, -⟩ := op.call_kept d.cache.usageRemaining call
    refine ⟨⟨h.owners.ungranted, h.owners.own, h.owners.foreign, h.owners.tracked⟩, fun op' hop' => ?_⟩
    rcases List.mem_or_eq_of_mem_set hop' with hop' | rfl
    · exact h.charged op' hop'
    · rw [horigin, husage]
      exact h.charged op (List.mem_of_getElem? hop)

theorem Apart.handle (h : d.Apart uid ids) (he : e.KeepsApart uid ids) : (d.handle P e).Apart uid ids := by
  cases e with
  | pre v request env =>
    refine h.hook (pre_steps P env request) (pre_othersFrame h.owners.ungranted request) he.ungranted
      fun hrequest n hn => ?_
    have hids := he.ids n ⟨hrequest, hn⟩
    rwa [Handler.concerns, decide_eq_true_eq] at hids
  | post v request resultCode reply env =>
    refine h.hook (post_steps P env request resultCode reply) (post_othersFrame request resultCode reply)
      he.ungranted fun hrequest n hn => ?_
    have hids := he.ids n hn
    rwa [Handler.concerns, decide_eq_true_eq] at hids
  | operate v n call => exact h.operateOwn n call
  | targetChanged modes => exact ⟨h.owners, h.charged⟩
  | keyboxChanged keyboxes =>
    exact ⟨⟨fun _ => rfl, fun n k hk => (by cases hk), fun k i n hi => (by cases hi),
      fun n k hk => (by cases hk)⟩, h.charged⟩
  | packageManagerDied => exact ⟨h.owners, h.charged⟩
  | persist => exact ⟨h.owners, h.charged⟩

/-! ## Handlers of others -/

theorem OthersFrame.alikeFor (hframe : OthersFrame v d d') (hv : v ≠ uid)
    (howners : d.cache.AlikeFor uid d'.cache ∧ d.passthrough.AlikeFor uid d'.passthrough) :
    d.AlikeFor uid d' where
  cache := howners.1
  passthrough := howners.2
  pending := fun level k hk => hframe.pending level k (by rw [hk]; exact hv.symm)
  keyboxes := hframe.keyboxes
  packageModes := hframe.packageModes
  uidPackages := hframe.uidPackages uid hv.symm
  operations := by rw [hframe.operations uid hv.symm]

/-- The id in the reply of another uid does not stand for a key of the uid. -/
theorem postGetKeyEntry_patched {env : Env} {kd : Option KeyDescriptor} {reply : Parcel} {k : Key}
    (h : OwnersApart uid ids d.cache d.passthrough) (hids : ∀ n ∈ reply.keyIds, ¬ ids n)
    (hk : k.uid = uid) :
    (d.postGetKeyEntry env v P kd reply).1.cache.patchedResponses.lookup k =
      d.cache.patchedResponses.lookup k := by
  unfold postGetKeyEntry
  cases hbody : reply.readException with
  | none => rfl
  | some body =>
    dsimp only
    cases GetKeyEntryPostPolicy.decide (d.postHookInput env v kd) with
    | PASSTHROUGH_UNMODIFIED => rfl
    | SERVE_CACHED_PATCH => rfl
    | PATCH_LEAF =>
      dsimp only
      unfold patchLeaf
      split
      · next response rest hread =>
        dsimp only
        split
        · rfl
        · cases howner : (response.nspace.filter fun n => n ≠ 0).bind
              (d.checked env v).cache.keysByNspace.lookup with
          | none => rfl
          | some k' =>
            refine AList.lookup_insert_ne ?_
            rintro rfl
            obtain ⟨n, hn, hown⟩ := Option.bind_eq_some_iff.1 howner
            have hnspace : response.nspace = some n := (Option.filter_eq_some_iff.1 hn).1
            obtain ⟨body', hbody', hread⟩ := Option.bind_eq_some_iff.1 hread
            obtain ⟨item, hitem, hcreate⟩ := Parcel.readTypedObject_mem hread
            refine hids n (Parcel.mem_keyIds ((Parcel.readException_suffix hbody).subset
              ((Parcel.readException_suffix hbody').subset hitem)) ?_) (h.own n k hown hk)
            rw [Parcel.keyEntryResponseCreator_eq_some hcreate]
            exact hnspace
      · rfl

/-- A call on an operation of another uid charges a key of that uid. -/
theorem alikeFor_operateOwn (h : d.Apart uid ids) (hv : v ≠ uid) (n : ℕ)
    (call : SoftwareOperationBinder.Call) : d.AlikeFor uid (d.operateOwn v n call) := by
  unfold Daemon.operateOwn operate
  split
  · exact .refl
  · next op hop =>
    have hmine : op.isOf v = true := by
      rw [getElem?_findIdxNth] at hop
      exact (List.mem_filter.1 (List.mem_of_getElem? hop)).2
    have howner : op.origin.key.uid = v := of_decide_eq_true hmine
    obtain ⟨⟨horigin, -⟩, hcounters⟩ := op.call_kept d.cache.usageRemaining call
    refine ⟨⟨fun _ _ => rfl, fun _ _ => rfl, fun _ _ => rfl, fun _ _ => rfl, fun k hk => ?_,
      fun _ _ _ => .rfl⟩, .refl, fun _ _ _ => rfl, rfl, rfl, rfl, ?_⟩
    · refine hcounters k fun husage => hv ?_
      rw [← howner, ← h.charged op (List.mem_of_getElem? hop) k husage, hk]
    · refine congrArg _ (filter_set_findIdxNth_of_ne (fun op' hop' => ?_) ?_)
      · have hop' : op'.origin.key.uid = v := of_decide_eq_true hop'
        exact decide_eq_false (by rw [hop']; exact hv)
      · exact decide_eq_false (by rw [horigin, howner]; exact hv)

/-- The uid does not notice a handler that does not concern it. -/
theorem alikeFor_handle (h : d.Apart uid ids) (he : e.KeepsApart uid ids)
    (hother : e.concerns uid = false) : d.AlikeFor uid (d.handle P e) := by
  have hnot {n : Int} (hn : e.Brings n) : ¬ ids n := fun hin => by
    have hconcerns := (he.ids n hn).2 hin
    rw [hother] at hconcerns
    cases hconcerns
  cases e with
  | pre v request env =>
    have hv : v ≠ uid := of_decide_eq_false hother
    refine (pre_othersFrame h.owners.ungranted request).alikeFor hv ((pre_steps P env request).alikeFor
      h.owners hv he.ungranted (fun hrequest n hn => ?_) fun kd hrequest k hk => ?_)
    · exact iff_of_false hv (hnot ⟨hrequest, hn⟩)
    · rw [hrequest]
      show ((d.preGetKeyEntry env v kd).1.cache.patchedResponses.lookup k).map _ = _
      rcases (preGetKeyEntry_owners env v d kd).1 with hcache | ⟨a, hcache⟩ <;> rw [hcache]
      exact (h.owners.alikeFor_clear (k := ⟨v, a⟩) hv).patchedResponses k hk
  | post v request resultCode reply env =>
    have hv : v ≠ uid := of_decide_eq_false hother
    refine (post_othersFrame request resultCode reply).alikeFor hv
      ((post_steps P env request resultCode reply).alikeFor h.owners hv he.ungranted
        (fun hrequest n hn => ?_) fun kd hrequest k hk => ?_)
    · exact iff_of_false hv (hnot hn)
    · rw [hrequest]
      cases reply with
      | none => rfl
      | some p => exact congrArg _ (postGetKeyEntry_patched h.owners (fun n hn => hnot hn) hk)
  | operate v n call => exact alikeFor_operateOwn h (of_decide_eq_false hother) n call
  | persist => exact ⟨.refl, .refl, fun _ _ _ => rfl, rfl, rfl, rfl, rfl⟩
  | targetChanged => cases hother
  | keyboxChanged => cases hother
  | packageManagerDied => cases hother

/-! ## The uid's own handlers -/

theorem onPreTransact_same {env : Env} {request : Request} (h : d.AlikeFor uid d')
    (hc : d.cache.Ungranted) (hc' : d'.cache.Ungranted) (hgrant : request.isGrant = false) :
    (d.onPreTransact P env uid request).1.AlikeFor uid (d'.onPreTransact P env uid request).1 ∧
      (request.isListing = false → (d'.onPreTransact P env uid request).2.unnumbered =
        (d.onPreTransact P env uid request).2.unnumbered) := by
  have hsame {o o' : Daemon × Result} (ho : SameOutcome uid o o') : o.1.AlikeFor uid o'.1 ∧
      (request.isListing = false → o'.2.unnumbered = o.2.unnumbered) := ⟨ho.alike, fun _ => ho.result⟩
  cases request with
  | generateKey level kd ak params => exact hsame (preGenerateKey_same h kd ak params)
  | importKey level kd => exact hsame (preImportKey_same h)
  | createOperation level kd opParams force => exact hsame (preCreateOperation_same h hc hc' kd opParams force)
  | deleteKey kd => exact hsame (preDeleteKey_same h kd)
  | updateSubcomponent kd cert chain => exact hsame (preUpdateSubcomponent_same h hc hc' kd cert chain)
  | grant => cases hgrant
  | ungrant kd granteeUid => exact hsame (preUngrant_same h kd granteeUid)
  | getKeyEntry kd => exact hsame (preGetKeyEntry_same h hc hc' kd)
  | listEntries domain startPastAlias => exact ⟨preListEntries_alike h, fun hlisting => by cases hlisting⟩

theorem onPostTransact_same {env : Env} {request : Request} {resultCode : Int} {reply : Option Parcel}
    (h : d.AlikeFor uid d') (hc : d.cache.Ungranted) (hc' : d'.cache.Ungranted)
    (hgrant : request.isGrant = false) :
    (d.onPostTransact P env uid request resultCode reply).1.AlikeFor uid
        (d'.onPostTransact P env uid request resultCode reply).1 ∧
      (request.isListing = false →
        (d'.onPostTransact P env uid request resultCode reply).2.unnumbered =
          (d.onPostTransact P env uid request resultCode reply).2.unnumbered) := by
  have hsame {o o' : Daemon × Result} (ho : SameOutcome uid o o') : o.1.AlikeFor uid o'.1 ∧
      (request.isListing = false → o'.2.unnumbered = o.2.unnumbered) := ⟨ho.alike, fun _ => ho.result⟩
  cases request with
  | generateKey level kd ak params => exact hsame (postGenerateKey_same h kd reply)
  | importKey level kd => exact hsame (postImportKey_same h kd reply)
  | createOperation level kd opParams force => exact ⟨h, fun _ => rfl⟩
  | deleteKey kd =>
    cases reply with
    | none => exact ⟨h, fun _ => rfl⟩
    | some p => exact hsame (postDeleteKey_same h kd resultCode)
  | updateSubcomponent kd cert chain =>
    cases reply with
    | none => exact ⟨h, fun _ => rfl⟩
    | some p => exact hsame (postUpdateSubcomponent_same h kd resultCode)
  | grant => cases hgrant
  | ungrant kd granteeUid => exact ⟨h, fun _ => rfl⟩
  | getKeyEntry kd =>
    cases reply with
    | none => exact ⟨h, fun _ => rfl⟩
    | some p => exact hsame (postGetKeyEntry_same h hc hc' kd p)
  | listEntries domain startPastAlias =>
    cases reply with
    | none => exact ⟨h, fun _ => rfl⟩
    | some p => exact ⟨postListEntries_alike h .., fun hlisting => by cases hlisting⟩

/-- The uid's operation of a number is the same in alike states. -/
theorem AlikeFor.operateOwn (h : d.AlikeFor uid d') (hd : d.Apart uid ids) (n : ℕ)
    (call : SoftwareOperationBinder.Call) :
    (d.operateOwn uid n call).AlikeFor uid (d'.operateOwn uid n call) := by
  have hops := congrArg (fun l : List SoftwareOperationBinder => l[n]?) h.operations
  simp only [List.getElem?_map, ← getElem?_findIdxNth] at hops
  unfold Daemon.operateOwn operate
  cases hop : d.operations[d.operations.findIdxNth (SoftwareOperationBinder.isOf uid) n]? with
  | none =>
    rw [hop, Option.map_none, Option.map_eq_none_iff] at hops
    rw [hops]
    exact h
  | some op =>
    rw [hop, Option.map_some] at hops
    obtain ⟨op', hop', hsame⟩ := Option.map_eq_some_iff.1 hops
    rw [hop']
    have hmine : op.isOf uid = true := by
      rw [getElem?_findIdxNth] at hop
      exact (List.mem_filter.1 (List.mem_of_getElem? hop)).2
    have hmine' : op'.isOf uid = true := by
      rw [getElem?_findIdxNth] at hop'
      exact (List.mem_filter.1 (List.mem_of_getElem? hop')).2
    have hcharged (k : Key) (hk : op.usageKey = some k) : k.uid = uid := by
      rw [hd.charged op (List.mem_of_getElem? hop) k hk]
      exact of_decide_eq_true hmine
    obtain ⟨hcall, hcounters⟩ := SoftwareOperationBinder.call_congr hsame hcharged
      h.cache.usageRemaining call
    have hof {o : SoftwareOperationBinder} {u : HashMap Key Int} (ho : o.isOf uid = true) :
        (o.call u call).1.isOf uid = true := by
      rw [SoftwareOperationBinder.isOf, (o.call_kept u call).1.1]
      exact ho
    refine ⟨⟨h.cache.keys, h.cache.keyPairs, h.cache.skipLeafHacks, h.cache.patchedResponses, hcounters,
      h.cache.keysByNspace⟩, h.passthrough, h.pending, h.keyboxes, h.packageModes, h.uidPackages, ?_⟩
    rw [filter_set_findIdxNth (hof hmine'), filter_set_findIdxNth (hof hmine), List.map_set, List.map_set,
      h.operations, hcall]

theorem handle_same (h : d.AlikeFor uid d') (hd : d.Apart uid ids) (hd' : d'.Apart uid ids)
    (he : e.KeepsApart uid ids) (hmine : e.concerns uid = true) :
    (d.handle P e).AlikeFor uid (d'.handle P e) ∧ d.decision P e = d'.decision P e := by
  cases e with
  | pre v request env =>
    obtain rfl : v = uid := of_decide_eq_true hmine
    obtain ⟨halike, hresult⟩ := onPreTransact_same (P := P) h hd.owners.ungranted hd'.owners.ungranted
      he.ungranted
    refine ⟨halike.tick, ?_⟩
    cases hlisting : request.isListing with
    | true => simp only [decision, hlisting, if_true]
    | false =>
      simp only [decision, hlisting, Bool.false_eq_true, if_false]
      exact congrArg some (hresult hlisting).symm
  | post v request resultCode reply env =>
    obtain rfl : v = uid := of_decide_eq_true hmine
    obtain ⟨halike, hresult⟩ := onPostTransact_same (P := P) h hd.owners.ungranted
      hd'.owners.ungranted he.ungranted
    refine ⟨halike.tick, ?_⟩
    cases hlisting : request.isListing with
    | true => simp only [decision, hlisting, if_true]
    | false =>
      simp only [decision, hlisting, Bool.false_eq_true, if_false]
      exact congrArg some (hresult hlisting).symm
  | operate v n call =>
    obtain rfl : v = uid := of_decide_eq_true hmine
    exact ⟨h.operateOwn hd n call, rfl⟩
  | targetChanged modes =>
    exact ⟨⟨h.cache, h.passthrough, h.pending, h.keyboxes, rfl, h.uidPackages, h.operations⟩, rfl⟩
  | keyboxChanged keyboxes =>
    exact ⟨⟨.refl, .refl, h.pending, rfl, h.packageModes, h.uidPackages, h.operations⟩, rfl⟩
  | packageManagerDied =>
    exact ⟨⟨h.cache, h.passthrough, h.pending, h.keyboxes, h.packageModes, rfl, h.operations⟩, rfl⟩
  | persist => cases hmine

variable (P uid ids) in
theorem unwinding : Machine.Unwinding (handle P) (Handler.concerns uid) (decision P)
    (Handler.KeepsApart uid ids) (Apart uid ids) (AlikeFor uid) where
  invariant := fun hd he => hd.handle he
  respects := fun hd _ he hother h => (alikeFor_handle hd he hother).symm.trans h
  consistent := fun hd hd' he hmine h => (handle_same h hd hd' he hmine).1
  output := fun hd hd' he hmine h => (handle_same h hd hd' he hmine).2

end Daemon

/-- Two runs of handlers from one state that agree on those of the uid, in which nobody grants and only
the uid's own requests bring the ids of its keys, end in the same decisions on its requests. -/
theorem uid_isolated (P : Platform) (uid : Int) (ids : Int → Prop) (d : Daemon) (hs hs' : List Handler)
    (hd : d.Apart uid ids) (hapart : ∀ e ∈ hs, e.KeepsApart uid ids)
    (hapart' : ∀ e ∈ hs', e.KeepsApart uid ids)
    (hsame : hs.filter (Handler.concerns uid) = hs'.filter (Handler.concerns uid)) :
    d.decisions P uid hs = d.decisions P uid hs' :=
  (Daemon.unwinding P uid ids).observations_eq hd hd .refl .refl hapart hapart' hsame

namespace Demo

/-- The owner forges the key "a" under the id 5, signs with it and reads it. -/
def ownRequests : List Handler :=
  [.pre owner (generate ecParams) (env 5),
    .pre owner (.createOperation .trustedEnvironment (some byAlias)
      [⟨Tag.PURPOSE, .keyPurpose KeyPurpose.SIGN⟩] false) (env 7),
    .operate owner 0 (.finish none (.ok none)), .pre owner (.getKeyEntry (some (byId 5))) (env 8)]

/-- Another uid forges a key "a" of its own, and asks to read and delete the owner's by its id. -/
def strangeRequests : List Handler :=
  [.pre other (generate ecParams) (env 6), .pre other (.getKeyEntry (some (byId 5))) (env 9),
    .pre other (.deleteKey (some { byId 5 with keyAlias := some "a" })) (env 10)]

def configured : List Handler :=
  [.targetChanged (modes .GENERATE .GENERATE), .keyboxChanged keyboxes]

end Demo

open Demo in
theorem owner_isolated_from_other :
    ({} : Daemon).decisions platform owner
        (configured ++ ownRequests.take 1 ++ strangeRequests ++ ownRequests.drop 1) =
      ({} : Daemon).decisions platform owner (configured ++ ownRequests) := by
  have hpre {v : Int} {request : Request} {m : Int} (hgrant : request.isGrant = false)
      (h : request.isGenerateKey = true → (v = owner ↔ m = 5)) :
      (Handler.pre v request (env m)).KeepsApart owner fun n => n = 5 := by
    refine ⟨hgrant, fun n hn => ?_⟩
    obtain ⟨hrequest, rfl⟩ := hn
    rw [Handler.concerns, decide_eq_true_eq]
    exact h hrequest
  have hquiet {e : Handler} (hgrant : e.isGrant = false) (h : ∀ n, ¬ e.Brings n) :
      e.KeepsApart owner fun n => n = 5 := ⟨hgrant, fun n hn => absurd hn (h n)⟩
  have hconfigured : ∀ e ∈ configured, e.KeepsApart owner fun n => n = 5 := by
    unfold configured
    simp only [List.forall_mem_cons]
    exact ⟨hquiet rfl fun _ => id, hquiet rfl fun _ => id, fun _ h => (by cases h)⟩
  have hown : ∀ e ∈ ownRequests, e.KeepsApart owner fun n => n = 5 := by
    unfold ownRequests
    simp only [List.forall_mem_cons]
    exact ⟨hpre rfl fun _ => (by decide), hpre rfl fun h => (by cases h), hquiet rfl fun _ => id,
      hpre rfl fun h => (by cases h), fun _ h => (by cases h)⟩
  have hstrange : ∀ e ∈ strangeRequests, e.KeepsApart owner fun n => n = 5 := by
    unfold strangeRequests
    simp only [List.forall_mem_cons]
    exact ⟨hpre rfl fun _ => (by decide), hpre rfl fun h => (by cases h),
      hpre rfl fun h => (by cases h), fun _ h => (by cases h)⟩
  refine uid_isolated platform owner (fun n => n = 5) {} _ _ ⟨⟨fun _ => rfl, fun n k hk => (by cases hk),
    fun k i n hi => (by cases hi), fun n k hk => (by cases hk)⟩, fun op hop => (by cases hop)⟩
    (fun e he => ?_) (fun e he => ?_) rfl
  · simp only [List.mem_append, or_assoc] at he
    rcases he with he | he | he | he
    · exact hconfigured e he
    · exact hown e (List.mem_of_mem_take he)
    · exact hstrange e he
    · exact hown e (List.mem_of_mem_drop he)
  · rcases List.mem_append.1 he with he | he
    · exact hconfigured e he
    · exact hown e he

end TrickyStore
