import TrickyStore.Proof.UidHandlers

/-!
# Handlers of other uids

All uids share the maps, two of which are keyed by id alone.  While nobody grants, and the ids of a
uid's keys are not drawn for, and do not come in replies to, other uids, a handler run for another uid
goes unnoticed by the uid.
-/

open Lib

namespace TrickyStore

open CertificateAliasCache

namespace Handler

/-- The handlers whose effects the uid is to see: its own, and those for everyone. -/
def concerns (uid : Int) : Handler → Bool
  | .pre v .. | .post v .. | .operate v .. => v = uid
  | .targetChanged _ | .keyboxChanged _ | .packageManagerDied => true
  | .persist => false

/-- The key id comes with the handler: it may draw the id, or the real reply carries it. -/
def Brings (n : Int) : Handler → Prop
  | .pre _ request env => request.isGenerateKey = true ∧ n = env.nextLong
  | .post _ _ _ reply _ => n ∈ Parcel.keyIds (reply.getD [])
  | _ => False

def isGrant : Handler → Bool
  | .pre _ request _ | .post _ request .. => request.isGrant
  | _ => false

/-- No grant, and with `ids` the ids of the uid's keys: only what is run for the uid brings one, and
what is run for the uid brings no other. -/
structure KeepsApart (uid : Int) (ids : Int → Prop) (e : Handler) : Prop where
  ungranted : e.isGrant = false
  ids : ∀ n, e.Brings n → (e.concerns uid = true ↔ ids n)

end Handler

/-- Nobody has a grant, and the ids in `ids` are those that stand for keys of the uid. -/
structure OwnersApart (uid : Int) (ids : Int → Prop) (c : CertificateAliasCache)
    (p : PassthroughKeyRegistry) : Prop where
  ungranted : c.Ungranted
  own : ∀ n k, c.keysByNspace.lookup n = some k → k.uid = uid → ids n
  foreign : ∀ k i n, c.keys.lookup k = some i → i.response.nspace = some n → k.uid ≠ uid → ¬ ids n
  tracked : ∀ n k, p.byNspace.lookup n = some k → k.uid = uid → ids n

/-- Besides, operations charge keys of the uid that they belong to. -/
structure Daemon.Apart (uid : Int) (ids : Int → Prop) (d : Daemon) : Prop where
  owners : OwnersApart uid ids d.cache d.passthrough
  charged : ∀ op ∈ d.operations, ∀ k, op.usageKey = some k → k.uid = op.origin.key.uid

/-! ## Steps on the owners -/

section Owners

variable {uid v : Int} {ids : Int → Prop} {request : Request} {now : ℕ} {brought : Int → Prop}
  {c c' : CertificateAliasCache} {p p' : PassthroughKeyRegistry}

theorem OwnersApart.clear (h : OwnersApart uid ids c p) (k : Key) : OwnersApart uid ids (c.clear k) p where
  ungranted := fun n => by
    rw [Option.eq_none_iff_forall_ne_some]
    intro g hg
    rw [clear_grants, HashMap.lookup_removeIf_eq_some, h.ungranted] at hg
    cases hg.1
  own := fun n k' hk' => h.own n k' (clear_keysByNspace_eq_some.1 hk').1
  foreign := fun k' i n hi => by
    rw [clear_keys, HashMap.lookup_erase_eq_some] at hi
    exact h.foreign k' i n hi.2
  tracked := h.tracked

theorem OwnersApart.register (h : OwnersApart uid ids c p) {k : Key} {n : Option Int}
    (hn : ∀ m, n = some m → k.uid = uid → ids m) : OwnersApart uid ids (c.register k n) p where
  ungranted := fun m => by rw [register_grants, h.ungranted]
  own := fun m k' hk' huid => by
    rcases register_keysByNspace_eq_some.1 hk' with ⟨hm, -, rfl⟩ | ⟨-, hk'⟩
    · exact hn m hm huid
    · exact h.own m k' hk' huid
  foreign := fun k' i m hi => by
    rw [register_keys] at hi
    exact h.foreign k' i m hi
  tracked := h.tracked

theorem OwnersApart.remove (h : OwnersApart uid ids c p) (k : Key) :
    OwnersApart uid ids c (p.remove k) where
  ungranted := h.ungranted
  own := h.own
  foreign := h.foreign
  tracked := fun n k' hk' => h.tracked n k' (HashMap.lookup_removeIf_eq_some.1 hk').1

theorem OwnersApart.insertPatched (h : OwnersApart uid ids c p) (k : Key) (r : KeyEntryResponse) :
    OwnersApart uid ids { c with patchedResponses := c.patchedResponses.insert k r } p :=
  ⟨h.ungranted, h.own, h.foreign, h.tracked⟩

theorem OwnersApart.storeGenerated (h : OwnersApart uid ids c p) {k : Key} {info : Info}
    (pair : KeyPair) (chain : List Certificate) {n : Int} (skip : Bool)
    (hid : info.response.nspace = some n) (hn : k.uid = uid ↔ ids n) :
    OwnersApart uid ids (c.storeGenerated k info pair chain n skip) p where
  ungranted := h.ungranted
  own := fun m k' hk' huid => by
    rcases HashMap.lookup_insert_eq_some.1 hk' with ⟨rfl, rfl⟩ | ⟨-, hk'⟩
    · exact hn.1 huid
    · exact h.own m k' hk' huid
  foreign := fun k' i m hi hm hk' => by
    rcases HashMap.lookup_insert_eq_some.1 hi with ⟨rfl, rfl⟩ | ⟨-, hi⟩
    · rw [hid] at hm
      obtain rfl := Option.some.inj hm
      exact fun hids => hk' (hn.2 hids)
    · exact h.foreign k' i m hi hm hk'
  tracked := h.tracked

theorem OwnersApart.promote (h : OwnersApart uid ids c p) {k : Key} {n : Option Int}
    (hn : ∀ m, n = some m → k.uid = uid → ids m) : OwnersApart uid ids c (p.promote k n) := by
  refine ⟨h.ungranted, h.own, h.foreign, fun m k' hk' huid => ?_⟩
  unfold PassthroughKeyRegistry.promote at hk'
  cases n with
  | none => exact h.tracked m k' hk' huid
  | some n =>
    dsimp only at hk'
    split_ifs at hk'
    · rcases HashMap.lookup_insert_eq_some.1 hk' with ⟨rfl, rfl⟩ | ⟨-, hk'⟩
      · exact hn m rfl huid
      · exact h.tracked m k' hk' huid
    · exact h.tracked m k' hk' huid

theorem OwnersApart.updateKeyCertChain (h : OwnersApart uid ids c p) (k : Key)
    (cert chain : Option Bytes) : OwnersApart uid ids (c.updateKeyCertChain k cert chain) p := by
  refine ⟨h.ungranted, h.own, fun k' i n hi hn => ?_, h.tracked⟩
  rw [updateKeyCertChain_keys_lookup] at hi
  obtain ⟨i₀, hi₀, rfl⟩ := Option.map_eq_some_iff.1 hi
  refine h.foreign k' i₀ n hi₀ ?_
  rw [← hn]
  split_ifs <;> rfl

/-- What brings only ids of the uid for the uid, and none of them for others, keeps them apart. -/
theorem HookStep.apart (hstep : HookStep v request now brought c p c' p')
    (h : OwnersApart uid ids c p) (hgrant : request.isGrant = false)
    (hids : request.isGenerateKey = true → ∀ n, brought n → (v = uid ↔ ids n)) :
    OwnersApart uid ids c' p' := by
  cases hstep with
  | unchanged => exact h
  | cleared a => exact h.clear _
  | relinquished a => exact (h.clear _).remove _
  | generated a info pair chain n skip hserial hid hn hrequest =>
    exact ((h.clear ⟨v, a⟩).remove ⟨v, a⟩).storeGenerated pair chain skip hid (hids hrequest n hn)
  | patched a r hserial hid hrequest =>
    have hcleared := (h.clear ⟨v, a⟩).remove ⟨v, a⟩
    exact (hcleared.insertPatched ⟨v, a⟩ r).register
      fun m hm huid => (hids hrequest m (hid m hm)).1 huid
  | promoted a n hid hrequest =>
    have hown (m : Int) (hm : n = some m) (huid : v = uid) : ids m :=
      (hids hrequest m (hid m hm)).1 huid
    exact ((h.clear ⟨v, a⟩).register hown).promote hown
  | unskipped a => exact ⟨h.ungranted, h.own, h.foreign, h.tracked⟩
  | updated k kd cert chain hrequest hk hallowed => exact h.updateKeyCertChain k cert chain
  | regranted n g kd accessVector hrequest =>
    rw [hrequest] at hgrant
    cases hgrant
  | granted n k kd granteeUid accessVector hrequest =>
    rw [hrequest] at hgrant
    cases hgrant
  | ungranted k granteeUid hk =>
    refine ⟨fun n => ?_, h.own, h.foreign, h.tracked⟩
    rw [HashMap.lookup_removeIf, h.ungranted]
    rfl
  | resigned k n r kd hrequest hserial hn hk hid => exact h.insertPatched k r

theorem ne_of_uid_ne {k k' : Key} (hk : k.uid ≠ uid) (hk' : k'.uid = uid) : k' ≠ k := by
  rintro rfl
  exact hk hk'

/-- Clearing a key of another uid goes unnoticed, for the id of a forged key is none of the uid's. -/
theorem OwnersApart.alikeFor_clear (h : OwnersApart uid ids c p) {k : Key} (hk : k.uid ≠ uid) :
    c.AlikeFor uid (c.clear k) := by
  have hne {k' : Key} : k'.uid = uid → k' ≠ k := ne_of_uid_ne hk
  refine ⟨fun k' hk' => ?_, fun k' hk' => ?_, fun k' hk' => ?_, fun k' hk' => ?_, fun k' hk' => ?_,
    fun n k' hk' => ?_⟩
  · rw [clear_keys, AList.lookup_erase_ne (hne hk')]
  · rw [clear_keyPairs, AList.lookup_erase_ne (hne hk')]
  · rw [clear_skipLeafHacks, AList.lookup_erase_ne (hne hk')]
  · rw [clear_patchedResponses, AList.lookup_erase_ne (hne hk')]
  · rw [clear_usageRemaining, AList.lookup_erase_ne (hne hk')]
  · rw [clear_keysByNspace_eq_some]
    exact ⟨fun h' => h'.1, fun hn => ⟨hn, hne hk', fun i hi hid =>
      h.foreign k i n hi hid hk (h.own n k' hn hk')⟩⟩

/-- So does an id for a key of another uid, if it is none of the uid's. -/
theorem OwnersApart.alikeFor_register (h : OwnersApart uid ids c p) {k : Key} {n : Option Int}
    (hk : k.uid ≠ uid) (hn : ∀ m, n = some m → ¬ ids m) : c.AlikeFor uid (c.register k n) := by
  refine ⟨fun _ _ => by rw [register_keys], fun _ _ => by rw [register_keyPairs],
    fun _ _ => by rw [register_skipLeafHacks], fun _ _ => by rw [register_patchedResponses],
    fun _ _ => by rw [register_usageRemaining], fun m k' hk' => ?_⟩
  rw [register_keysByNspace_eq_some]
  constructor
  · rintro (⟨-, -, rfl⟩ | ⟨-, hm⟩)
    · exact absurd hk' hk
    · exact hm
  · exact fun hm => .inr ⟨fun hnm => hn m hnm.1 (h.own m k' hm hk'), hm⟩

theorem alikeFor_insertPatched {k : Key} (hk : k.uid ≠ uid) (r : KeyEntryResponse) :
    c.AlikeFor uid { c with patchedResponses := c.patchedResponses.insert k r } :=
  ⟨fun _ _ => rfl, fun _ _ => rfl, fun _ _ => rfl,
    fun _ hk' => congrArg _ (AList.lookup_insert_ne (ne_of_uid_ne hk hk')), fun _ _ => rfl,
    fun _ _ _ => .rfl⟩

theorem OwnersApart.alikeFor_storeGenerated (h : OwnersApart uid ids c p) {k : Key} (hk : k.uid ≠ uid)
    (info : Info) (pair : KeyPair) (chain : List Certificate) {n : Int} (skip : Bool) (hn : ¬ ids n) :
    c.AlikeFor uid (c.storeGenerated k info pair chain n skip) := by
  have hne {k' : Key} : k'.uid = uid → k' ≠ k := ne_of_uid_ne hk
  refine ⟨fun k' hk' => ?_, fun k' hk' => ?_, fun k' hk' => ?_, fun _ _ => rfl, fun k' hk' => ?_,
    fun m k' hk' => ?_⟩
  · exact congrArg _ (AList.lookup_insert_ne (hne hk'))
  · exact AList.lookup_insert_ne (hne hk')
  · unfold CertificateAliasCache.storeGenerated
    dsimp only
    split_ifs
    · exact AList.lookup_insert_ne (hne hk')
    · rfl
  · unfold CertificateAliasCache.storeGenerated
    dsimp only
    split_ifs
    · exact AList.lookup_insert_ne (hne hk')
    · rfl
  · rw [CertificateAliasCache.storeGenerated, HashMap.lookup_insert_eq_some]
    constructor
    · rintro (⟨-, rfl⟩ | ⟨-, hm⟩)
      · exact absurd rfl (hne hk')
      · exact hm
    · refine fun hm => .inr ⟨?_, hm⟩
      rintro rfl
      exact hn (h.own m k' hm hk')

theorem alikeFor_updateKeyCertChain {k : Key} (hk : k.uid ≠ uid) (cert chain : Option Bytes) :
    c.AlikeFor uid (c.updateKeyCertChain k cert chain) := by
  have hne {k' : Key} : k'.uid = uid → k' ≠ k := ne_of_uid_ne hk
  refine ⟨fun k' hk' => ?_, fun _ _ => rfl, fun k' hk' => AList.lookup_erase_ne (hne hk'),
    fun k' hk' => ?_, fun _ _ => rfl, fun _ _ _ => .rfl⟩
  · simp [updateKeyCertChain_keys_lookup, hne hk']
  · simp [updateKeyCertChain_patchedResponses_lookup, hne hk']

theorem OwnersApart.alikeFor_promote (h : OwnersApart uid ids c p) {k : Key} {n : Option Int}
    (hk : k.uid ≠ uid) (hn : ∀ m, n = some m → ¬ ids m) : p.AlikeFor uid (p.promote k n) := by
  have hne {k' : Key} : k'.uid = uid → k' ≠ k := ne_of_uid_ne hk
  refine ⟨fun k' hk' => ?_, fun m k' hk' => ?_⟩
  · exact (HashMap.containsKey_insert ..).trans (if_neg (hne hk'))
  · unfold PassthroughKeyRegistry.promote
    cases n with
    | none => rfl
    | some n =>
      dsimp only
      split_ifs
      · rw [HashMap.lookup_insert_eq_some]
        constructor
        · rintro (⟨-, rfl⟩ | ⟨-, hm⟩)
          · exact absurd hk' hk
          · exact hm
        · refine fun hm => .inr ⟨?_, hm⟩
          rintro rfl
          exact hn m rfl (h.tracked m k' hm hk')
      · rfl

theorem alikeFor_remove {k : Key} (hk : k.uid ≠ uid) : p.AlikeFor uid (p.remove k) := by
  have hne {k' : Key} : k'.uid = uid → k' ≠ k := ne_of_uid_ne hk
  refine ⟨fun k' hk' => ?_, fun n k' hk' => ?_⟩
  · exact (HashMap.containsKey_erase ..).trans (if_neg (hne hk'))
  · rw [PassthroughKeyRegistry.remove, HashMap.lookup_removeIf_eq_some, decide_eq_false_iff_not]
    exact and_iff_left (hne hk')

/-- A hook for another uid goes unnoticed, if the id under which it re-signs is none of the uid's. -/
theorem HookStep.alikeFor (hstep : HookStep v request now brought c p c' p')
    (h : OwnersApart uid ids c p) (hv : v ≠ uid) (hgrant : request.isGrant = false)
    (hids : request.isGenerateKey = true → ∀ n, brought n → (v = uid ↔ ids n))
    (hread : ∀ kd, request = .getKeyEntry kd → ∀ k, k.uid = uid →
      (c'.patchedResponses.lookup k).map KeyEntryResponse.unnumbered =
        (c.patchedResponses.lookup k).map KeyEntryResponse.unnumbered) :
    c.AlikeFor uid c' ∧ p.AlikeFor uid p' := by
  have hne {a : String} {k : Key} : k.uid = uid → k ≠ ⟨v, a⟩ := ne_of_uid_ne hv
  have hbrought (hrequest : request.isGenerateKey = true) (n : Int) (hn : brought n) : ¬ ids n :=
    fun hin => hv ((hids hrequest n hn).2 hin)
  cases hstep with
  | unchanged => exact ⟨.refl, .refl⟩
  | cleared a => exact ⟨h.alikeFor_clear hv, .refl⟩
  | relinquished a => exact ⟨h.alikeFor_clear hv, alikeFor_remove hv⟩
  | generated a info pair chain n skip hserial hid hn hrequest =>
    exact ⟨(h.alikeFor_clear hv).trans ((h.clear _).alikeFor_storeGenerated hv info pair chain skip
      (hbrought hrequest n hn)), alikeFor_remove hv⟩
  | patched a r hserial hid hrequest =>
    have hpatched := (h.clear ⟨v, a⟩).insertPatched ⟨v, a⟩ r
    exact ⟨(h.alikeFor_clear hv).trans ((alikeFor_insertPatched hv r).trans
      (hpatched.alikeFor_register hv fun m hm => hbrought hrequest m (hid m hm))), alikeFor_remove hv⟩
  | promoted a n hid hrequest =>
    have hn (m : Int) (hm : n = some m) : ¬ ids m := hbrought hrequest m (hid m hm)
    exact ⟨(h.alikeFor_clear hv).trans ((h.clear _).alikeFor_register hv hn),
      h.alikeFor_promote hv hn⟩
  | unskipped a =>
    exact ⟨⟨fun _ _ => rfl, fun _ _ => rfl, fun k hk => AList.lookup_erase_ne (hne hk), fun _ _ => rfl,
      fun _ _ => rfl, fun _ _ _ => .rfl⟩, .refl⟩
  | updated k kd cert chain hrequest hk hallowed =>
    have huid : k.uid ≠ uid := by
      rcases hallowed with rfl | ⟨n, g, hg, -⟩
      · exact hv
      · rw [h.ungranted] at hg
        cases hg
    exact ⟨alikeFor_updateKeyCertChain huid cert chain, .refl⟩
  | regranted n g kd accessVector hrequest =>
    rw [hrequest] at hgrant
    cases hgrant
  | granted n k kd granteeUid accessVector hrequest =>
    rw [hrequest] at hgrant
    cases hgrant
  | ungranted k granteeUid hk =>
    exact ⟨⟨fun _ _ => rfl, fun _ _ => rfl, fun _ _ => rfl, fun _ _ => rfl, fun _ _ => rfl,
      fun _ _ _ => .rfl⟩, .refl⟩
  | resigned k n r kd hrequest =>
    exact ⟨⟨fun _ _ => rfl, fun _ _ => rfl, fun _ _ => rfl, hread kd hrequest, fun _ _ => rfl,
      fun _ _ _ => .rfl⟩, .refl⟩

end Owners

/-! ## What else a hook for another uid touches -/

namespace Daemon

/-- Configuration, marks and operations of other uids than `v` are left alone, and new operations charge
keys of their own uid. -/
structure OthersFrame (v : Int) (d d' : Daemon) : Prop where
  keyboxes : d'.keyboxes = d.keyboxes
  packageModes : d'.config.packageModes = d.config.packageModes
  uidPackages : ∀ u, u ≠ v → d'.config.uidPackages.lookup u = d.config.uidPackages.lookup u
  pending : ∀ level k, k.uid ≠ v →
    d'.pendingPassthroughKeys.lookup (level, k) = d.pendingPassthroughKeys.lookup (level, k)
  operations : ∀ u, u ≠ v → d'.operations.filter (SoftwareOperationBinder.isOf u) =
    d.operations.filter (SoftwareOperationBinder.isOf u)
  made : ∀ op ∈ d'.operations, op ∈ d.operations ∨
    ∀ k, op.usageKey = some k → k.uid = op.origin.key.uid

namespace OthersFrame

variable {env : Env} {v : Int} {level : SecurityLevel} {d d' d'' : Daemon} {k : Key}

/-- Only the owners may differ. -/
theorem of_owners (hkeyboxes : d'.keyboxes = d.keyboxes) (hconfig : d'.config = d.config)
    (hpending : d'.pendingPassthroughKeys = d.pendingPassthroughKeys)
    (hoperations : d'.operations = d.operations) : OthersFrame v d d' :=
  ⟨hkeyboxes, by rw [hconfig], fun _ _ => by rw [hconfig], fun _ _ _ => by rw [hpending],
    fun _ _ => by rw [hoperations], fun op hop => .inl (by rwa [hoperations] at hop)⟩

theorem trans (h : OthersFrame v d d') (h' : OthersFrame v d' d'') : OthersFrame v d d'' where
  keyboxes := h'.keyboxes.trans h.keyboxes
  packageModes := h'.packageModes.trans h.packageModes
  uidPackages := fun u hu => (h'.uidPackages u hu).trans (h.uidPackages u hu)
  pending := fun level k hk => (h'.pending level k hk).trans (h.pending level k hk)
  operations := fun u hu => (h'.operations u hu).trans (h.operations u hu)
  made := fun op hop => (h'.made op hop).elim (h.made op) .inr

variable (env) in
theorem checked : OthersFrame v d (d.checked env v) := by
  refine ⟨rfl, PkgConfig.checked_packageModes, fun u hu => ?_, fun _ _ _ => rfl, fun _ _ => rfl,
    fun op hop => .inl hop⟩
  exact PkgConfig.checked_lookup u ▸ if_neg hu

variable (env) in
theorem resolved : OthersFrame v d (d.resolved env v) := by
  refine ⟨rfl, PkgConfig.getOrPut_packageModes, fun u hu => ?_, fun _ _ _ => rfl, fun _ _ => rfl,
    fun op hop => .inl hop⟩
  exact PkgConfig.getOrPut_lookup u ▸ if_neg hu

theorem marked (hk : k.uid = v) : OthersFrame v d
    { d with pendingPassthroughKeys := d.pendingPassthroughKeys.insert (level, k) true } := by
  refine ⟨rfl, rfl, fun _ _ => rfl, fun level' k' hk' => ?_, fun _ _ => rfl, fun op hop => .inl hop⟩
  refine AList.lookup_insert_ne fun heq => hk' ?_
  rw [(Prod.mk.inj heq).2, hk]

theorem looksUp {env : Env} {d₁ : Daemon} (h : LooksUp env v d d₁) : OthersFrame v d d₁ := by
  induction h with
  | refl => exact .of_owners rfl rfl rfl rfl
  | resolved _ ih => exact ih.trans (.resolved env)
  | checked _ ih => exact ih.trans (.checked env)

theorem takeMark (hk : k.uid = v) : OthersFrame v d (d.takeMark level k) := by
  refine ⟨rfl, rfl, fun _ _ => rfl, fun level' k' hk' => ?_, fun _ _ => rfl, fun op hop => .inl hop⟩
  refine AList.lookup_erase_ne fun heq => hk' ?_
  rw [(Prod.mk.inj heq).2, hk]

end OthersFrame

variable {P : Platform} {env : Env} {v : Int} {level : SecurityLevel} {d : Daemon}

theorem preGenerateKey_othersFrame (kd ak : Option KeyDescriptor) (params : Option (List KeyParameter)) :
    OthersFrame v d (d.preGenerateKey P env level v kd ak params).1 := by
  have houtcome := preGenerateKey_outcome P env v level d kd ak params
  generalize d.preGenerateKey P env level v kd ak params = outcome at houtcome ⊢
  cases houtcome with
  | answered hlook => exact .looksUp hlook
  | forged skip hlook => exact (OthersFrame.looksUp hlook.checked).trans (.of_owners rfl rfl rfl rfl)
  | @forwarded d₁ a r hlook =>
    refine (OthersFrame.looksUp hlook).trans ?_
    cases r with
    | passthroughRealTee =>
      exact (OthersFrame.marked (k := ⟨v, a⟩) rfl).trans (.of_owners rfl rfl rfl rfl)
    | _ => exact .of_owners rfl rfl rfl rfl

/-- While nobody has a grant, an operation is on a key of its caller, and charges one. -/
theorem preCreateOperation_othersFrame (hc : d.cache.Ungranted) (kd : Option KeyDescriptor)
    (opParams : List KeyParameter) (force : Bool) :
    OthersFrame v d (d.preCreateOperation P env v kd opParams force).1 := by
  have hmade {op : SoftwareOperationBinder} (horigin : op.origin.key.uid = v)
      (husage : ∀ k, op.usageKey = some k → k.uid = v) :
      OthersFrame v d { d with operations := d.operations ++ [op] } := by
    refine ⟨rfl, rfl, fun _ _ => rfl, fun _ _ _ => rfl, fun u hu => ?_, fun op' hop' => ?_⟩
    · have hother : op.isOf u = false := by
        rw [SoftwareOperationBinder.isOf, horigin]
        exact decide_eq_false hu.symm
      rw [List.filter_append, List.filter_cons_of_neg (by simp [hother])]
      simp
    · rcases List.mem_append.1 hop' with hop' | hop'
      · exact .inl hop'
      · obtain rfl := List.mem_singleton.1 hop'
        exact .inr fun k hk => (husage k hk).trans horigin.symm
  unfold preCreateOperation
  split
  · exact .of_owners rfl rfl rfl rfl
  · next desc =>
    split
    · exact .of_owners rfl rfl rfl rfl
    · next owner info hfound =>
      have howner : owner.uid = v := hc.uid_of_mem (findGeneratedOwner_eq_some hfound).1
      dsimp only
      repeat' split
      all_goals first | exact .of_owners rfl rfl rfl rfl | skip
      next op hcreate =>
      obtain ⟨engine, rfl⟩ := SoftwareOperationBinder.create_eq_ok hcreate
      exact hmade howner fun k hk => resolveKey_uid hk

theorem pre_othersFrame (hc : d.cache.Ungranted) (request : Request) :
    OthersFrame v d (d.pre P env v request).1 := by
  suffices OthersFrame v d (d.onPreTransact P env v request).1 from
    this.trans (.of_owners rfl rfl rfl rfl)
  cases request with
  | generateKey level kd ak params => exact preGenerateKey_othersFrame kd ak params
  | createOperation level kd opParams force => exact preCreateOperation_othersFrame hc kd opParams force
  | importKey => exact .checked env
  | getKeyEntry kd =>
    have hmode (desc : KeyDescriptor) : OthersFrame v d (d.preGetKeyEntryByMode env v desc).1 := by
      refine (OthersFrame.checked env).trans ?_
      unfold preGetKeyEntryByMode rejectHistoricalOwners
      dsimp only
      repeat' split
      all_goals exact .of_owners rfl rfl rfl rfl
    show OthersFrame v d (d.preGetKeyEntry env v kd).1
    unfold preGetKeyEntry
    repeat' split
    all_goals first | exact .of_owners rfl rfl rfl rfl | exact hmode _
  | listEntries =>
    show OthersFrame v d (d.preListEntries env v).1
    unfold preListEntries
    split
    · exact .checked env
    · exact .of_owners rfl rfl rfl rfl
  | _ =>
    dsimp only [onPreTransact, preDeleteKey, preUpdateSubcomponent, preGrant, forgeGrant, preUngrant]
    repeat' split
    all_goals exact .of_owners rfl rfl rfl rfl

theorem postGenerateKey_othersFrame (kd : Option KeyDescriptor) (reply : Option Parcel) :
    OthersFrame v d (d.postGenerateKey P env level v kd reply).1 := by
  rcases postGenerateKey_cases P env v level d kd reply with hd | ⟨a, -, hd⟩
  · rw [hd]
    exact .of_owners rfl rfl rfl rfl
  · have htaken : OthersFrame v d (d.takeMark level ⟨v, a⟩) := .takeMark rfl
    rcases hd with hd | ⟨m, hd⟩ | ⟨m, chain, hd⟩
    · rw [hd]
      exact htaken
    · rw [hd]
      exact htaken.trans (.of_owners rfl rfl rfl rfl)
    · rw [hd]
      refine htaken.trans ?_
      unfold patchGenerateKeyReply
      dsimp only
      split_ifs
      · exact (OthersFrame.resolved env).trans (.of_owners rfl rfl rfl rfl)
      · exact .of_owners rfl rfl rfl rfl

theorem post_othersFrame (request : Request) (resultCode : Int) (reply : Option Parcel) :
    OthersFrame v d (d.post P env v request resultCode reply).1 := by
  suffices OthersFrame v d (d.onPostTransact P env v request resultCode reply).1 from
    this.trans (.of_owners rfl rfl rfl rfl)
  unfold onPostTransact
  split
  · exact postGenerateKey_othersFrame _ _
  · unfold postImportKey
    split <;> exact .of_owners rfl rfl rfl rfl
  · unfold postDeleteKey
    repeat' split
    all_goals exact .of_owners rfl rfl rfl rfl
  · unfold postUpdateSubcomponent
    repeat' split
    all_goals exact .of_owners rfl rfl rfl rfl
  · unfold postGrant
    repeat' split
    all_goals exact .of_owners rfl rfl rfl rfl
  · unfold postGetKeyEntry
    split
    · exact .of_owners rfl rfl rfl rfl
    · refine (OthersFrame.checked env).trans ?_
      unfold patchLeaf
      dsimp only
      repeat' split
      all_goals exact .of_owners rfl rfl rfl rfl
  · unfold postListEntries
    split
    · exact .checked env
    · exact .of_owners rfl rfl rfl rfl
  · exact .of_owners rfl rfl rfl rfl

end Daemon

end TrickyStore
