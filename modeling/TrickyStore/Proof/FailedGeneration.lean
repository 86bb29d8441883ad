import TrickyStore.Proof.AloofHooks
import TrickyStore.Proof.DeletedKeys

/-!
# Failed generations

The pre-hook of `generateKey` drops what is cached for the alias before it knows whether the real
keystore makes the key: on the passthrough route everything, on the leaf routes the mark of a forged key.
A request that fails leaves everything as it was exactly where there was nothing to drop.
-/

open Lib

namespace TrickyStore

open CertificateAliasCache

/-- The cache, the registry, and the files once the pending tasks have run look the same. -/
structure Daemon.Unchanged (d d' : Daemon) : Prop where
  owners : d.OwnersSame d'
  files : ∀ k, d'.persistence.settled.lookup k = d.persistence.settled.lookup k

/-- The cache after a route has dropped what it drops of the key. -/
def CertificateAliasCache.dropped (c : CertificateAliasCache) (k : Key) : Route → CertificateAliasCache
  | .passthroughRealTee => c.clear k
  | .generate | .forwardSymmetric | .forwardPlainAsymmetric => c
  | _ => { c with skipLeafHacks := c.skipLeafHacks.erase k }

namespace Daemon

variable (P : Platform) (d : Daemon)

/-- The route finds nothing of the key to drop. -/
def DropsNothing (k : Key) : Route → Prop
  | .passthroughRealTee => d.cache.Lacks k
  | .generate | .forwardSymmetric | .forwardPlainAsymmetric => True
  | _ => d.cache.skipLeafHacks.lookup k = none

/-- A failed request on the route keeps everything.  A reply with metadata fails only by the status of its
transaction; it promotes a marked key all the same, which then has been promoted before. -/
def KeepsOnFailure (level : SecurityLevel) (k : Key) (reply : Option Parcel) (r : Route) : Prop :=
  match reply.bind Parcel.keyMetadata with
  | none => d.DropsNothing k r
  | some m =>
    if r = .passthroughRealTee ∨ d.treatsAsPassthrough level k = true then
      d.Promoted k ((m.bind KeyMetadata.key).map KeyDescriptor.nspace) ∧ d.persistence.settled.lookup k = none
    else d.DropsNothing k r

end Daemon

/-- Every route that forwards the request keeps everything when it fails. -/
def Exchange.FailsCleanly (P : Platform) (x : Exchange) (d : Daemon) : Prop :=
  ∀ level kd ak params k r, x.request = .generateKey level kd ak params → x.namedKey = some k →
    d.generateKeyRoute P x.preEnv x.uid kd ak params = some r → r ≠ .generate →
      d.KeepsOnFailure level k x.reply r

namespace CertificateAliasCache

variable {c c' c'' : CertificateAliasCache} {k : Key} {n : Option Int} {r : Route}

theorem Same.trans (h : c.Same c') (h' : c'.Same c'') : c.Same c'' :=
  ⟨fun k => (h'.keys k).trans (h.keys k), fun k => (h'.keyPairs k).trans (h.keyPairs k),
    fun k => (h'.skipLeafHacks k).trans (h.skipLeafHacks k),
    fun n => (h'.keysByNspace n).trans (h.keysByNspace n),
    fun k => (h'.patchedResponses k).trans (h.patchedResponses k),
    fun n => (h'.grants n).trans (h.grants n),
    fun k => (h'.usageRemaining k).trans (h.usageRemaining k)⟩

theorem dropped_same_iff (d : Daemon) : d.cache.Same (d.cache.dropped k r) ↔ d.DropsNothing k r := by
  have hskipped : d.cache.Same { d.cache with skipLeafHacks := d.cache.skipLeafHacks.erase k } ↔
      d.cache.skipLeafHacks.lookup k = none := by
    rw [← erase_same_iff]
    exact ⟨fun h => h.skipLeafHacks, fun h => ⟨fun _ => rfl, fun _ => rfl, h, fun _ => rfl, fun _ => rfl,
      fun _ => rfl, fun _ => rfl⟩⟩
  cases r with
  | passthroughRealTee => exact clear_same_iff
  | generate | forwardSymmetric | forwardPlainAsymmetric => exact iff_of_true .refl trivial
  | leafForwardAttestation | leafForward | skip => exact hskipped

/-- What a route drops is cleared with the rest. -/
theorem clear_dropped_same : (c.clear k).Same ((c.dropped k r).clear k) := by
  have herase {V : Type} (m : HashMap Key V) (k' : Key) :
      (AList.erase k (AList.erase k m)).lookup k' = (AList.erase k m).lookup k' := by
    simp only [HashMap.lookup_erase_ite]
    split_ifs <;> rfl
  cases r with
  | passthroughRealTee =>
    refine ⟨herase c.keys, herase c.keyPairs, herase c.skipLeafHacks, fun m => ?_,
      herase c.patchedResponses, fun m => ?_, herase c.usageRemaining⟩
    · ext k'
      show ((c.clear k).clear k).keysByNspace.lookup m = some k' ↔ _
      rw [clear_keysByNspace_eq_some, clear_keys, AList.lookup_erase]
      simp only [reduceCtorEq, false_implies, implies_true, and_true]
      exact and_iff_left_of_imp fun h => (clear_keysByNspace_eq_some.1 h).2.1
    · ext g
      show ((c.clear k).clear k).grants.lookup m = some g ↔ _
      rw [clear_grants, HashMap.lookup_removeIf_eq_some]
      refine and_iff_left_of_imp fun h => ?_
      rw [clear_grants, HashMap.lookup_removeIf_eq_some] at h
      exact h.2
  | generate | forwardSymmetric | forwardPlainAsymmetric => exact .refl
  | leafForwardAttestation | leafForward | skip =>
    exact ⟨fun _ => rfl, fun _ => rfl, herase c.skipLeafHacks, fun _ => rfl, fun _ => rfl, fun _ => rfl,
      fun _ => rfl⟩

theorem Same.register (h : c.Same c') : (c.register k n).Same (c'.register k n) := by
  refine ⟨fun k' => ?_, fun k' => ?_, fun k' => ?_, fun m => ?_, fun k' => ?_, fun m => ?_, fun k' => ?_⟩
  · rw [register_keys, register_keys, h.keys]
  · rw [register_keyPairs, register_keyPairs, h.keyPairs]
  · rw [register_skipLeafHacks, register_skipLeafHacks, h.skipLeafHacks]
  · ext k'
    rw [register_keysByNspace_eq_some, register_keysByNspace_eq_some, h.keysByNspace]
  · rw [register_patchedResponses, register_patchedResponses, h.patchedResponses]
  · rw [register_grants, register_grants, h.grants]
  · rw [register_usageRemaining, register_usageRemaining, h.usageRemaining]

theorem dropped_promoted_same_iff :
    c.Same (((c.dropped k r).clear k).register k n) ↔ c.KnowsOnly k n := by
  have hsame : ((c.clear k).register k n).Same (((c.dropped k r).clear k).register k n) :=
    clear_dropped_same.register
  rw [← clear_register_same_iff]
  exact ⟨fun h => h.trans hsame.symm, fun h => h.trans hsame⟩

end CertificateAliasCache

namespace Daemon

variable {P : Platform} {d d' : Daemon} {x : Exchange} {k : Key} {env : Env} {uid : Int}
  {level : SecurityLevel} {kd ak : Option KeyDescriptor} {params : Option (List KeyParameter)} {r : Route}

/-! ## The hooks -/

/-- A request that the pre-hook answers or leaves alone changes nothing, unless a key is forged. -/
theorem preGenerateKey_answered (h : (d.preGenerateKey P env level uid kd ak params).2 ≠ .Continue) :
    ((d.preGenerateKey P env level uid kd ak params).1.cache = d.cache ∧
      (d.preGenerateKey P env level uid kd ak params).1.passthrough = d.passthrough ∧
      (d.preGenerateKey P env level uid kd ak params).1.persistence = d.persistence) ∨
    ∃ m, (d.preGenerateKey P env level uid kd ak params).2 = .typedReply m := by
  have houtcome := preGenerateKey_outcome P env uid level d kd ak params
  generalize d.preGenerateKey P env level uid kd ak params = outcome at houtcome h ⊢
  cases houtcome with
  | answered hlook =>
    obtain ⟨config, rfl⟩ := hlook.eq
    exact .inl ⟨rfl, rfl, rfl⟩
  | forged => exact .inr ⟨_, rfl⟩
  | forwarded => exact absurd rfl h

variable (level) in
/-- A request that is forwarded has lost what its route drops. -/
theorem preGenerateKey_dropped (hroute : d.generateKeyRoute P env uid kd ak params = some r)
    (hr : r ≠ .generate) :
    ∃ a, kd.bind KeyDescriptor.keyAlias = some a ∧
      (d.preGenerateKey P env level uid kd ak params).1.cache = d.cache.dropped ⟨uid, a⟩ r ∧
      (d.preGenerateKey P env level uid kd ak params).1.passthrough = d.passthrough ∧
      (d.preGenerateKey P env level uid kd ak params).1.persistence = d.persistence := by
  have houtcome := preGenerateKey_outcome P env uid level d kd ak params
  generalize d.preGenerateKey P env level uid kd ak params = outcome at houtcome ⊢
  cases houtcome with
  | answered _ _ hgenerate => exact absurd (hgenerate r hroute) hr
  | forged _ _ hcheck hselected =>
    exact absurd (Option.some.inj ((generateKeyRoute_of_check hcheck ▸ hroute).symm.trans hselected)) hr
  | forwarded hlook ha hroute' =>
    obtain ⟨config, rfl⟩ := hlook.eq
    cases hroute'.symm.trans hroute
    cases r <;> exact ⟨_, ha, rfl, rfl, rfl⟩

theorem Unchanged.of_owners (hc : d'.cache = d.cache) (hp : d'.passthrough = d.passthrough)
    (hf : d'.persistence = d.persistence) : d.Unchanged d' :=
  ⟨.of_owners hc hp, fun _ => by rw [hf]⟩

theorem unchanged_dropped_iff (hc : d'.cache = d.cache.dropped k r) (hp : d'.passthrough = d.passthrough)
    (hf : d'.persistence = d.persistence) : d.Unchanged d' ↔ d.DropsNothing k r := by
  rw [← dropped_same_iff, ← hc]
  exact ⟨fun h => h.owners.cache, fun h => ⟨⟨h, hp ▸ .refl⟩, fun _ => by rw [hf]⟩⟩

/-- A key that a failed transaction promotes has been promoted before. -/
theorem unchanged_promoted_iff {n : Option Int}
    (hc : d'.cache = ((d.cache.dropped k r).clear k).register k n)
    (hp : d'.passthrough = d.passthrough.promote k n) (hf : d'.persistence = d.persistence.deleteKey k) :
    d.Unchanged d' ↔ d.Promoted k n ∧ d.persistence.settled.lookup k = none := by
  unfold Promoted
  rw [← dropped_promoted_same_iff, ← PassthroughKeyRegistry.promote_same_iff, ← erase_same_iff, ← hc, ← hp,
    ← PersistenceManager.settled_deleteKey, ← hf]
  exact ⟨fun h => ⟨⟨h.owners.cache, h.owners.passthrough⟩, h.files⟩, fun h => ⟨⟨h.1.1, h.1.2⟩, h.2⟩⟩

/-- A reply that the post-hook does not re-sign promotes a marked key, and does nothing else. -/
theorem postGenerateKey_kept {p : Parcel} {a : String} (ha : kd.bind KeyDescriptor.keyAlias = some a)
    (h : ∀ m, (d.postGenerateKey P env level uid kd (some p)).2 ≠ .typedReply m) :
    (d.postGenerateKey P env level uid kd (some p)).2 = .Skip ∧
      (d.postGenerateKey P env level uid kd (some p)).1 =
        match p.keyMetadata with
        | none => d.takeMark level ⟨uid, a⟩
        | some m =>
          if d.treatsAsPassthrough level ⟨uid, a⟩ then
            (d.takeMark level ⟨uid, a⟩).promotePassthrough uid a m
          else d.takeMark level ⟨uid, a⟩ := by
  rw [postGenerateKey_eq ha] at h ⊢
  cases hm : p.keyMetadata with
  | none => exact ⟨rfl, rfl⟩
  | some m =>
    rw [hm] at h
    dsimp only at h ⊢
    by_cases hmarked : d.treatsAsPassthrough level ⟨uid, a⟩ = true
    · rw [if_pos hmarked, if_pos hmarked]
      exact ⟨rfl, rfl⟩
    · rw [if_neg hmarked] at h ⊢
      rw [if_neg hmarked]
      split
      · next m leaf hleaf =>
        simp only [hleaf] at h
        exact absurd rfl (h _)
      · exact ⟨rfl, rfl⟩

end Daemon

/-- For one route that forwards the request, what keeps everything is the condition of that route. -/
theorem Exchange.failsCleanly_iff {P : Platform} {d : Daemon} {x : Exchange} {level : SecurityLevel}
    {kd ak : Option KeyDescriptor} {params : Option (List KeyParameter)} {a : String} {r : Route}
    (hx : x.request = .generateKey level kd ak params) (ha : kd.bind KeyDescriptor.keyAlias = some a)
    (hroute : d.generateKeyRoute P x.preEnv x.uid kd ak params = some r) (hr : r ≠ .generate) :
    x.FailsCleanly P d ↔ d.KeepsOnFailure level ⟨x.uid, a⟩ x.reply r := by
  have hnamed : x.namedKey = some ⟨x.uid, a⟩ := Exchange.namedKey_of_request hx ha
  constructor
  · exact fun h => h level kd ak params _ r hx hnamed hroute hr
  · intro h level' kd' ak' params' k r' hx' hk hroute' _
    cases hx.symm.trans hx'
    cases hnamed.symm.trans hk
    cases hroute.symm.trans hroute'
    exact h

namespace Exchange

variable {P : Platform} {d : Daemon} {x : Exchange} {level : SecurityLevel} {kd ak : Option KeyDescriptor}
  {params : Option (List KeyParameter)}

/-- A request that is not forwarded and fails keeps everything, and has no route to drop anything. -/
theorem failedGeneration_answered (hx : x.request = .generateKey level kd ak params)
    (hfailed : (d.serve P x).2.succeeded = false)
    (hanswered : (d.preGenerateKey P x.preEnv level x.uid kd ak params).2 ≠ .Continue) :
    d.Unchanged (d.serve P x).1 ∧ x.FailsCleanly P d := by
  have hpre : x.preHook P d = ((d.preGenerateKey P x.preEnv level x.uid kd ak params).1.tick,
      (d.preGenerateKey P x.preEnv level x.uid kd ak params).2) := preHook_of_request d hx
  have hserve : (d.serve P x).1 = (x.preHook P d).1 := by
    rcases Daemon.serve_fst (P := P) (d := d) (x := x) with ⟨-, hs⟩ | ⟨hc, -⟩
    · exact hs
    · rw [hpre] at hc
      exact absurd hc hanswered
  rcases Daemon.preGenerateKey_answered hanswered with ⟨hcache, hpassthrough, hpersistence⟩ | ⟨m, hm⟩
  · rw [hserve, hpre]
    refine ⟨.of_owners hcache hpassthrough hpersistence, ?_⟩
    intro level' kd' ak' params' k r hx' _ hroute hr
    cases hx.symm.trans hx'
    exact absurd (Daemon.preGenerateKey_eq_continue_iff.2 ⟨r, hroute, hr⟩) hanswered
  · have hforged : (x.preHook P d).2 = .typedReply m := by rw [hpre, hm]
    rw [Daemon.serve_of_override hforged] at hfailed
    cases hfailed

/-- A request that is forwarded and fails keeps everything exactly on its route's condition. -/
theorem failedGeneration_forwarded_iff (hx : x.request = .generateKey level kd ak params)
    (hfailed : (d.serve P x).2.succeeded = false)
    (hcontinue : (d.preGenerateKey P x.preEnv level x.uid kd ak params).2 = .Continue) :
    d.Unchanged (d.serve P x).1 ↔ x.FailsCleanly P d := by
  have hpre : x.preHook P d = ((d.preGenerateKey P x.preEnv level x.uid kd ak params).1.tick,
      (d.preGenerateKey P x.preEnv level x.uid kd ak params).2) := preHook_of_request d hx
  obtain ⟨r, hroute, hr⟩ := Daemon.preGenerateKey_eq_continue_iff.1 hcontinue
  obtain ⟨a, ha, hcache, hpassthrough, hpersistence⟩ := Daemon.preGenerateKey_dropped level hroute hr
  have hcontinues : (x.preHook P d).2 = .Continue := by rw [hpre, hcontinue]
  have hpost := postHook_of_request (P := P) (x.preHook P d).1 hx
  rw [failsCleanly_iff hx ha hroute hr, Daemon.serve_of_continue hcontinues]
  unfold Daemon.KeepsOnFailure
  cases hreply : x.reply with
  | none =>
    rw [hreply] at hpost
    rw [hpost, hpre]
    exact Daemon.unchanged_dropped_iff hcache hpassthrough hpersistence
  | some p =>
    rw [hreply, hpre] at hpost
    obtain ⟨desc, rfl, hdesc⟩ := Option.bind_eq_some_iff.1 ha
    have hmark : _ ↔ _ ∨ d.treatsAsPassthrough level _ = true :=
      Daemon.treatsAsPassthrough_preGenerateKey hdesc hroute hr
    have hkept (m : KeyMetadata) : ((d.preGenerateKey P x.preEnv level x.uid (some desc) ak
        params).1.tick.postGenerateKey P x.postEnv level x.uid (some desc) (some p)).2 ≠ .typedReply m := by
      intro hm
      have hreplaced : (x.postHook P (x.preHook P d).1).2 = .typedReply m := by
        rw [hpre, hpost]
        exact hm
      rw [Daemon.serve_of_replaced hcontinues hreplaced] at hfailed
      cases hfailed
    obtain ⟨-, hstate⟩ := Daemon.postGenerateKey_kept ha hkept
    rw [hpre, hpost]
    simp only [Daemon.onPostTransact, hstate, Option.bind_some]
    cases hm : p.keyMetadata with
    | none => exact Daemon.unchanged_dropped_iff hcache hpassthrough hpersistence
    | some m =>
      dsimp only
      by_cases hmarked : (d.preGenerateKey P x.preEnv level x.uid (some desc) ak
          params).1.tick.treatsAsPassthrough level ⟨x.uid, a⟩ = true
      · rw [if_pos hmarked, if_pos (hmark.1 hmarked)]
        refine Daemon.unchanged_promoted_iff (r := r) ?_ ?_ ?_
        · exact congrArg (fun c => (CertificateAliasCache.clear c _).register _ _) hcache
        · exact congrArg (fun r => PassthroughKeyRegistry.promote r _ _) hpassthrough
        · exact congrArg (fun p => PersistenceManager.deleteKey p _) hpersistence
      · rw [if_neg hmarked, if_neg (mt hmark.2 hmarked)]
        exact Daemon.unchanged_dropped_iff hcache hpassthrough hpersistence

end Exchange

/-- A `generateKey` that fails changes nothing exactly if its route, when it forwards the request, has nothing
of the key to drop. -/
theorem failedGeneration_unchanged_iff (P : Platform) (d : Daemon) (x : Exchange)
    (hgenerate : x.request.isGenerateKey = true) (hfailed : (d.serve P x).2.succeeded = false) :
    d.Unchanged (d.serve P x).1 ↔ x.FailsCleanly P d := by
  cases hx : x.request with
  | generateKey level kd ak params =>
    by_cases hcontinue : (d.preGenerateKey P x.preEnv level x.uid kd ak params).2 = .Continue
    · exact Exchange.failedGeneration_forwarded_iff hx hfailed hcontinue
    · obtain ⟨hunchanged, hclean⟩ := Exchange.failedGeneration_answered hx hfailed hcontinue
      exact iff_of_true hunchanged hclean
  | _ =>
    rw [hx] at hgenerate
    cases hgenerate

/-! ## A refused key over a forged one -/

namespace Demo

/-- The real keystore refuses to create the key. -/
def refusal (params : List KeyParameter) : Exchange := creation params (some (Parcel.exception (-49) []))

/-- A key is forged for the owner, whose mode may then change. -/
def forgedThen (es : List Event) : List Event :=
  start .GENERATE .AUTO ++ [.arrive 0 owner (generate ecParams) (env 5)] ++ es

end Demo

open Demo in
/-- Under the same alias a symmetric key is refused. -/
theorem failedGeneration_unchanged_symmetric :
    let d := (World.run platform {} (forgedThen [])).daemon
    d.cache.keys.containsKey key = true ∧
      d.Unchanged (d.serve platform (refusal [⟨Tag.ALGORITHM, .algorithm Algorithm.AES⟩])).1 := by
  refine ⟨by decide, (failedGeneration_unchanged_iff platform _ _ rfl (by decide)).2 ?_⟩
  intro level kd ak params k r hx hk hroute _
  cases hx
  cases hk
  have hsymmetric : r = .forwardSymmetric := Option.some.inj (hroute.symm.trans (by decide))
  rw [hsymmetric]
  trivial

open Demo in
/-- The passthrough route drops the forged key, and the real keystore then makes none. -/
theorem refusal_drops_forged_key :
    ¬ ∀ P history (x : Exchange), x.request.isGenerateKey = true →
      let d := (World.run P {} history).daemon
      (d.serve P x).2.succeeded = false → d.Unchanged (d.serve P x).1 := by
  intro h
  have hkeys := (h platform (forgedThen [.targetChanged (modes .AUTO .AUTO)]) (refusal ecParams) rfl
    (by decide)).owners.cache.keys key
  exact absurd (congrArg Option.isSome hkeys) (by decide)

end TrickyStore
