import TrickyStore.Proof.GenerateKey

/-!
# The pairing of the `generateKey` hooks

The pre-hook of a passthrough route leaves a mark for its key, and the post-hook that finds the mark
takes it and treats its own request as passthrough.  The mark names the key, not the request, so
the two hooks stay paired only while requests for one key do not overlap with a marked one.
-/

open Lib

namespace TrickyStore

/-- The key that a `generateKey` request is about. -/
def Request.generatedKey (uid : Int) : Request → Option (SecurityLevel × Key)
  | .generateKey level kd _ _ => (kd.bind KeyDescriptor.keyAlias).map fun a => (level, ⟨uid, a⟩)
  | _ => none

def Transaction.generatedKey (t : Transaction) : Option (SecurityLevel × Key) :=
  t.request.generatedKey t.uid

namespace World

variable (P : Platform) (w : World)

/-- The post-hook treats its request as passthrough exactly if the pre-hook of the same request
selected that route. -/
def Paired : Event → Prop
  | .complete id _ reply _ => ∀ t level k, w.inFlight.lookup id = some t →
      t.generatedKey = some (level, k) →
        ((reply.isSome && w.daemon.treatsAsPassthrough level k) = true ↔
          t.route = some .passthroughRealTee)
  | _ => True

/-- A passthrough request finds no other `generateKey` of its key between its hooks, another
forwarded one finds no mark of its key, and the reply to a passthrough request has data. -/
def NoOverlap : Event → Prop
  | .arrive _ uid request env => ∀ level k r, request.generatedKey uid = some (level, k) →
      w.daemon.requestRoute P env uid request = some r →
        (r = .passthroughRealTee → ∀ id t, w.inFlight.lookup id = some t →
          t.generatedKey ≠ some (level, k)) ∧
        (r.isForward = true → w.daemon.treatsAsPassthrough level k = false)
  | .complete id _ reply _ => ∀ t, w.inFlight.lookup id = some t →
      t.route = some .passthroughRealTee → reply.isSome = true
  | _ => True

/-- A request between its hooks is of the passthrough route exactly if its key is marked, and then it
is the only one for the key. -/
structure MarksMatch : Prop where
  route : ∀ id t level k, w.inFlight.lookup id = some t → t.generatedKey = some (level, k) →
    (w.daemon.treatsAsPassthrough level k = true ↔ t.route = some .passthroughRealTee)
  single : ∀ id t id' t' level k, w.inFlight.lookup id = some t →
    t.generatedKey = some (level, k) → w.inFlight.lookup id' = some t' →
      t'.generatedKey = some (level, k) → w.daemon.treatsAsPassthrough level k = true → id = id'

end World

/-! ## What the hooks do to the marks -/

namespace Daemon

variable {P : Platform} {env : Env} {uid : Int} {d : Daemon} {level : SecurityLevel} {k : Key}
  {request : Request}

variable (P env uid d request) in
/-- A request without forwarding route leaves the marks alone; a `generateKey` is not forwarded. -/
theorem pre_pending_of_not_forwarded
    (h : ∀ r, d.requestRoute P env uid request = some r → r = .generate) :
    ((d.pre P env uid request).2 = .Continue → request.generatedKey uid = none) ∧
      (d.pre P env uid request).1.pendingPassthroughKeys = d.pendingPassthroughKeys := by
  show _ ∧ (d.onPreTransact P env uid request).1.pendingPassthroughKeys = _
  cases request with
  | generateKey level kd ak params =>
    obtain ⟨hcont, hpending⟩ := preGenerateKey_of_not_forwarded level h
    exact ⟨fun h => absurd h hcont, hpending⟩
  | createOperation level kd opParams force =>
    rcases preCreateOperation_fst P env uid d kd opParams force with h | ⟨op, h⟩
    all_goals exact ⟨fun _ => rfl, by rw [onPreTransact, h]⟩
  | _ => exact ⟨fun _ => rfl, (onPreTransact_kept P env uid d (by simp) (by simp)).1⟩

/-- A forwarded `generateKey` marks its key exactly on the passthrough route. -/
theorem pre_pending_of_route {r : Route} (h : d.requestRoute P env uid request = some r)
    (hr : r ≠ .generate) :
    ∃ level k, request.generatedKey uid = some (level, k) ∧
      (d.pre P env uid request).2 = .Continue ∧
      (d.pre P env uid request).1.pendingPassthroughKeys =
        if r = .passthroughRealTee then d.pendingPassthroughKeys.insert (level, k) true
        else d.pendingPassthroughKeys := by
  cases request with
  | generateKey level kd ak params =>
    by_cases hp : r = .passthroughRealTee
    · obtain ⟨a, ha, hcont, -, -, hpending⟩ := preGenerateKey_of_passthrough level (hp ▸ h)
      refine ⟨level, ⟨uid, a⟩, by simp [Request.generatedKey, ha], hcont, ?_⟩
      rw [if_pos hp]
      exact hpending
    · obtain ⟨a, ha, hcont, -, -, hpending⟩ := preGenerateKey_of_forward level h
        (by cases r <;> simp_all [Route.isForward])
      refine ⟨level, ⟨uid, a⟩, by simp [Request.generatedKey, ha], hcont, ?_⟩
      rw [if_neg hp]
      exact hpending
  | _ => cases h

variable (P env uid d request) in
/-- Only the post-hook of a `generateKey` takes a mark, that of its key. -/
theorem post_pending (resultCode : Int) (reply : Option Parcel) :
    (d.post P env uid request resultCode reply).1.pendingPassthroughKeys =
      match reply, request.generatedKey uid with
      | some _, some s => d.pendingPassthroughKeys.erase s
      | _, _ => d.pendingPassthroughKeys := by
  show (d.onPostTransact P env uid request resultCode reply).1.pendingPassthroughKeys = _
  cases request with
  | generateKey level kd ak params =>
    cases reply with
    | none => rfl
    | some p =>
      cases ha : kd.bind KeyDescriptor.keyAlias with
      | none => simp [onPostTransact, postGenerateKey, Request.generatedKey, ha]
      | some a =>
        rw [onPostTransact, postGenerateKey_pending ha]
        simp [Request.generatedKey, ha]
  | _ =>
    cases reply with
    | none => dsimp only [onPostTransact, postImportKey, Option.bind_none, Request.generatedKey]
    | some p =>
      dsimp only [onPostTransact, postImportKey, postDeleteKey, postUpdateSubcomponent, postGrant,
        postGetKeyEntry, patchLeaf, postListEntries, Request.generatedKey]
      repeat' split
      all_goals rfl

theorem operate_pending {op : ℕ} {call : SoftwareOperationBinder.Call} :
    (d.operate op call).pendingPassthroughKeys = d.pendingPassthroughKeys := by
  unfold operate
  split <;> rfl

theorem loadPersistedKeys_pending :
    (d.loadPersistedKeys P env level).pendingPassthroughKeys = d.pendingPassthroughKeys :=
  loadPersistedKeys_invariant
    (I := fun d' => d'.pendingPassthroughKeys = d.pendingPassthroughKeys) rfl fun _ _ _ h => h

theorem initializeConfig_pending {modes : Option (HashMap String Mode)}
    {keyboxes : Option (HashMap String KeyBox)} :
    (d.initializeConfig modes keyboxes).pendingPassthroughKeys = d.pendingPassthroughKeys := by
  cases modes <;> cases keyboxes <;> rfl

end Daemon

/-! ## Runs -/

namespace World

variable {P : Platform} {w w' : World}

theorem treatsAsPassthrough_insert {d d' : Daemon} {level level' : SecurityLevel} {k k' : Key}
    (h : d'.pendingPassthroughKeys = d.pendingPassthroughKeys.insert (level, k) true) :
    d'.treatsAsPassthrough level' k' = true ↔
      (level', k') = (level, k) ∨ d.treatsAsPassthrough level' k' = true := by
  simp only [Daemon.treatsAsPassthrough, h, HashMap.lookup_insert_ite, decide_eq_true_eq]
  split_ifs with hs <;> simp [hs]

theorem treatsAsPassthrough_erase {d d' : Daemon} {level level' : SecurityLevel} {k k' : Key}
    (h : d'.pendingPassthroughKeys = d.pendingPassthroughKeys.erase (level, k)) :
    d'.treatsAsPassthrough level' k' = true ↔
      (level', k') ≠ (level, k) ∧ d.treatsAsPassthrough level' k' = true := by
  simp only [Daemon.treatsAsPassthrough, h, HashMap.lookup_erase_ite, decide_eq_true_eq]
  split_ifs with hs <;> simp [hs]

/-- The marks keep matching when requests only end and no mark changes. -/
theorem MarksMatch.of_pending (h : w.MarksMatch)
    (hp : w'.daemon.pendingPassthroughKeys = w.daemon.pendingPassthroughKeys)
    (hs : ∀ id t, w'.inFlight.lookup id = some t → w.inFlight.lookup id = some t) :
    w'.MarksMatch := by
  have hmark (level : SecurityLevel) (k : Key) :
      w'.daemon.treatsAsPassthrough level k = w.daemon.treatsAsPassthrough level k :=
    Daemon.treatsAsPassthrough_congr hp
  refine ⟨fun id t level k ht hk => ?_, fun id t id' t' level k ht hk ht' hk' hm => ?_⟩
  · rw [hmark]
    exact h.route id t level k (hs id t ht) hk
  · rw [hmark] at hm
    exact h.single id t id' t' level k (hs id t ht) hk (hs id' t' ht') hk' hm

/-- A new request whose key is marked exactly on the passthrough route, and was not before. -/
theorem MarksMatch.insert {id : ℕ} {uid : Int} {request : Request} {r : Route}
    {level : SecurityLevel} {k : Key} (h : w.MarksMatch)
    (hk : request.generatedKey uid = some (level, k))
    (hp : w'.daemon.pendingPassthroughKeys =
      if r = .passthroughRealTee then w.daemon.pendingPassthroughKeys.insert (level, k) true
      else w.daemon.pendingPassthroughKeys)
    (hi : w'.inFlight = w.inFlight.insert id ⟨uid, request, some r⟩)
    (hpass : r = .passthroughRealTee → ∀ id t, w.inFlight.lookup id = some t →
      t.generatedKey ≠ some (level, k))
    (hforward : r ≠ .passthroughRealTee → w.daemon.treatsAsPassthrough level k = false) :
    w'.MarksMatch := by
  have hmark (level' : SecurityLevel) (k' : Key) :
      w'.daemon.treatsAsPassthrough level' k' = true ↔
        (r = .passthroughRealTee ∧ (level', k') = (level, k)) ∨
          w.daemon.treatsAsPassthrough level' k' = true := by
    split_ifs at hp with hr
    · rw [treatsAsPassthrough_insert hp]
      simp [hr]
    · rw [Daemon.treatsAsPassthrough_congr hp]
      simp [hr]
  have hcase {id' : ℕ} {t' : Transaction} (h : w'.inFlight.lookup id' = some t') :
      (id' = id ∧ t' = ⟨uid, request, some r⟩) ∨ w.inFlight.lookup id' = some t' := by
    rw [hi, HashMap.lookup_insert_eq_some] at h
    rcases h with ⟨h, rfl⟩ | ⟨-, h⟩
    · exact .inl ⟨h, rfl⟩
    · exact .inr h
  refine ⟨fun id₁ t₁ l₁ k₁ ht hk₁ => ?_, fun id₁ t₁ id₂ t₂ l₁ k₁ ht hk₁ ht' hk₂ hm => ?_⟩
  · rw [hmark]
    rcases hcase ht with ⟨rfl, rfl⟩ | ht
    · obtain ⟨rfl, rfl⟩ := Prod.mk.inj (Option.some.inj (hk.symm.trans hk₁))
      by_cases hr : r = .passthroughRealTee
      · simp [hr]
      · simp [hr, hforward hr]
    · rw [h.route _ _ _ _ ht hk₁]
      refine ⟨fun hor => hor.resolve_left ?_, .inr⟩
      rintro ⟨hr, hs⟩
      exact hpass hr _ _ ht (hs ▸ hk₁)
  · -- the other requests of a marked key are ruled out by the side conditions on the new one
    have hnew {id' : ℕ} {t' : Transaction} (ht : w.inFlight.lookup id' = some t')
        (hk' : t'.generatedKey = some (l₁, k₁)) (hs : (l₁, k₁) = (level, k)) : False := by
      obtain ⟨rfl, rfl⟩ := Prod.mk.inj hs
      rcases (hmark _ _).1 hm with ⟨hr, -⟩ | hm
      · exact hpass hr _ _ ht hk'
      · by_cases hr : r = .passthroughRealTee
        · exact hpass hr _ _ ht hk'
        · simp [hforward hr] at hm
    rcases hcase ht with ⟨rfl, rfl⟩ | ht <;> rcases hcase ht' with ⟨rfl, rfl⟩ | ht'
    · rfl
    · exact (hnew ht' hk₂ (Option.some.inj (hk₁.symm.trans hk))).elim
    · exact (hnew ht hk₁ (Option.some.inj (hk₂.symm.trans hk))).elim
    · refine h.single _ _ _ _ _ _ ht hk₁ ht' hk₂ (((hmark _ _).1 hm).resolve_left ?_)
      rintro ⟨-, hs⟩
      exact hnew ht hk₁ hs

theorem MarksMatch.arrive {id : ℕ} {uid : Int} {request : Request} {env : Env} (h : w.MarksMatch)
    (hc : w.NoOverlap P (.arrive id uid request env)) :
    (w.arrive P id uid request env).MarksMatch := by
  unfold World.arrive
  split_ifs
  · exact h
  · by_cases hroute : ∃ r, w.daemon.requestRoute P env uid request = some r ∧ r ≠ .generate
    · obtain ⟨r, hr, hne⟩ := hroute
      obtain ⟨level, k, hk, hcont, hpending⟩ := Daemon.pre_pending_of_route hr hne
      obtain ⟨hpass, hforward⟩ := hc level k r hk hr
      simp only [hcont, hr]
      exact h.insert hk hpending rfl hpass fun hp =>
        hforward (by cases r <;> simp_all [Route.isForward])
    · obtain ⟨hcont, hpending⟩ := Daemon.pre_pending_of_not_forwarded P env uid w.daemon
        request fun r hr =>
          by_contra fun hne => hroute ⟨r, hr, hne⟩
      dsimp only
      split
      · next hres =>
        have hk := hcont hres
        have hnew {id' : ℕ} {t' : Transaction} {s : SecurityLevel × Key}
            (ht : AList.lookup id' (w.inFlight.insert id ⟨uid, request,
              w.daemon.requestRoute P env uid request⟩) = some t')
            (hk' : t'.generatedKey = some s) : w.inFlight.lookup id' = some t' := by
          rcases HashMap.lookup_insert_eq_some.1 ht with ⟨-, rfl⟩ | ⟨-, ht⟩
          · cases hk.symm.trans hk'
          · exact ht
        have h' : (w.withDaemon (w.daemon.pre P env uid request).1).MarksMatch :=
          h.of_pending hpending fun _ _ ht => ht
        exact ⟨fun id t level k ht hk => h'.route id t level k (hnew ht hk) hk,
          fun id t id' t' level k ht hk ht' hk' hm =>
            h'.single id t id' t' level k (hnew ht hk) hk (hnew ht' hk') hk' hm⟩
      · exact h.of_pending hpending fun _ _ ht => ht

theorem MarksMatch.complete {id : ℕ} {resultCode : Int} {reply : Option Parcel} {env : Env}
    (h : w.MarksMatch) : (w.complete P id resultCode reply env).MarksMatch := by
  unfold World.complete
  split
  · exact h
  · next t ht =>
    have hold {id' : ℕ} {t' : Transaction} (h : AList.lookup id' (w.inFlight.erase id) = some t') :
        id' ≠ id ∧ w.inFlight.lookup id' = some t' := HashMap.lookup_erase_eq_some.1 h
    have hpost := Daemon.post_pending P env t.uid w.daemon t.request resultCode reply
    split at hpost
    · next s hk =>
      obtain ⟨level, k⟩ := s
      refine ⟨fun id₁ t₁ l₁ k₁ ht₁ hk₁ => ?_, fun id₁ t₁ id₂ t₂ l₁ k₁ ht₁ hk₁ ht₂ hk₂ hm => ?_⟩
      · rw [treatsAsPassthrough_erase hpost, ← h.route _ _ _ _ (hold ht₁).2 hk₁]
        refine ⟨fun hm => hm.2, fun hm => ⟨fun hs => (hold ht₁).1 ?_, hm⟩⟩
        exact h.single _ _ _ _ _ _ (hold ht₁).2 hk₁ ht (hs ▸ hk) hm
      · exact h.single _ _ _ _ _ _ (hold ht₁).2 hk₁ (hold ht₂).2 hk₂
          ((treatsAsPassthrough_erase hpost).1 hm).2
    · exact h.of_pending hpost fun _ _ ht => (hold ht).2

theorem MarksMatch.next {e : Event} (h : w.MarksMatch) (hc : w.NoOverlap P e) :
    (w.next P e).MarksMatch := by
  cases e with
  | arrive => exact h.arrive hc
  | complete => exact h.complete
  | abandon => exact h.of_pending rfl fun _ _ ht => (HashMap.lookup_erase_eq_some.1 ht).2
  | operate => exact h.of_pending Daemon.operate_pending fun _ _ ht => ht
  | restart => exact ⟨fun _ _ _ _ ht => (by cases ht), fun _ _ _ _ _ _ ht => (by cases ht)⟩
  | loadPersistedKeys =>
    dsimp only [World.next]
    split_ifs
    · exact h.of_pending Daemon.loadPersistedKeys_pending fun _ _ ht => ht
    · exact h
  | initializeConfig =>
    dsimp only [World.next]
    split_ifs
    · exact h.of_pending Daemon.initializeConfig_pending fun _ _ ht => ht
    · exact h
  | _ => exact h.of_pending rfl fun _ _ ht => ht

theorem MarksMatch.paired {e : Event} (h : w.MarksMatch) (hc : w.NoOverlap P e) : w.Paired e := by
  cases e with
  | complete id resultCode reply env =>
    intro t level k ht hk
    rw [Bool.and_eq_true, h.route id t level k ht hk]
    exact ⟨fun hm => hm.2, fun hr => ⟨hc t ht hr, hr⟩⟩
  | _ => trivial

/-- In a run without overlap every post-hook is paired with the pre-hook of its own request. -/
theorem paired_of_noOverlap (P : Platform) (es : List Event)
    (h : Machine.AllSteps (World.next P) (NoOverlap P) {} es) :
    Machine.AllSteps (World.next P) Paired {} es :=
  h.ensures (I := MarksMatch)
    ⟨fun _ _ _ _ ht => (by cases ht), fun _ _ _ _ _ _ ht => (by cases ht)⟩
    (fun _ _ hw hc => hw.next hc) fun _ _ hw hc => hw.paired hc

end World

namespace Demo

/-- The owner asks for an attested key under the alias, as the request `id`. -/
def arrival (id : ℕ) : Event := .arrive id owner (generate ecParams) (env 5)

/-- The request `id` made the key 9. -/
def completion (id : ℕ) : Event := .complete id 0 (some (created 9 (some [10]))) (env 6)

/-- A passthrough request, a change of the mode, then a request to re-sign. -/
def oneAfterAnother : List Event :=
  start .AUTO .AUTO ++
    [arrival 1, completion 1, .targetChanged (modes .LEAF_HACK .AUTO), arrival 2, completion 2]

/-- Two passthrough requests for one key between their hooks. -/
def overlapping : List Event :=
  start .AUTO .AUTO ++ [arrival 1, arrival 2, completion 1, completion 2]

end Demo

namespace World

open Demo

theorem paired_oneAfterAnother :
    Machine.AllSteps (World.next platform) Paired {} oneAfterAnother := by
  have harrive {w : World} {id : ℕ} (hi : w.inFlight = ∅)
      (hm : w.daemon.treatsAsPassthrough .trustedEnvironment key = false) :
      w.NoOverlap platform (arrival id) := by
    intro level k r hk _
    obtain ⟨rfl, rfl⟩ := Prod.mk.inj (Option.some.inj hk)
    refine ⟨fun _ id t ht => ?_, fun _ => hm⟩
    rw [hi] at ht
    cases ht
  have hcomplete {w : World} {id : ℕ} : w.NoOverlap platform (completion id) := fun _ _ _ => rfl
  refine paired_of_noOverlap platform oneAfterAnother ?_
  refine Machine.allSteps_cons trivial (Machine.allSteps_cons (harrive rfl rfl) ?_)
  refine Machine.allSteps_cons hcomplete (Machine.allSteps_cons trivial ?_)
  refine Machine.allSteps_cons (harrive (by rfl) (by decide)) ?_
  exact Machine.allSteps_cons hcomplete Machine.allSteps_nil

/-- The first post-hook takes the mark of both requests, so the second one, on the passthrough route
too, re-signs its reply. -/
theorem overlapping_requests_share_mark :
    ¬ ∀ P es, Machine.AllSteps (World.next P) Paired {} es := by
  intro h
  have hpaired := h platform overlapping (start .AUTO .AUTO ++ [arrival 1, arrival 2, completion 1])
    (completion 2) [] rfl ⟨owner, generate ecParams, some .passthroughRealTee⟩ .trustedEnvironment key
    (by decide) rfl
  exact absurd (hpaired.2 rfl) (by decide)

end World

end TrickyStore
