import TrickyStore.Proof.StartingPhase

/-!
# One store for each key

A key is forged, re-signed or tracked.  Every hook that gives a key of the caller a new owner first
takes it away from the others.  The post-hook of `getKeyEntry` would store what it has re-signed under
the key that the id in the reply is registered for, whoever owns that key; but it has read the header
of the reply before, and takes the presence flag of the entry for an exception.
-/

open Lib

namespace TrickyStore

open CertificateAliasCache

/-- No key is in two of the stores. -/
structure Exclusive (c : CertificateAliasCache) (p : PassthroughKeyRegistry) : Prop where
  forgedPatched : ∀ k, ¬ (c.keys.containsKey k = true ∧ c.patchedResponses.containsKey k = true)
  forgedTracked : ∀ k, ¬ (c.keys.containsKey k = true ∧ p.isTracked k = true)
  patchedTracked : ∀ k, ¬ (c.patchedResponses.containsKey k = true ∧ p.isTracked k = true)

/-- The answer of a service to `getKeyEntry`: an exception, or the entry behind one header. -/
def Parcel.IsEntryReply (p : Parcel) : Prop :=
  p.readException = none ∨ ∃ r, p = .typedObject (.entry r)

/-- The real keystore answers `getKeyEntry` with an exception or an entry, of whatever key. -/
def World.EntryReplies (w : World) : Event → Prop
  | .complete id _ (some reply) _ => ∀ t kd, w.inFlight.lookup id = some t →
      t.request = .getKeyEntry kd → reply.IsEntryReply
  | _ => True

/-! ## The stores after one operation -/

namespace Exclusive

variable {c : CertificateAliasCache} {p : PassthroughKeyRegistry} {k : Key}

theorem empty : Exclusive {} {} := ⟨fun _ h => (by cases h.1), fun _ h => (by cases h.1),
  fun _ h => (by cases h.1)⟩

/-- The stores may gain the key `k`, as long as at most one of them has it. -/
theorem claim {c' : CertificateAliasCache} {p' : PassthroughKeyRegistry} (h : Exclusive c p) (k : Key)
    (hkeys : ∀ k', k' ≠ k → c'.keys.containsKey k' = true → c.keys.containsKey k' = true)
    (hpatched : ∀ k', k' ≠ k → c'.patchedResponses.containsKey k' = true →
      c.patchedResponses.containsKey k' = true)
    (htracked : ∀ k', k' ≠ k → p'.isTracked k' = true → p.isTracked k' = true)
    (hforgedPatched : ¬ (c'.keys.containsKey k = true ∧ c'.patchedResponses.containsKey k = true))
    (hforgedTracked : ¬ (c'.keys.containsKey k = true ∧ p'.isTracked k = true))
    (hpatchedTracked : ¬ (c'.patchedResponses.containsKey k = true ∧ p'.isTracked k = true)) :
    Exclusive c' p' := by
  refine ⟨fun k' => ?_, fun k' => ?_, fun k' => ?_⟩ <;> by_cases hk : k' = k
  · exact hk ▸ hforgedPatched
  · exact fun ⟨h₁, h₂⟩ => h.forgedPatched k' ⟨hkeys k' hk h₁, hpatched k' hk h₂⟩
  · exact hk ▸ hforgedTracked
  · exact fun ⟨h₁, h₂⟩ => h.forgedTracked k' ⟨hkeys k' hk h₁, htracked k' hk h₂⟩
  · exact hk ▸ hpatchedTracked
  · exact fun ⟨h₁, h₂⟩ => h.patchedTracked k' ⟨hpatched k' hk h₁, htracked k' hk h₂⟩

end Exclusive

section Stores

variable {c : CertificateAliasCache} {p : PassthroughKeyRegistry} {k k' : Key}

theorem containsKey_clear_keys :
    (c.clear k).keys.containsKey k' = true ↔ k' ≠ k ∧ c.keys.containsKey k' = true := by
  rw [clear_keys, HashMap.containsKey_erase]
  split_ifs with h <;> simp [h]

theorem containsKey_clear_patchedResponses :
    (c.clear k).patchedResponses.containsKey k' = true ↔
      k' ≠ k ∧ c.patchedResponses.containsKey k' = true := by
  rw [clear_patchedResponses, HashMap.containsKey_erase]
  split_ifs with h <;> simp [h]

theorem isTracked_promote_iff {n : Option Int} :
    (p.promote k n).isTracked k' = true ↔ k' = k ∨ p.isTracked k' = true := by
  show HashMap.containsKey (AList.insert k () p.tracked) k' = true ↔ _
  rw [HashMap.containsKey_insert]
  split_ifs with h <;> simp [h, PassthroughKeyRegistry.isTracked]

variable {publicCert certificateChain : Option Bytes}

theorem containsKey_updateKeyCertChain_keys :
    (c.updateKeyCertChain k publicCert certificateChain).keys.containsKey k' =
      c.keys.containsKey k' := by
  rw [HashMap.containsKey, updateKeyCertChain_keys_lookup, Option.isSome_map]
  rfl

theorem containsKey_updateKeyCertChain_patchedResponses :
    (c.updateKeyCertChain k publicCert certificateChain).patchedResponses.containsKey k' =
      c.patchedResponses.containsKey k' := by
  rw [HashMap.containsKey, updateKeyCertChain_patchedResponses_lookup, Option.isSome_map]
  rfl

end Stores

theorem Exclusive.clear {c : CertificateAliasCache} {p : PassthroughKeyRegistry} {k : Key}
    (h : Exclusive c p) : Exclusive (c.clear k) p where
  forgedPatched := fun k' ⟨h₁, h₂⟩ => h.forgedPatched k'
    ⟨(containsKey_clear_keys.1 h₁).2, (containsKey_clear_patchedResponses.1 h₂).2⟩
  forgedTracked := fun k' ⟨h₁, h₂⟩ => h.forgedTracked k' ⟨(containsKey_clear_keys.1 h₁).2, h₂⟩
  patchedTracked := fun k' ⟨h₁, h₂⟩ =>
    h.patchedTracked k' ⟨(containsKey_clear_patchedResponses.1 h₁).2, h₂⟩

/-- Every hook keeps the stores exclusive, unless it re-signs for a key that has another owner. -/
theorem HookStep.exclusive {uid : Int} {request : Request} {now : ℕ} {ids : Int → Prop}
    {c c' : CertificateAliasCache} {p p' : PassthroughKeyRegistry}
    (h : HookStep uid request now ids c p c' p') (hc : Exclusive c p)
    (hread : ∀ kd, request ≠ .getKeyEntry kd) : Exclusive c' p' := by
  have hclear {k k' : Key} (h : (c.clear k).keys.containsKey k' = true) :
      c.keys.containsKey k' = true := (containsKey_clear_keys.1 h).2
  have hclear' {k k' : Key} (h : (c.clear k).patchedResponses.containsKey k' = true) :
      c.patchedResponses.containsKey k' = true := (containsKey_clear_patchedResponses.1 h).2
  have hremove {k k' : Key} (h : (p.remove k).isTracked k' = true) : p.isTracked k' = true :=
    (PassthroughKeyRegistry.isTracked_remove_iff.1 h).2
  have hkeysGone (k : Key) : ¬ (c.clear k).keys.containsKey k = true :=
    fun h => (containsKey_clear_keys.1 h).1 rfl
  have hpatchedGone (k : Key) : ¬ (c.clear k).patchedResponses.containsKey k = true :=
    fun h => (containsKey_clear_patchedResponses.1 h).1 rfl
  have htrackedGone (k : Key) : ¬ (p.remove k).isTracked k = true :=
    fun h => (PassthroughKeyRegistry.isTracked_remove_iff.1 h).1 rfl
  cases h with
  | unchanged | unskipped | regranted | granted | ungranted =>
    exact ⟨hc.forgedPatched, hc.forgedTracked, hc.patchedTracked⟩
  | cleared => exact hc.clear
  | relinquished a =>
    exact hc.claim ⟨uid, a⟩ (fun _ _ => hclear) (fun _ _ => hclear') (fun _ _ => hremove)
      (fun h => hkeysGone _ h.1) (fun h => hkeysGone _ h.1) fun h => hpatchedGone _ h.1
  | generated a info pair chain n skip =>
    refine hc.claim ⟨uid, a⟩ (fun k' hk h => ?_) (fun _ _ => hclear') (fun _ _ => hremove)
      (fun h => hpatchedGone _ h.2) (fun h => htrackedGone _ h.2) fun h => htrackedGone _ h.2
    simp only [storeGenerated, HashMap.containsKey_insert, if_neg hk] at h
    exact hclear h
  | patched a r =>
    simp only [storePatched]
    refine hc.claim ⟨uid, a⟩ (fun k' hk h => ?_) (fun k' hk h => ?_) (fun _ _ => hremove)
      (fun h => ?_) (fun h => htrackedGone _ h.2) fun h => htrackedGone _ h.2
    · rw [register_keys] at h
      exact hclear h
    · rw [register_patchedResponses, HashMap.containsKey_insert, if_neg hk] at h
      exact hclear' h
    · rw [register_keys] at h
      exact hkeysGone _ h.1
  | promoted a n =>
    refine hc.claim ⟨uid, a⟩ (fun k' hk h => ?_) (fun k' hk h => ?_)
      (fun k' hk h => (isTracked_promote_iff.1 h).resolve_left hk) (fun h => ?_) (fun h => ?_)
      fun h => ?_
    · rw [register_keys] at h
      exact hclear h
    · rw [register_patchedResponses] at h
      exact hclear' h
    · rw [register_keys] at h
      exact hkeysGone _ h.1
    · rw [register_keys] at h
      exact hkeysGone _ h.1
    · rw [register_patchedResponses] at h
      exact hpatchedGone _ h.1
  | updated k =>
    refine ⟨fun k' => ?_, fun k' => ?_, fun k' => ?_⟩
    · rw [containsKey_updateKeyCertChain_keys, containsKey_updateKeyCertChain_patchedResponses]
      exact hc.forgedPatched k'
    · rw [containsKey_updateKeyCertChain_keys]
      exact hc.forgedTracked k'
    · rw [containsKey_updateKeyCertChain_patchedResponses]
      exact hc.patchedTracked k'
  | resigned _ _ _ kd hrequest => exact absurd hrequest (hread kd)

/-! ## Runs -/

namespace Daemon

variable {P : Platform} {env : Env} {uid : Int} {d : Daemon}

variable (P env uid d) in
/-- Behind the header, the presence flag of the entry reads as an exception: nothing is re-signed. -/
theorem postGetKeyEntry_owners (kd : Option KeyDescriptor) {reply : Parcel}
    (h : reply.IsEntryReply) :
    (d.postGetKeyEntry env uid P kd reply).1.cache = d.cache ∧
      (d.postGetKeyEntry env uid P kd reply).1.passthrough = d.passthrough := by
  unfold postGetKeyEntry
  rcases h with h | ⟨r, rfl⟩
  · rw [h]
    exact ⟨rfl, rfl⟩
  · have hheader : Parcel.readException (.typedObject (.entry r)) = some [.int 1, .entry r] := rfl
    have hflag : Parcel.readException [.int 1, .entry r] = none := rfl
    rw [hheader]
    dsimp only
    split
    · exact ⟨rfl, rfl⟩
    · exact ⟨rfl, rfl⟩
    · simp only [patchLeaf, hflag, Option.bind_none]
      exact ⟨rfl, rfl⟩

theorem pre_exclusive (request : Request) (h : Exclusive d.cache d.passthrough) :
    Exclusive (d.pre P env uid request).1.cache (d.pre P env uid request).1.passthrough := by
  by_cases hread : ∃ kd, request = .getKeyEntry kd
  · obtain ⟨kd, rfl⟩ := hread
    obtain ⟨hcache | ⟨a, hcache⟩, hpassthrough⟩ := preGetKeyEntry_owners env uid d kd
    all_goals
      show Exclusive (d.preGetKeyEntry env uid kd).1.cache (d.preGetKeyEntry env uid kd).1.passthrough
      rw [hpassthrough, hcache]
    · exact h
    · exact h.clear
  · exact (pre_steps P env request).exclusive h fun kd hkd => hread ⟨kd, hkd⟩

theorem post_exclusive {request : Request} {resultCode : Int} {reply : Option Parcel}
    (h : Exclusive d.cache d.passthrough)
    (hreply : ∀ kd p, request = .getKeyEntry kd → reply = some p → p.IsEntryReply) :
    Exclusive (d.post P env uid request resultCode reply).1.cache
      (d.post P env uid request resultCode reply).1.passthrough := by
  by_cases hread : ∃ kd, request = .getKeyEntry kd
  · obtain ⟨kd, rfl⟩ := hread
    cases reply with
    | none => exact h
    | some p =>
      obtain ⟨hcache, hpassthrough⟩ :=
        postGetKeyEntry_owners P env uid d kd (hreply kd p rfl rfl)
      show Exclusive (d.postGetKeyEntry env uid P kd p).1.cache
        (d.postGetKeyEntry env uid P kd p).1.passthrough
      rw [hcache, hpassthrough]
      exact h
  · exact (post_steps P env request resultCode reply).exclusive h fun kd hkd => hread ⟨kd, hkd⟩

end Daemon

namespace World

variable {P : Platform} {w : World} {e : Event}

theorem exclusive_step (hquiet : w.starting = true → w.Quiet) (he : w.EntryReplies e)
    (h : Exclusive w.daemon.cache w.daemon.passthrough) :
    Exclusive (w.next P e).daemon.cache (w.next P e).daemon.passthrough := by
  cases e with
  | arrive id uid request env =>
    rcases w.arrive_daemon P id uid request env with hd | hd
    · rw [next, hd]
      exact h
    · rw [next, hd]
      exact Daemon.pre_exclusive request h
  | complete id resultCode reply env =>
    rcases w.complete_daemon P id resultCode reply env with hd | ⟨t, ht, hd⟩
    · rw [next, hd]
      exact h
    · rw [next, hd]
      refine Daemon.post_exclusive h fun kd p hrequest hp => ?_
      subst hp
      exact he t kd ht hrequest
  | operate op call =>
    dsimp only [next, withDaemon, Daemon.operate]
    split
    · exact h
    · exact ⟨h.forgedPatched, h.forgedTracked, h.patchedTracked⟩
  | keyboxChanged | restart => exact .empty
  | loadPersistedKeys level env =>
    dsimp only [next]
    split_ifs with hs
    · have hq := hquiet hs
      refine (Daemon.loadPersistedKeys_invariant
        (I := fun d => (∀ k, d.cache.patchedResponses.lookup k = none) ∧
          (∀ k, d.passthrough.isTracked k = false) ∧ Exclusive d.cache d.passthrough)
        ⟨hq.patchedResponses, hq.tracked, h⟩ ?_).2.2
      rintro d pk - ⟨hpatched, htracked, -⟩
      have hpatched' (k : Key) : ¬ d.cache.patchedResponses.containsKey k = true := by
        simp [HashMap.containsKey, hpatched]
      refine ⟨hpatched, htracked, fun k h => hpatched' k h.2, fun k h => ?_,
        fun k h => hpatched' k h.1⟩
      exact Bool.false_ne_true ((htracked k).symm.trans h.2)
    · exact h
  | initializeConfig modes keyboxes =>
    dsimp only [next]
    split_ifs
    · cases modes <;> cases keyboxes
      · exact h
      · exact .empty
      · exact h
      · exact .empty
    · exact h
  | _ => exact h

end World

/-- After every run, with whatever ids in the replies, each key is in at most one of the stores. -/
theorem exclusive_of_entryReplies (P : Platform) (es : List Event)
    (h : Machine.AllSteps (World.next P) (fun w e => w.Observed e ∧ w.EntryReplies e) {} es) :
    Exclusive (World.run P {} es).daemon.cache (World.run P {} es).daemon.passthrough := by
  refine (h.invariant (I := fun w : World => (w.starting = true → w.Quiet) ∧
    Exclusive w.daemon.cache w.daemon.passthrough) ⟨fun _ => World.quiet_init, .empty⟩ ?_).2
  rintro w e ⟨hquiet, hw⟩ ⟨hobserved, hreplies⟩
  exact ⟨World.quiet_step hquiet hobserved, World.exclusive_step hquiet hreplies hw⟩

namespace Demo

/-- The owner's key is tracked in AUTO mode, and the other app, in `?` mode, reads it through a grant
of the real keystore. -/
def readByGrantee : List Event :=
  start .AUTO .LEAF_HACK ++ [.arrive 1 owner (generate ecParams) (env 5),
    .complete 1 0 (some (created 9 (some [3]))) (env 6),
    .arrive 2 other (.getKeyEntry (some { domain := domainGrant, nspace := 77 })) (env 7),
    .complete 2 0 (some (entry 9 (some [3]))) (env 8)]

end Demo

open Demo in
theorem exclusive_readByGrantee :
    Exclusive (World.run platform {} readByGrantee).daemon.cache
      (World.run platform {} readByGrantee).daemon.passthrough := by
  refine exclusive_of_entryReplies platform readByGrantee
    (Machine.allSteps_cons ⟨trivial, trivial⟩ (Machine.allSteps_cons ⟨trivial, trivial⟩
      (Machine.allSteps_cons ⟨trivial, fun t kd ht hrequest => ?_⟩ (Machine.allSteps_cons
        ⟨trivial, trivial⟩ (Machine.allSteps_cons ⟨trivial, fun _ _ _ _ => .inr ⟨_, rfl⟩⟩
          Machine.allSteps_nil)))))
  obtain rfl := Option.some.inj ht
  cases hrequest

end TrickyStore
