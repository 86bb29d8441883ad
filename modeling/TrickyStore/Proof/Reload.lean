import TrickyStore.Proof.DiskAgreement

/-!
# What a restart reads back

Every file whose level has an interceptor becomes a forged key again, with the metadata, the parameters
and the id of the file.  Nothing else is in the maps of the fresh process: no counter, no grant, no
re-signed response, no tracked key.
-/

open Lib

namespace TrickyStore

/-- The entry is the one that the file describes. -/
structure Info.RestoredFrom (info : Info) (pk : PersistedKey) : Prop where
  params : info.params = pk.params
  metadata : ∀ m, pk.metadataBytes = some m → info.response.metadata = m

namespace Daemon

/-- The files that satisfy `read` have been loaded into a fresh process, and nothing else has. -/
structure HasLoaded (d : Daemon) (read : PersistedKey → Prop) : Prop where
  keys : ∀ pk, read pk → ∃ info, d.cache.keys.lookup pk.key = some info ∧ info.RestoredFrom pk
  owner : ∀ n k, d.cache.keysByNspace.lookup n = some k → ∃ pk, read pk ∧ pk.key = k ∧ pk.nspace = n
  owned : ∀ pk, read pk → pk.nspace ≠ 0 → ∃ k, d.cache.keysByNspace.lookup pk.nspace = some k
  usageRemaining : d.cache.usageRemaining = ∅
  grants : d.cache.grants = ∅
  passthrough : d.passthrough = {}

variable {P : Platform} {env : Env} {level : SecurityLevel} {d : Daemon} {read : PersistedKey → Prop}
  {pk : PersistedKey}

theorem hasLoaded_restart (d : Daemon) : d.restart.HasLoaded fun _ => False where
  keys := fun _ h => h.elim
  owner := fun n k hk => by
    change (∅ : HashMap Int Key).lookup n = some k at hk
    simp at hk
  owned := fun _ h => h.elim
  usageRemaining := rfl
  grants := rfl
  passthrough := rfl

namespace HasLoaded

variable (P env level pk) in
/-- One more file. -/
theorem restoreKey (h : d.HasLoaded read) (hunique : ∀ pk', read pk' → pk'.key = pk.key → pk' = pk) :
    (d.restoreKey P env level pk).HasLoaded fun pk' => read pk' ∨ pk' = pk where
  keys := by
    have hnew : ∃ info, (d.restoreKey P env level pk).cache.keys.lookup pk.key = some info ∧
        info.RestoredFrom pk := by
      refine ⟨_, AList.lookup_insert _, rfl, fun m hm => ?_⟩
      dsimp only
      rw [hm]
    rintro pk' (hread | rfl)
    · by_cases hkey : pk'.key = pk.key
      · obtain rfl := hunique pk' hread hkey
        exact hnew
      · obtain ⟨info, hinfo, hfrom⟩ := h.keys pk' hread
        exact ⟨info, (AList.lookup_insert_ne hkey).trans hinfo, hfrom⟩
    · exact hnew
  owner := by
    have hold (n : Int) (k : Key) (hk : d.cache.keysByNspace.lookup n = some k) :
        ∃ pk', (read pk' ∨ pk' = pk) ∧ pk'.key = k ∧ pk'.nspace = n := by
      obtain ⟨pk', hread, hpk'⟩ := h.owner n k hk
      exact ⟨pk', .inl hread, hpk'⟩
    intro n k hk
    simp only [Daemon.restoreKey] at hk
    split_ifs at hk with hn
    · rcases HashMap.lookup_insert_eq_some.1 hk with ⟨rfl, rfl⟩ | ⟨-, hk⟩
      · exact ⟨pk, .inr rfl, rfl, rfl⟩
      · exact hold n k hk
    · exact hold n k hk
  owned := by
    intro pk' hread hn'
    simp only [Daemon.restoreKey]
    by_cases hsame : pk'.nspace = pk.nspace
    · rw [if_pos (hsame ▸ hn'), hsame]
      exact ⟨pk.key, AList.lookup_insert _⟩
    · obtain ⟨k, hk⟩ := h.owned pk' (hread.resolve_right fun heq => hsame (heq ▸ rfl)) hn'
      refine ⟨k, ?_⟩
      split_ifs
      · rw [AList.lookup_insert_ne hsame, hk]
      · exact hk
  usageRemaining := h.usageRemaining
  grants := h.grants
  passthrough := h.passthrough

theorem congr {read' : PersistedKey → Prop} (h : d.HasLoaded read) (hread : ∀ pk, read pk ↔ read' pk) :
    d.HasLoaded read' :=
  (funext fun pk => propext (hread pk) : read = read') ▸ h

theorem tick (h : d.HasLoaded read) : d.tick.HasLoaded read :=
  ⟨h.keys, h.owner, h.owned, h.usageRemaining, h.grants, h.passthrough⟩

variable (P env level) in
/-- The files of a list, one after another. -/
theorem foldl (h : d.HasLoaded read) (pks : List PersistedKey)
    (hunique : ∀ pk pk', read pk ∨ pk ∈ pks → read pk' ∨ pk' ∈ pks → pk.key = pk'.key → pk = pk') :
    (pks.foldl (Daemon.restoreKey P env level) d).HasLoaded fun pk => read pk ∨ pk ∈ pks := by
  induction pks generalizing d read with
  | nil => exact h.congr fun pk => by simp
  | cons pk pks ih =>
    have hstep := h.restoreKey P env level pk fun pk' hread hkey =>
      hunique pk' pk (.inl hread) (.inr List.mem_cons_self) hkey
    have hmem (pk' : PersistedKey) : (read pk' ∨ pk' = pk) ∨ pk' ∈ pks ↔ read pk' ∨ pk' ∈ pk :: pks := by
      rw [List.mem_cons, or_assoc]
    refine (ih hstep fun pk₁ pk₂ h₁ h₂ => ?_).congr hmem
    exact hunique pk₁ pk₂ ((hmem pk₁).1 h₁) ((hmem pk₂).1 h₂)

variable (P env level) in
/-- The files of one level. -/
theorem loadPersistedKeys (h : d.HasLoaded read) (hread : ∀ pk, read pk → pk ∈ d.persistence.loadAll)
    (hunique : ∀ pk pk', pk ∈ d.persistence.loadAll → pk' ∈ d.persistence.loadAll →
      pk.key = pk'.key → pk = pk') :
    (d.loadPersistedKeys P env level).HasLoaded fun pk =>
      read pk ∨ pk ∈ d.persistence.loadAll ∧ pk.securityLevel = level.toInt := by
  have hmem (pk : PersistedKey) :
      read pk ∨ pk ∈ (d.persistence.loadAll.filter fun pk => pk.securityLevel = level.toInt) ↔
        read pk ∨ pk ∈ d.persistence.loadAll ∧ pk.securityLevel = level.toInt := by
    rw [List.mem_filter, decide_eq_true_eq]
  have hfile (pk : PersistedKey) (h : read pk ∨ pk ∈ d.persistence.loadAll.filter fun pk =>
      pk.securityLevel = level.toInt) : pk ∈ d.persistence.loadAll :=
    ((hmem pk).1 h).elim (hread pk) And.left
  exact (h.foldl P env level _ fun pk pk' h h' => hunique pk pk' (hfile pk h) (hfile pk' h')).congr hmem

end HasLoaded

variable (P env d) in
/-- A restart loads every file that stands under its key and has one of the two levels. -/
theorem hasLoaded_reloaded (hfiled : ∀ k pk, d.persistence.files.lookup k = some pk → pk.key = k) :
    (d.reloaded P env).HasLoaded fun pk => d.persistence.files.lookup pk.key = some pk ∧
      ∃ level : SecurityLevel, pk.securityLevel = level.toInt := by
  have hfile (pk : PersistedKey) :
      pk ∈ d.persistence.loadAll ↔ d.persistence.files.lookup pk.key = some pk := by
    constructor
    · intro hpk
      obtain ⟨⟨k, pk'⟩, he, rfl⟩ := List.mem_map.1 hpk
      have hlookup := HashMap.lookup_eq_some_iff.2 he
      exact (hfiled k pk' hlookup).symm ▸ hlookup
    · exact fun hlookup => List.mem_map.2 ⟨_, HashMap.lookup_eq_some_iff.1 hlookup, rfl⟩
  have hunique (pk pk' : PersistedKey) (h : pk ∈ d.persistence.loadAll)
      (h' : pk' ∈ d.persistence.loadAll) (hkey : pk.key = pk'.key) : pk = pk' := by
    rw [hfile, hkey] at h
    exact Option.some.inj (h.symm.trans ((hfile pk').1 h'))
  have hpers := (loadPersistedKeys_keys P env .trustedEnvironment d.restart).1
  have hfirst := ((hasLoaded_restart d).loadPersistedKeys P env .trustedEnvironment
    (fun _ h => h.elim) hunique).tick
  have hsecond := (hfirst.loadPersistedKeys P env .strongbox
    (fun pk h => by rw [tick, hpers]; exact (h.resolve_left id).1)
    (by rw [tick, hpers]; exact hunique)).tick
  refine hsecond.congr fun pk => ?_
  rw [tick, hpers, false_or, ← and_or_left]
  change pk ∈ d.persistence.loadAll ∧ _ ↔ _
  rw [hfile]
  refine and_congr_right fun _ => ⟨?_, ?_⟩
  · rintro (hlevel | hlevel)
    · exact ⟨.trustedEnvironment, hlevel⟩
    · exact ⟨.strongbox, hlevel⟩
  · rintro ⟨level, hlevel⟩
    cases level with
    | trustedEnvironment => exact .inl hlevel
    | strongbox => exact .inr hlevel

end Daemon

end TrickyStore
