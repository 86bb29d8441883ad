import TrickyStore.Proof.Representation

/-!
# The representation along runs

A hook brings in ids that are not in use; the ids of the files come back after a restart.  So the
files, too, give every key an id of its own, and while they are restored no other id is in use: before
the configuration is read the hooks only remove.
-/

open Lib

namespace TrickyStore

open CertificateAliasCache

/-! ## The ids in the files -/

/-- The executor has the key file: on disk, or in a pending save. -/
def PersistenceManager.Keeps (p : PersistenceManager) (pk : PersistedKey) : Prop :=
  (∃ k, p.files.lookup k = some pk) ∨ .saveKey pk ∈ p.queue

/-- Every file has an id of its own, which its metadata carry. -/
structure PersistenceManager.Filed (p : PersistenceManager) : Prop where
  keyed : ∀ k pk, p.files.lookup k = some pk → pk.key = k
  nonzero : ∀ pk, p.Keeps pk → pk.nspace ≠ 0
  labelled : ∀ pk, p.Keeps pk → ∀ m, pk.metadataBytes = some m →
    m.key.map KeyDescriptor.nspace = some pk.nspace
  oneKey : ∀ pk pk', p.Keeps pk → p.Keeps pk' → pk.nspace = pk'.nspace → pk.key = pk'.key

namespace PersistenceManager

variable {p p' : PersistenceManager} {pk : PersistedKey} {k : Key}

theorem runTask_lookup {files : HashMap Key PersistedKey} {t : PersistTask}
    (h : (runTask files t).lookup k = some pk) :
    files.lookup k = some pk ∨ k = pk.key ∧ ∃ params, t = .saveKey { pk with params := params } := by
  cases t with
  | saveKey saved =>
    rw [runTask] at h
    split_ifs at h
    · rcases HashMap.lookup_insert_eq_some.1 h with ⟨rfl, rfl⟩ | ⟨-, h⟩
      · exact .inr ⟨rfl, saved.params, rfl⟩
      · exact .inl h
    · exact .inl h
  | deleteKey uid a => exact .inl (HashMap.lookup_erase_eq_some.1 h).2
  | clearAll => cases h

/-- The executor has nothing in the end that it did not have before, up to the parameters that the file
format drops. -/
theorem keeps_step (h : p.step.Keeps pk) : ∃ params, p.Keeps { pk with params := params } := by
  unfold step at h
  split at h
  · exact ⟨pk.params, h⟩
  · next t ts hqueue =>
    rcases h with ⟨k, h⟩ | h
    · rcases runTask_lookup h with h | ⟨-, params, rfl⟩
      · exact ⟨pk.params, .inl ⟨k, h⟩⟩
      · refine ⟨params, .inr ?_⟩
        rw [hqueue]
        exact List.mem_cons_self ..
    · refine ⟨pk.params, .inr ?_⟩
      rw [hqueue]
      exact List.mem_cons_of_mem _ h

/-- Without a pending save the executor only removes files. -/
theorem step_lookup (hqueue : ∀ pk, .saveKey pk ∉ p.queue) (h : p.step.files.lookup k = some pk) :
    p.files.lookup k = some pk := by
  unfold step at h
  split at h
  · exact h
  · next t ts ht =>
    refine (runTask_lookup h).resolve_right fun ⟨_, params, hsave⟩ => ?_
    refine hqueue { pk with params := params } ?_
    rw [ht, ← hsave]
    exact List.mem_cons_self ..

theorem Filed.empty : ({} : PersistenceManager).Filed := by
  have hnone (pk : PersistedKey) : ¬ ({} : PersistenceManager).Keeps pk := by
    rintro (⟨k, h⟩ | h) <;> cases h
  exact ⟨fun k pk h => (by cases h), fun pk h => absurd h (hnone pk), fun pk h => absurd h (hnone pk),
    fun pk _ h => absurd h (hnone pk)⟩

/-- Files and pending saves may go. -/
theorem Filed.of_subset (h : p.Filed) (hfiles : p'.files = p.files)
    (hqueue : ∀ pk, .saveKey pk ∈ p'.queue → .saveKey pk ∈ p.queue) : p'.Filed := by
  have hkeeps {pk : PersistedKey} (hpk : p'.Keeps pk) : p.Keeps pk :=
    hpk.imp (fun ⟨k, hk⟩ => ⟨k, hfiles ▸ hk⟩) (hqueue pk)
  exact ⟨fun k pk hk => h.keyed k pk (hfiles ▸ hk), fun pk hpk => h.nonzero pk (hkeeps hpk),
    fun pk hpk => h.labelled pk (hkeeps hpk),
    fun pk pk' hpk hpk' => h.oneKey pk pk' (hkeeps hpk) (hkeeps hpk')⟩

theorem mem_execute {t : PersistTask} (h : .saveKey pk ∈ (p.execute t).queue) :
    .saveKey pk ∈ p.queue ∨ t = .saveKey pk :=
  (List.mem_append.1 h).imp id fun h => (List.mem_singleton.1 h).symm

theorem Filed.clearAll (h : p.Filed) : p.clearAll.Filed :=
  h.of_subset rfl fun _ hpk => (mem_execute hpk).resolve_right (by simp)

theorem Filed.step (h : p.Filed) : p.step.Filed := by
  constructor
  · intro k pk hk
    unfold PersistenceManager.step at hk
    split at hk
    · exact h.keyed k pk hk
    · rcases runTask_lookup hk with hk | ⟨rfl, -⟩
      · exact h.keyed k pk hk
      · rfl
  · intro pk hpk
    obtain ⟨params, hpk⟩ := keeps_step hpk
    exact h.nonzero { pk with params := params } hpk
  · intro pk hpk
    obtain ⟨params, hpk⟩ := keeps_step hpk
    exact h.labelled { pk with params := params } hpk
  · intro pk pk' hpk hpk'
    obtain ⟨params, hpk⟩ := keeps_step hpk
    obtain ⟨params', hpk'⟩ := keeps_step hpk'
    exact h.oneKey { pk with params := params } { pk' with params := params' } hpk hpk'

/-- A hook keeps the files well labelled when the id that it may save is a new one. -/
theorem Filed.hook {ids : Int → Prop} (h : p.Filed) (hs : PersistStep ids p p')
    (hfresh : ∀ n, ids n → n ≠ 0 ∧ ∀ pk, p.Keeps pk → pk.nspace ≠ n) : p'.Filed := by
  cases hs with
  | kept => exact h
  | deleted k => exact h.of_subset rfl fun _ hpk => (mem_execute hpk).resolve_right (by simp)
  | saved new hn hid =>
    obtain ⟨hnonzero, hother⟩ := hfresh new.nspace hn
    have hkeeps {pk : PersistedKey} (hpk : (p.saveKey new).Keeps pk) : p.Keeps pk ∨ pk = new := by
      rcases hpk with hpk | hpk
      · exact .inl (.inl hpk)
      · exact (mem_execute hpk).imp .inr fun heq => (PersistTask.saveKey.inj heq).symm
    constructor
    · exact h.keyed
    · intro pk hpk
      rcases hkeeps hpk with hpk | rfl
      · exact h.nonzero pk hpk
      · exact hnonzero
    · intro pk hpk
      rcases hkeeps hpk with hpk | rfl
      · exact h.labelled pk hpk
      · exact hid
    · intro pk pk' hpk hpk' hsame
      rcases hkeeps hpk with hold | rfl <;> rcases hkeeps hpk' with hold' | rfl
      · exact h.oneKey pk pk' hold hold' hsame
      · exact absurd hsame (hother pk hold)
      · exact absurd hsame.symm (hother pk' hold')
      · rfl

end PersistenceManager

theorem PersistStep.files {ids : Int → Prop} {p p' : PersistenceManager} (h : PersistStep ids p p') :
    p'.files = p.files := by
  cases h <;> rfl

/-! ## Restoring -/

/-- The ids in use are those of the files. -/
def Daemon.Restorable (d : Daemon) : Prop :=
  ∀ n k key pk, d.cache.keysByNspace.lookup n = some k →
    d.persistence.files.lookup key = some pk → (pk.key = k ↔ pk.nspace = n)

/-- No hook on another request than `generateKey` registers an id. -/
theorem HookStep.ids_subset {uid : Int} {request : Request} {now : ℕ} {ids : Int → Prop}
    {c c' : CertificateAliasCache} {p p' : PassthroughKeyRegistry}
    (h : HookStep uid request now ids c p c' p') (hrequest : request.isGenerateKey = false) {n : Int}
    {k : Key} (hk : c'.keysByNspace.lookup n = some k) : c.keysByNspace.lookup n = some k := by
  cases h with
  | unchanged | unskipped | updated | regranted | granted | ungranted | resigned => exact hk
  | cleared | relinquished => exact (clear_keysByNspace_eq_some.1 hk).1
  | generated _ _ _ _ _ _ _ _ _ hgenerate => simp [hrequest] at hgenerate
  | patched _ _ _ _ hgenerate => simp [hrequest] at hgenerate
  | promoted _ _ _ hgenerate => simp [hrequest] at hgenerate

namespace Daemon

variable {P : Platform} {env : Env} {uid : Int} {level : SecurityLevel} {d d' : Daemon}
  {pk : PersistedKey}

theorem Restorable.of_subset (h : d.Restorable)
    (hids : ∀ n k, d'.cache.keysByNspace.lookup n = some k → d.cache.keysByNspace.lookup n = some k)
    (hfiles : ∀ k pk, d'.persistence.files.lookup k = some pk →
      d.persistence.files.lookup k = some pk) : d'.Restorable :=
  fun n k key pk hk hpk => h n k key pk (hids n k hk) (hfiles key pk hpk)

variable (P env level d) in
/-- The id that a restored key is known by. -/
theorem restoreKey_nspace (hlabel : ∀ m, pk.metadataBytes = some m →
    m.key.map KeyDescriptor.nspace = some pk.nspace) :
    ∃ i, (d.restoreKey P env level pk).cache.keys = d.cache.keys.insert pk.key i ∧
      i.response.nspace = some pk.nspace := by
  refine ⟨_, rfl, ?_⟩
  cases hm : pk.metadataBytes with
  | none => simp [KeyEntryResponse.nspace, buildResponse]
  | some m => exact hlabel m hm

variable (P env level d) in
theorem restoreKey_keysByNspace (hnonzero : pk.nspace ≠ 0) :
    (d.restoreKey P env level pk).cache.keysByNspace =
      d.cache.keysByNspace.insert pk.nspace pk.key := if_pos hnonzero

/-- A key may be restored when its id and the key itself are either both in use or both free. -/
theorem restoreKey_indexed (h : Indexed d.cache d.passthrough) (hnonzero : pk.nspace ≠ 0)
    (hlabel : ∀ m, pk.metadataBytes = some m → m.key.map KeyDescriptor.nspace = some pk.nspace)
    (hown : ∀ n k, d.cache.keysByNspace.lookup n = some k → (pk.key = k ↔ pk.nspace = n)) :
    Indexed (d.restoreKey P env level pk).cache d.passthrough := by
  obtain ⟨i, hkeys, hid⟩ := restoreKey_nspace P env level d hlabel
  have hids := restoreKey_keysByNspace P env level d hnonzero
  have hforged {k : Key} (hk : d.cache.keys.containsKey k = true) :
      (d.restoreKey P env level pk).cache.keys.containsKey k = true :=
    restoreKey_containsKey.2 (.inr hk)
  have hcached {k : Key} (hk : d.cache.isPatchedKey k = true) :
      (d.restoreKey P env level pk).cache.isPatchedKey k = true := by
    rw [isPatchedKey, Bool.or_eq_true] at hk ⊢
    exact hk.imp hforged id
  constructor
  · intro n k hn
    rw [hids] at hn
    rcases HashMap.lookup_insert_eq_some.1 hn with ⟨-, rfl⟩ | ⟨-, hn⟩
    · left
      rw [isPatchedKey, restoreKey_containsKey.2 (.inl rfl), Bool.true_or]
    · exact (h.known n k hn).imp hcached id
  · intro n m k hn hm
    rw [hids] at hn hm
    rcases HashMap.lookup_insert_eq_some.1 hn with ⟨rfl, rfl⟩ | ⟨-, hold⟩ <;>
      rcases HashMap.lookup_insert_eq_some.1 hm with ⟨rfl, hk⟩ | ⟨-, hold'⟩
    · rfl
    · exact (hown m pk.key hold').1 rfl
    · exact ((hown n k hold).1 hk).symm
    · exact h.oneId n m k hold hold'
  · intro k v hv
    dsimp only [restoreKey] at hv
    split at hv
    · rcases HashMap.lookup_insert_eq_some.1 hv with ⟨rfl, -⟩ | ⟨-, hv⟩
      · exact restoreKey_containsKey.2 (.inl rfl)
      · exact hforged (h.pairsForged k v hv)
    · exact hforged (h.pairsForged k v hv)
  · exact fun n g hg => hcached (h.grantsCached n g hg)
  · intro k i' n hi hn
    rw [hkeys] at hi
    rw [hids]
    refine HashMap.lookup_insert_eq_some.2 ?_
    rcases HashMap.lookup_insert_eq_some.1 hi with ⟨rfl, rfl⟩ | ⟨hk, hi⟩
    · exact .inl ⟨Option.some.inj (hn.symm.trans hid), rfl⟩
    · have hold := h.idRegistered k i' n hi hn
      exact .inr ⟨fun hnspace => hk ((hown n k hold).2 hnspace.symm).symm, hold⟩

/-- Restoring a file leaves the ids in use those of the files. -/
theorem restoreKey_restorable (h : d.Restorable) (hfiled : d.persistence.Filed)
    (hpk : pk ∈ d.persistence.loadAll) : (d.restoreKey P env level pk).Restorable := by
  obtain ⟨⟨k₀, pk₀⟩, hmem, rfl⟩ := List.mem_map.1 hpk
  have hlookup : d.persistence.files.lookup k₀ = some pk₀ := HashMap.lookup_eq_some_iff.2 hmem
  have hkeeps : d.persistence.Keeps pk₀ := .inl ⟨k₀, hlookup⟩
  intro n k key pk hk hpk
  rw [restoreKey_keysByNspace P env level d (hfiled.nonzero _ hkeeps)] at hk
  rcases HashMap.lookup_insert_eq_some.1 hk with ⟨rfl, rfl⟩ | ⟨-, hk⟩
  · refine ⟨fun hkey => ?_, hfiled.oneKey pk pk₀ (.inl ⟨key, hpk⟩) hkeeps⟩
    -- two files of one key are one file
    have hsame : key = k₀ := by
      rw [← hfiled.keyed key pk hpk, ← hfiled.keyed k₀ pk₀ hlookup]
      exact hkey
    have hpk' : d.persistence.files.lookup key = some pk := hpk
    rw [hsame, hlookup] at hpk'
    rw [Option.some.inj hpk']
  · exact h n k key pk hk hpk

end Daemon

/-! ## Indexed runs -/

/-- The id of a new key, drawn or made by the real keystore, is not in use; a drawn one is not zero and
in no file. -/
def World.FreshKeyIds (w : World) : Event → Prop
  | .arrive _ _ request env => request.isGenerateKey = true →
      env.nextLong ≠ 0 ∧ w.daemon.cache.keysByNspace.lookup env.nextLong = none ∧
        ∀ pk, w.daemon.persistence.Keeps pk → pk.nspace ≠ env.nextLong
  | .complete id _ reply _ => ∀ t, w.inFlight.lookup id = some t → t.request.isGenerateKey = true →
      ∀ n ∈ Parcel.keyIds (reply.getD []), w.daemon.cache.keysByNspace.lookup n = none
  | _ => True

/-- What the maps, the files and the phase of the process have in common. -/
structure World.Stored (w : World) : Prop where
  indexed : Indexed w.daemon.cache w.daemon.passthrough
  filed : w.daemon.persistence.Filed
  quiet : w.starting = true → w.Quiet
  restorable : w.starting = true → w.daemon.Restorable

namespace World

variable {P : Platform} {w : World} {e : Event}

theorem stored_init : ({} : World).Stored :=
  ⟨.empty, .empty, fun _ => quiet_init, fun _ _ _ _ _ h => (by cases h)⟩

theorem Stored.arrive {id : ℕ} {uid : Int} {request : Request} {env : Env} (h : w.Stored)
    (hfresh : w.FreshKeyIds (.arrive id uid request env)) :
    Indexed (w.arrive P id uid request env).daemon.cache
        (w.arrive P id uid request env).daemon.passthrough ∧
      (w.arrive P id uid request env).daemon.persistence.Filed ∧
      (w.starting = true → (w.arrive P id uid request env).daemon.Restorable) := by
  rcases w.arrive_daemon P id uid request env with hd | hd <;> rw [hd]
  · exact ⟨h.indexed, h.filed, h.restorable⟩
  · have hstep : w.daemon.Steps uid request (fun n => n = env.nextLong) w.daemon.clock
        (w.daemon.pre P env uid request).1 := Daemon.pre_steps P env request
    have hpersist := Daemon.pre_persistence P env uid w.daemon request
    refine ⟨hstep.indexed h.indexed fun hrequest n hn => ?_, h.filed.hook hpersist fun n hn => ?_,
      fun hstarting => (h.restorable hstarting).of_subset (fun n k hk => ?_) fun k pk hk => ?_⟩
    · subst hn
      exact (hfresh hrequest).2.1
    · obtain ⟨hrequest, rfl⟩ := hn
      exact ⟨(hfresh hrequest).1, (hfresh hrequest).2.2⟩
    · cases hrequest : request.isGenerateKey with
      | false => exact hstep.ids_subset hrequest hk
      | true =>
        cases request with
        | generateKey level kd ak params =>
          have hunlisted := (h.quiet hstarting).unlisted env.packageManager uid
          obtain ⟨-, hcache, -⟩ := Daemon.preGenerateKey_of_unlisted P level kd ak params hunlisted
          rw [← hcache]
          exact hk
        | _ => cases hrequest
    · rw [hpersist.files] at hk
      exact hk

theorem Stored.complete {id : ℕ} {resultCode : Int} {reply : Option Parcel} {env : Env}
    (h : w.Stored) (hfresh : w.FreshKeyIds (.complete id resultCode reply env)) :
    Indexed (w.complete P id resultCode reply env).daemon.cache
        (w.complete P id resultCode reply env).daemon.passthrough ∧
      (w.complete P id resultCode reply env).daemon.persistence.Filed ∧
      (w.starting = true → (w.complete P id resultCode reply env).daemon.Restorable) := by
  rcases w.complete_daemon P id resultCode reply env with hd | ⟨t, ht, hd⟩ <;> rw [hd]
  · exact ⟨h.indexed, h.filed, h.restorable⟩
  · have hstep : w.daemon.Steps t.uid t.request (fun n => n ∈ Parcel.keyIds (reply.getD []))
        w.daemon.clock (w.daemon.post P env t.uid t.request resultCode reply).1 :=
      Daemon.post_steps P env t.request resultCode reply
    have hpersist := Daemon.post_persistence P env t.uid w.daemon t.request resultCode reply
    refine ⟨hstep.indexed h.indexed (hfresh t ht), h.filed.hook hpersist fun n hn => hn.elim,
      fun hstarting => (h.restorable hstarting).of_subset (fun n k hk => ?_) fun k pk hk => ?_⟩
    · -- a request that waits while the process starts is not a generateKey
      have hrequest : t.request.isGenerateKey = false := by
        rcases (h.quiet hstarting).inFlight id t ht with ⟨kd, hr⟩ | ⟨kd, cert, chain, hr⟩ <;>
          rw [hr] <;> rfl
      exact hstep.ids_subset hrequest hk
    · rw [hpersist.files] at hk
      exact hk

variable (P) in
theorem Stored.loadPersistedKeys (level : SecurityLevel) (env : Env) (h : w.Stored)
    (hstarting : w.starting = true) :
    Indexed (w.daemon.loadPersistedKeys P env level).cache
        (w.daemon.loadPersistedKeys P env level).passthrough ∧
      (w.daemon.loadPersistedKeys P env level).persistence = w.daemon.persistence ∧
      (w.daemon.loadPersistedKeys P env level).Restorable := by
  refine Daemon.loadPersistedKeys_invariant (I := fun d => Indexed d.cache d.passthrough ∧
    d.persistence = w.daemon.persistence ∧ d.Restorable) ⟨h.indexed, rfl, h.restorable hstarting⟩ ?_
  rintro d pk hpk ⟨hindexed, hpersistence, hrestorable⟩
  have hfiled : d.persistence.Filed := hpersistence ▸ h.filed
  have hloaded : pk ∈ d.persistence.loadAll := hpersistence ▸ hpk
  obtain ⟨⟨key, pk'⟩, hmem, rfl⟩ := List.mem_map.1 hloaded
  have hlookup : d.persistence.files.lookup key = some pk' := HashMap.lookup_eq_some_iff.2 hmem
  have hkeeps : d.persistence.Keeps pk' := .inl ⟨key, hlookup⟩
  exact ⟨Daemon.restoreKey_indexed hindexed (hfiled.nonzero _ hkeeps) (hfiled.labelled _ hkeeps)
    fun n k hk => hrestorable n k key pk' hk hlookup, hpersistence,
    Daemon.restoreKey_restorable hrestorable hfiled hloaded⟩

/-- An operation leaves the ids in use and the files as they are. -/
theorem Stored.operate (h : w.Stored) (op : ℕ) (call : SoftwareOperationBinder.Call) :
    Indexed (w.daemon.operate op call).cache (w.daemon.operate op call).passthrough ∧
      (w.daemon.operate op call).persistence.Filed ∧
      (w.starting = true → (w.daemon.operate op call).Restorable) := by
  have hids : (w.daemon.operate op call).cache.keysByNspace = w.daemon.cache.keysByNspace := by
    unfold Daemon.operate
    split <;> rfl
  have hpersistence : (w.daemon.operate op call).persistence = w.daemon.persistence := by
    unfold Daemon.operate
    split <;> rfl
  have hindexed : Indexed (w.daemon.operate op call).cache (w.daemon.operate op call).passthrough := by
    unfold Daemon.operate
    split
    · exact h.indexed
    · exact h.indexed.congr rfl rfl rfl rfl h.indexed.grantsCached
  refine ⟨hindexed, hpersistence ▸ h.filed, fun hstarting => (h.restorable hstarting).of_subset
    (fun n k hk => ?_) fun k pk hk => ?_⟩
  · rw [← hids]
    exact hk
  · rw [← hpersistence]
    exact hk

theorem Stored.step (h : w.Stored) (hobserved : w.Observed e) (hfresh : w.FreshKeyIds e) :
    (w.next P e).Stored := by
  have hquiet := quiet_step (P := P) h.quiet hobserved
  -- nothing is in use in an empty cache
  have hempty {d : Daemon} (hd : d.cache = {}) : d.Restorable := by
    intro n k key pk hk
    rw [hd] at hk
    cases hk
  cases e with
  | arrive id uid request env =>
    obtain ⟨hindexed, hfiled, hrestorable⟩ := h.arrive hfresh
    refine ⟨hindexed, hfiled, hquiet, fun hstarting => hrestorable ?_⟩
    rw [← hstarting, next, World.arrive]
    repeat' split
    all_goals rfl
  | complete id resultCode reply env =>
    obtain ⟨hindexed, hfiled, hrestorable⟩ := h.complete hfresh
    refine ⟨hindexed, hfiled, hquiet, fun hstarting => hrestorable ?_⟩
    rw [← hstarting, next, World.complete]
    split <;> rfl
  | abandon | targetChanged | packageManagerDied => exact ⟨h.indexed, h.filed, hquiet, h.restorable⟩
  | operate op call =>
    obtain ⟨hindexed, hfiled, hrestorable⟩ := h.operate op call
    exact ⟨hindexed, hfiled, hquiet, hrestorable⟩
  | keyboxChanged keyboxes => exact ⟨.empty, h.filed.clearAll, hquiet, fun _ => hempty rfl⟩
  | persist =>
    exact ⟨h.indexed, h.filed.step, hquiet, fun hstarting => (h.restorable hstarting).of_subset
      (fun _ _ hk => hk) fun k pk => PersistenceManager.step_lookup (h.quiet hstarting).queue⟩
  | restart =>
    exact ⟨.empty, h.filed.of_subset rfl fun _ hpk => (by cases hpk), hquiet, fun _ => hempty rfl⟩
  | loadPersistedKeys level env =>
    dsimp only [next] at hquiet ⊢
    split_ifs at hquiet ⊢ with hstarting
    · obtain ⟨hindexed, hpersistence, hrestorable⟩ :=
        h.loadPersistedKeys P level env hstarting
      refine ⟨hindexed, ?_, hquiet, fun _ => hrestorable⟩
      show (w.daemon.loadPersistedKeys P env level).persistence.Filed
      rw [hpersistence]
      exact h.filed
    · exact h
  | initializeConfig modes keyboxes =>
    dsimp only [next]
    split_ifs
    · have hstarted (Q : Prop) : false = true → Q := fun h => by cases h
      cases modes <;> cases keyboxes
      · exact ⟨h.indexed, h.filed, hstarted _, hstarted _⟩
      · exact ⟨.empty, h.filed.clearAll, hstarted _, hstarted _⟩
      · exact ⟨h.indexed, h.filed, hstarted _, hstarted _⟩
      · exact ⟨.empty, h.filed.clearAll, hstarted _, hstarted _⟩
    · exact h

end World

/-! ## One grant along runs -/

/-- No request is served while a `grant` is, as when requests are served one at a time. -/
def World.GrantsAlone (w : World) : Event → Prop
  | .arrive _ _ request _ => ∀ id t, w.inFlight.lookup id = some t →
      t.request.isGrant = false ∧ request.isGrant = false
  | _ => True

/-- A `grant` that waits for its post-hook waits alone, and names no forged key. -/
def World.GrantsWait (w : World) : Prop :=
  ∀ id t, w.inFlight.lookup id = some t → ∀ kd v accessVector,
    t.request = .grant kd v accessVector →
      (∀ id' t', w.inFlight.lookup id' = some t' → id' = id) ∧
        ∀ k, kd.bind (w.daemon.cache.resolveKey t.uid) = some k →
          w.daemon.cache.keys.containsKey k = false

namespace Daemon

variable {P : Platform} {env : Env} {uid : Int} {level : SecurityLevel} {d : Daemon}
  {kd : Option KeyDescriptor} {granteeUid : Int} {accessVector : BitVec 32}

/-- Restored keys have no grants yet, as nothing was re-signed before. -/
theorem loadPersistedKeys_oneGrant (h : d.cache.OneGrant)
    (hgrants : ∀ n g, d.cache.grants.lookup n = some g → d.cache.keys.containsKey g.key = true) :
    (d.loadPersistedKeys P env level).cache.OneGrant := by
  refine (loadPersistedKeys_invariant (I := fun d => d.cache.OneGrant ∧ ∀ n g,
    d.cache.grants.lookup n = some g → d.cache.keys.containsKey g.key = true) ⟨h, hgrants⟩ ?_).1
  rintro d pk - ⟨h, hgrants⟩
  exact ⟨h.mono (fun _ _ hg => hg) fun n g hg _ => hgrants n g hg,
    fun n g hg => restoreKey_containsKey.2 (.inr (hgrants n g hg))⟩

end Daemon

namespace World

variable {P : Platform} {w : World} {e : Event}

/-- While the process starts, no `grant` waits. -/
theorem Quiet.grantsWait (h : w.Quiet) : w.GrantsWait := by
  intro id t ht kd v accessVector hrequest
  rcases h.inFlight id t ht with ⟨_, hr⟩ | ⟨_, _, _, hr⟩ <;>
    · rw [hrequest] at hr
      cases hr

theorem GrantsWait.arrive {id : ℕ} {uid : Int} {request : Request} {env : Env} (h : w.GrantsWait)
    (halone : w.GrantsAlone (.arrive id uid request env)) :
    (w.arrive P id uid request env).GrantsWait := by
  -- a grant that waits before the arrival would not be alone
  have hnone {id' : ℕ} {t : Transaction} (ht : w.inFlight.lookup id' = some t) {kd v accessVector}
      (hrequest : t.request = .grant kd v accessVector) : False := by
    have hgrant := (halone id' t ht).1
    rw [hrequest] at hgrant
    cases hgrant
  unfold World.arrive
  split
  · exact h
  · dsimp only
    split
    · next hcontinue =>
      intro id' t ht kd v accessVector hrequest
      rcases HashMap.lookup_insert_eq_some.1 ht with ⟨rfl, rfl⟩ | ⟨-, ht⟩
      · obtain rfl : request = .grant kd v accessVector := hrequest
        refine ⟨fun id'' t'' ht'' => ?_, ?_⟩
        · rcases HashMap.lookup_insert_eq_some.1 ht'' with ⟨rfl, -⟩ | ⟨-, ht''⟩
          · rfl
          · cases (halone id'' t'' ht'').2
        · obtain ⟨hsame, hforged⟩ := Daemon.preGrant_continue (d := w.daemon) hcontinue
          have hcache : (w.daemon.pre P env uid (.grant kd v accessVector)).1.cache =
              w.daemon.cache := by
            show (w.daemon.preGrant env uid kd v accessVector).1.cache = w.daemon.cache
            rw [hsame]
          simp only [hcache]
          exact hforged
      · exact (hnone ht hrequest).elim
    · intro id' t ht kd v accessVector hrequest
      exact (hnone ht hrequest).elim

theorem GrantsWait.complete {id : ℕ} {resultCode : Int} {reply : Option Parcel} {env : Env}
    (h : w.GrantsWait) : (w.complete P id resultCode reply env).GrantsWait := by
  unfold World.complete
  split
  · exact h
  · next t₀ ht₀ =>
    intro id' t ht kd v accessVector hrequest
    obtain ⟨hne, ht⟩ := HashMap.lookup_erase_eq_some.1 ht
    exact absurd ((h id' t ht kd v accessVector hrequest).1 id t₀ ht₀).symm hne

/-- The daemon may change as long as no key is forged and the descriptors mean the same. -/
theorem GrantsWait.of_daemon {d : Daemon} (h : w.GrantsWait)
    (hsame : (d.cache.keys = w.daemon.cache.keys ∧ d.cache.keysByNspace = w.daemon.cache.keysByNspace) ∨
      ∀ k, d.cache.keys.containsKey k = false) : (w.withDaemon d).GrantsWait := by
  intro id t ht kd v accessVector hrequest
  obtain ⟨halone, hforged⟩ := h id t ht kd v accessVector hrequest
  refine ⟨halone, fun k hk => ?_⟩
  rcases hsame with ⟨hkeys, hids⟩ | hnone
  · show d.cache.keys.containsKey k = false
    rw [hkeys]
    have hresolve : d.cache.resolveKey t.uid = w.daemon.cache.resolveKey t.uid := by
      unfold resolveKey ownKey
      rw [hids]
    exact hforged k (hresolve ▸ hk)
  · exact hnone k

theorem grantsWait_step (hstored : w.Stored) (hobserved : w.Observed e) (hfresh : w.FreshKeyIds e)
    (halone : w.GrantsAlone e) (h : w.GrantsWait) : (w.next P e).GrantsWait := by
  cases e with
  | arrive id uid request env => exact h.arrive halone
  | complete id resultCode reply env => exact h.complete
  | abandon id =>
    intro id' t ht kd v accessVector hrequest
    obtain ⟨hlone, hforged⟩ :=
      h id' t (HashMap.lookup_erase_eq_some.1 ht).2 kd v accessVector hrequest
    exact ⟨fun id'' t'' ht'' => hlone id'' t'' (HashMap.lookup_erase_eq_some.1 ht'').2, hforged⟩
  | operate op call =>
    refine h.of_daemon (.inl ?_)
    unfold Daemon.operate
    split <;> exact ⟨rfl, rfl⟩
  | targetChanged | packageManagerDied | persist => exact h.of_daemon (.inl ⟨rfl, rfl⟩)
  | keyboxChanged => exact h.of_daemon (.inr fun _ => rfl)
  | restart => exact fun _ _ ht => (by cases ht)
  | loadPersistedKeys level env =>
    by_cases hstarting : w.starting = true
    · have hnext : (w.next P (.loadPersistedKeys level env)).starting = true := by
        rw [next, if_pos hstarting]
        exact hstarting
      exact ((hstored.step hobserved hfresh).quiet hnext).grantsWait
    · rw [next, if_neg hstarting]
      exact h
  | initializeConfig modes keyboxes =>
    dsimp only [next]
    split_ifs
    · refine h.of_daemon (d := w.daemon.initializeConfig modes keyboxes) ?_
      cases modes <;> cases keyboxes
      · exact .inl ⟨rfl, rfl⟩
      · exact .inr fun _ => rfl
      · exact .inl ⟨rfl, rfl⟩
      · exact .inr fun _ => rfl
    · exact h

theorem oneGrant_step (hstored : w.Stored) (hwait : w.GrantsWait) (h : w.daemon.cache.OneGrant) :
    (w.next P e).daemon.cache.OneGrant := by
  cases e with
  | arrive id uid request env =>
    rcases w.arrive_daemon P id uid request env with hd | hd <;> rw [next, hd]
    · exact h
    · exact Daemon.pre_oneGrant request h
  | complete id resultCode reply env =>
    rcases w.complete_daemon P id resultCode reply env with hd | ⟨t, ht, hd⟩ <;> rw [next, hd]
    · exact h
    · exact Daemon.post_oneGrant h fun kd v accessVector k hrequest hk =>
        (hwait id t ht kd v accessVector hrequest).2 k hk
  | operate op call =>
    dsimp only [next, withDaemon, Daemon.operate]
    split <;> exact h
  | abandon | targetChanged | packageManagerDied | persist => exact h
  | keyboxChanged | restart => exact .empty
  | loadPersistedKeys level env =>
    dsimp only [next]
    split_ifs with hstarting
    · refine Daemon.loadPersistedKeys_oneGrant h fun n g hg => ?_
      have hcached := hstored.indexed.grantsCached n g hg
      rw [isPatchedKey, Bool.or_eq_true] at hcached
      refine hcached.resolve_right fun hpatched => ?_
      rw [HashMap.containsKey, (hstored.quiet hstarting).patchedResponses] at hpatched
      cases hpatched
    · exact h
  | initializeConfig modes keyboxes =>
    dsimp only [next]
    split_ifs
    · cases modes <;> cases keyboxes
      · exact h
      · exact .empty
      · exact h
      · exact .empty
    · exact h

end World

/-- After every run that serves grants alone, with ids that are new when they come in. -/
theorem represents_of_freshKeyIds (P : Platform) (es : List Event)
    (h : Machine.AllSteps (World.next P)
      (fun w e => w.Observed e ∧ w.FreshKeyIds e ∧ w.GrantsAlone e) {} es) :
    Represents (World.run P {} es).daemon.cache (World.run P {} es).daemon.passthrough := by
  obtain ⟨hstored, -, hgrant⟩ := h.invariant
    (I := fun w : World => w.Stored ∧ w.GrantsWait ∧ w.daemon.cache.OneGrant)
    ⟨World.stored_init, World.quiet_init.grantsWait, .empty⟩
    fun w e ⟨hstored, hwait, hgrant⟩ ⟨hobserved, hfresh, halone⟩ =>
      ⟨hstored.step hobserved hfresh,
        World.grantsWait_step hstored hobserved hfresh halone hwait,
        World.oneGrant_step hstored hwait hgrant⟩
  exact { hstored.indexed with
    flagsForged := World.run_daemon P {} (I := fun d => d.cache.FlagsForged)
      (fun _ _ => Daemon.flagsForged_step) (fun k b hb => by cases hb) es
    grantsOwned := World.run_grantsOwned P es
    oneGrant := hgrant }

namespace Demo

/-- The owner forges a key and grants it; a restart brings the key back. -/
def grantedAndRestored : List Event :=
  start .GENERATE .AUTO ++ [.arrive 1 owner (generate ecParams) (env 5), .persist, .persist,
    .arrive 2 owner (.grant (some byAlias) other KeyPermission.GET_INFO) (env 6), .restart,
    .loadPersistedKeys .trustedEnvironment (env 7)]

end Demo

open Demo in
theorem represents_grantedAndRestored :
    Represents (World.run platform {} grantedAndRestored).daemon.cache
        (World.run platform {} grantedAndRestored).daemon.passthrough ∧
      (World.run platform {} grantedAndRestored).daemon.cache.keysByNspace.lookup 5 = some key := by
  refine ⟨represents_of_freshKeyIds platform grantedAndRestored
    (Machine.allSteps_cons ⟨trivial, trivial, trivial⟩ (Machine.allSteps_cons
      ⟨trivial, fun _ => ⟨by decide, rfl, ?_⟩, fun _ _ ht => (by cases ht)⟩
    (Machine.allSteps_cons ⟨trivial, trivial, trivial⟩ (Machine.allSteps_cons
      ⟨trivial, trivial, trivial⟩ (Machine.allSteps_cons ⟨trivial, fun h => (by cases h),
        fun _ _ ht => (by cases ht)⟩ (Machine.allSteps_cons ⟨trivial, trivial, trivial⟩
    (Machine.allSteps_cons ⟨trivial, trivial, trivial⟩ Machine.allSteps_nil))))))), by decide⟩
  -- only the clearing of the files is pending
  rintro pk (⟨k, h⟩ | h)
  · cases h
  · cases List.mem_singleton.1 h

end TrickyStore
