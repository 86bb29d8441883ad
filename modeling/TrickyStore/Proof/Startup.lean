import TrickyStore.Proof.Entries

/-!
# The start of the process

The interceptors are set up first and restore the persisted keys of their level; `PkgConfig` is
initialised afterwards and reads the keybox with the routine that also serves a replaced keybox,
which drops every key and every key file.
-/

open Lib

namespace TrickyStore

/-- The start of a process over the files at hand, with an interceptor for each of the levels. -/
def startup (levels : List SecurityLevel) (env : Env) (modes : Option (HashMap String Mode))
    (keyboxes : Option (HashMap String KeyBox)) : List Event :=
  .restart :: (levels.map fun level => .loadPersistedKeys level env) ++
    [.initializeConfig modes keyboxes]

/-- The file is there, and one of the interceptors is responsible for its key. -/
def Daemon.Persisted (d : Daemon) (levels : List SecurityLevel) (k : Key) (pk : PersistedKey) : Prop :=
  d.persistence.files.lookup k = some pk ∧ ∃ level ∈ levels, pk.securityLevel = level.toInt

/-- The key of the file is back in memory, under its alias and its id, and the file survives once the
executor has run its tasks. -/
structure Daemon.Restored (d : Daemon) (k : Key) (pk : PersistedKey) : Prop where
  keys : d.cache.keys.containsKey pk.key = true
  keysByNspace : d.cache.keysByNspace.lookup pk.nspace = some pk.key
  file : d.persistence.settled.lookup k = some pk

/-- Every persisted key survives the start. -/
def DurableStartup (P : Platform) (w : World) (levels : List SecurityLevel) (env : Env)
    (modes : Option (HashMap String Mode)) (keyboxes : Option (HashMap String KeyBox)) : Prop :=
  ∀ k pk, w.daemon.Persisted levels k pk →
    (w.run P (startup levels env modes keyboxes)).daemon.Restored k pk

/-! ## The two phases -/

namespace Daemon

variable {P : Platform} {env : Env} {level : SecurityLevel} {d : Daemon}

variable (P env level d) in
/-- Loading adds the keys of the files of the level and touches no file. -/
theorem loadPersistedKeys_keys :
    (d.loadPersistedKeys P env level).persistence = d.persistence ∧
      ∀ k, (d.loadPersistedKeys P env level).cache.keys.containsKey k = true ↔
        (∃ pk ∈ d.persistence.loadAll, pk.securityLevel = level.toInt ∧ k = pk.key) ∨
          d.cache.keys.containsKey k = true := by
  have hfold (pks : List PersistedKey) (d : Daemon) :
      (pks.foldl (restoreKey P env level) d).persistence = d.persistence ∧
        ∀ k, (pks.foldl (restoreKey P env level) d).cache.keys.containsKey k = true ↔
          (∃ pk ∈ pks, k = pk.key) ∨ d.cache.keys.containsKey k = true := by
    induction pks generalizing d with
    | nil => exact ⟨rfl, fun k => by simp⟩
    | cons pk pks ih =>
      obtain ⟨hpers, hkeys⟩ := ih (d.restoreKey P env level pk)
      refine ⟨hpers, fun k => ?_⟩
      rw [List.foldl_cons, hkeys, restoreKey_containsKey, List.exists_mem_cons_iff,
        or_left_comm, or_assoc]
  refine ⟨(hfold _ d).1, fun k => ?_⟩
  rw [loadPersistedKeys, (hfold _ d).2]
  simp only [List.mem_filter, decide_eq_true_eq, and_assoc]

/-- Reading the keybox drops every key and every file. -/
theorem initializeConfig_with_keybox {modes : Option (HashMap String Mode)}
    {keyboxes : HashMap String KeyBox} :
    (d.initializeConfig modes (some keyboxes)).cache = {} ∧
      (d.initializeConfig modes (some keyboxes)).persistence.settled = ∅ := by
  cases modes <;> exact ⟨rfl, PersistenceManager.settled_clearAll _⟩

end Daemon

namespace World

variable {P : Platform} {env : Env}

variable (env) in
/-- The state after the first phase is the start of the second one. -/
theorem run_loads (levels : List SecurityLevel) {w : World} (h : w.starting = true) :
    (w.run P (levels.map fun level => .loadPersistedKeys level env)).starting = true ∧
      (w.run P (levels.map fun level => .loadPersistedKeys level env)).daemon.persistence =
        w.daemon.persistence ∧
      ∀ k, (w.run P (levels.map fun level => .loadPersistedKeys level env)).daemon.cache.keys.containsKey
          k = true ↔
        (∃ pk ∈ w.daemon.persistence.loadAll, (∃ level ∈ levels, pk.securityLevel = level.toInt) ∧
          k = pk.key) ∨ w.daemon.cache.keys.containsKey k = true := by
  induction levels generalizing w with
  | nil => exact ⟨h, rfl, fun k => by simp⟩
  | cons level levels ih =>
    have hnext : w.next P (.loadPersistedKeys level env) =
        w.withDaemon (w.daemon.loadPersistedKeys P env level).tick := by simp [next, h]
    obtain ⟨hpers, hkeys⟩ := Daemon.loadPersistedKeys_keys P env level w.daemon
    obtain ⟨hstart, hpers', hkeys'⟩ := ih
      (w := w.withDaemon (w.daemon.loadPersistedKeys P env level).tick) h
    rw [List.map_cons, run, Machine.run_cons, hnext]
    refine ⟨hstart, hpers'.trans hpers, fun k => (hkeys' k).trans ?_⟩
    change (∃ pk ∈ (w.daemon.loadPersistedKeys P env level).persistence.loadAll, _) ∨
      (w.daemon.loadPersistedKeys P env level).cache.keys.containsKey k = true ↔ _
    rw [hpers, hkeys]
    simp only [List.exists_mem_cons_iff]
    constructor
    · rintro (⟨pk, hpk, hl, rfl⟩ | ⟨pk, hpk, hl, rfl⟩ | h)
      · exact .inl ⟨pk, hpk, .inr hl, rfl⟩
      · exact .inl ⟨pk, hpk, .inl hl, rfl⟩
      · exact .inr h
    · rintro (⟨pk, hpk, hl | hl, rfl⟩ | h)
      · exact .inr (.inl ⟨pk, hpk, hl, rfl⟩)
      · exact .inl ⟨pk, hpk, hl, rfl⟩
      · exact .inr (.inr h)

variable (P env) in
/-- The start as a whole: both phases over the files of the world before. -/
theorem run_startup (w : World) (levels : List SecurityLevel)
    (modes : Option (HashMap String Mode)) (keyboxes : Option (HashMap String KeyBox)) :
    ∃ d : Daemon, (w.run P (startup levels env modes keyboxes)).daemon =
        d.initializeConfig modes keyboxes ∧
      d.persistence = { files := w.daemon.persistence.files } ∧
      ∀ k, d.cache.keys.containsKey k = true ↔
        ∃ pk ∈ w.daemon.persistence.loadAll, (∃ level ∈ levels, pk.securityLevel = level.toInt) ∧
          k = pk.key := by
  obtain ⟨hstart, hpers, hkeys⟩ := run_loads (P := P) env levels
    (w := { daemon := w.daemon.restart }) rfl
  refine ⟨_, ?_, hpers, fun k => (hkeys k).trans (or_iff_left ?_)⟩
  · rw [startup, run, List.cons_append, Machine.run_cons, Machine.run_concat]
    exact congrArg World.daemon (if_pos hstart)
  · show ¬ (∅ : HashMap Key Info).containsKey k = true
    simp [HashMap.containsKey]

end World

/-- Without a `keybox.xml` the start would bring every key of an intercepted level back and leave its
file alone. -/
theorem startup_without_keybox {P : Platform} {w : World} {levels : List SecurityLevel} {env : Env}
    {modes : Option (HashMap String Mode)} {k : Key} {pk : PersistedKey}
    (h : w.daemon.Persisted levels k pk) :
    (w.run P (startup levels env modes none)).daemon.cache.keys.containsKey pk.key = true ∧
      (w.run P (startup levels env modes none)).daemon.persistence.settled.lookup k = some pk := by
  obtain ⟨d, hrun, hpers, hkeys⟩ := World.run_startup P env w levels modes none
  have hmem : pk ∈ w.daemon.persistence.loadAll :=
    List.mem_map.2 ⟨⟨k, pk⟩, HashMap.lookup_eq_some_iff.1 h.1, rfl⟩
  have hkey := (hkeys pk.key).2 ⟨pk, hmem, h.2, rfl⟩
  have hfile : d.persistence.settled.lookup k = some pk := by
    rw [hpers, PersistenceManager.settled_of_queue_eq_nil rfl]
    exact h.1
  rw [hrun]
  cases modes <;> exact ⟨hkey, hfile⟩

theorem not_restored_with_keybox {P : Platform} {w : World} {levels : List SecurityLevel} {env : Env}
    {modes : Option (HashMap String Mode)} {keyboxes : HashMap String KeyBox} {k : Key}
    {pk : PersistedKey} :
    ¬ (w.run P (startup levels env modes (some keyboxes))).daemon.Restored k pk := by
  intro h
  obtain ⟨d, hrun, -, -⟩ := World.run_startup P env w levels modes (some keyboxes)
  have hkeys := h.keys
  rw [hrun, Daemon.initializeConfig_with_keybox.1] at hkeys
  cases hkeys

/-- With a keybox the start keeps the persisted keys only if it has none to keep. -/
theorem durableStartup_iff (P : Platform) (w : World) (levels : List SecurityLevel) (env : Env)
    (modes : Option (HashMap String Mode)) (keyboxes : HashMap String KeyBox) :
    DurableStartup P w levels env modes (some keyboxes) ↔
      ∀ k pk, ¬ w.daemon.Persisted levels k pk :=
  ⟨fun h k pk hk => not_restored_with_keybox (h k pk hk), fun h k pk hk => absurd hk (h k pk)⟩

namespace Demo

/-- The owner forges a key, and the executor saves it. -/
def forged : World :=
  World.run platform {} (start .GENERATE .AUTO ++
    [.arrive 1 owner (generate ecParams) (env 5), .persist, .persist])

end Demo

open Demo in
/-- The keybox of the last run is read again at the start, and the forged key is lost. -/
theorem startup_loses_forged_key :
    ¬ ∀ P w levels env modes, DurableStartup P w levels env modes (some w.daemon.keyboxes) := by
  intro h
  have hlevel : (forged.daemon.persistence.files.lookup key).map PersistedKey.securityLevel = some 1 :=
    by decide
  obtain ⟨pk, hpk, hlevel⟩ := Option.map_eq_some_iff.1 hlevel
  have hpersisted : forged.daemon.Persisted [.trustedEnvironment] key pk :=
    ⟨hpk, .trustedEnvironment, List.mem_singleton_self _, hlevel⟩
  exact not_restored_with_keybox (h platform forged [.trustedEnvironment] (env 7) none key pk hpersisted)

end TrickyStore
