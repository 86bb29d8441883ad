import TrickyStore.Model.ConfigWatch
import TrickyStore.Proof.HookFrame

/-!
# The configuration follows its files

Whatever is done to the three files, and whatever the hooks do meanwhile: once the observer has dealt
with what it was notified of, the modes, the keyboxes and the patch levels are those that the files say.
What it misses are files whose writer has not closed them, and changes between the first reading of a file
and `startWatching`.
-/

open Lib Watch

namespace TrickyStore

namespace Configured

section Reflects

variable (lib : PemParsers) (xml : List Char → List XmlEvent)

/-- What the daemon goes by is what the file says; a file that is not there says nothing. -/
structure Reflects (path : String) (content : Option (List Char)) (c : Configured) : Prop where
  target : path = TARGET_FILE → c.world.daemon.config.packageModes =
    (({} : PkgConfig).updateTargetPackages (content.map some)).packageModes
  keybox : path = KEYBOX_FILE → c.world.daemon.keyboxes = KeyBoxUtils.readFromXml lib (content.map xml)
  patchLevel : path = PATCHLEVEL_FILE → c.levels = ({} : PatchLevels).updatePatchLevel (content.map some)

variable {lib xml} {path path' : String} {content : Option (List Char)} {c c' : Configured}

theorem Reflects.congr (h : c.Reflects lib xml path content)
    (hmodes : c'.world.daemon.config.packageModes = c.world.daemon.config.packageModes)
    (hkeyboxes : c'.world.daemon.keyboxes = c.world.daemon.keyboxes) (hlevels : c'.levels = c.levels) :
    c'.Reflects lib xml path content :=
  ⟨fun hp => hmodes.trans (h.target hp), fun hp => hkeyboxes.trans (h.keybox hp),
    fun hp => hlevels.trans (h.patchLevel hp)⟩

/-- What is found of a file that is there or gone. -/
def seenOf (content : Option (List Char)) : Seen (List Char) := content.elim .removed .text

theorem reflects_onEvent (lib : PemParsers) (xml : List Char → List XmlEvent) (c : Configured) (path : String)
    (content : Option (List Char)) : (c.onEvent lib xml path (seenOf content)).Reflects lib xml path content := by
  refine ⟨?_, ?_, ?_⟩
  · rintro rfl
    cases content <;> rfl
  · rintro rfl
    rw [onEvent, if_neg (by decide), if_pos rfl]
    cases content <;> rfl
  · rintro rfl
    rw [onEvent, if_neg (by decide), if_neg (by decide), if_pos rfl]
    cases content <;> rfl

/-- A file that is gone before it is read leaves what was set when it was gone. -/
theorem Reflects.onEvent_missing (h : c.Reflects lib xml path none) :
    (c.onEvent lib xml path .missing).Reflects lib xml path none := by
  refine ⟨?_, ?_, ?_⟩
  · rintro rfl
    exact h.target rfl
  · rintro rfl
    rw [onEvent, if_neg (by decide), if_pos rfl]
    exact h.keybox rfl
  · rintro rfl
    rw [onEvent, if_neg (by decide), if_neg (by decide), if_pos rfl]
    rfl

theorem Reflects.initializeAbsent (h : c.Reflects lib xml path none) :
    (c.initializeAbsent path).Reflects lib xml path none := by
  unfold Configured.initializeAbsent
  split_ifs with hp
  · exact ⟨fun h' => absurd (hp.symm.trans h') (by decide), fun h' => absurd (hp.symm.trans h') (by decide),
      fun _ => rfl⟩
  · exact h

/-- An event of one file is none of the others. -/
theorem Reflects.onEvent_of_ne (h : c.Reflects lib xml path content) (hne : path' ≠ path)
    (seen : Seen (List Char)) : (c.onEvent lib xml path' seen).Reflects lib xml path content := by
  unfold onEvent
  split_ifs with htarget hkeybox hpatch
  · exact ⟨fun hp => absurd (htarget.trans hp.symm) hne, h.keybox, h.patchLevel⟩
  · have hmodes (d : Daemon) (f : Option (Option (List XmlEvent))) :
        (d.updateKeyBoxFile lib f).config = d.config := by
      rcases f with - | - | events <;> rfl
    exact ⟨fun hp => (congrArg PkgConfig.packageModes (hmodes _ _)).trans (h.target hp),
      fun hp => absurd (hkeybox.trans hp.symm) hne, h.patchLevel⟩
  · exact ⟨h.target, h.keybox, fun hp => absurd (hpatch.trans hp.symm) hne⟩
  · exact h

theorem Reflects.initializeAbsent_of_ne (h : c.Reflects lib xml path content) (hne : path' ≠ path) :
    (c.initializeAbsent path').Reflects lib xml path content := by
  unfold Configured.initializeAbsent
  split_ifs with hpatch
  · exact ⟨h.target, h.keybox, fun hp => absurd (hpatch.trans hp.symm) hne⟩
  · exact h

end Reflects

/-! ## The hooks -/

section Hooks

variable {P : Platform} {d d' : Daemon}

/-- A daemon step that sets no part of the configuration keeps the modes and the keyboxes. -/
def KeepsConfig (d d' : Daemon) : Prop :=
  d'.config.packageModes = d.config.packageModes ∧ d'.keyboxes = d.keyboxes

theorem keepsConfig_loadPersistedKeys (env : Env) (level : SecurityLevel) :
    KeepsConfig d (d.loadPersistedKeys P env level) :=
  Daemon.loadPersistedKeys_invariant (I := KeepsConfig d) ⟨rfl, rfl⟩ fun _ _ _ h => h

theorem keepsConfig_next (w : World) (e : Event) (h : e.setsConfig = false) :
    KeepsConfig w.daemon (w.next P e).daemon := by
  cases e with
  | arrive id uid request env =>
    rcases w.arrive_daemon P id uid request env with heq | heq
    · rw [World.next, heq]
      exact ⟨rfl, rfl⟩
    · have hframe := Daemon.onPreTransact_frame P env uid w.daemon request
      rw [World.next, heq]
      exact ⟨hframe.config.packageModes, hframe.keyboxes⟩
  | complete id resultCode reply env =>
    rcases w.complete_daemon P id resultCode reply env with heq | ⟨t, -, heq⟩
    · rw [World.next, heq]
      exact ⟨rfl, rfl⟩
    · have hframe := Daemon.onPostTransact_frame P env t.uid w.daemon t.request resultCode reply
      rw [World.next, heq]
      exact ⟨hframe.config.packageModes, hframe.keyboxes⟩
  | abandon id => exact ⟨rfl, rfl⟩
  | operate op call =>
    dsimp only [World.next, World.withDaemon, Daemon.operate]
    split <;> exact ⟨rfl, rfl⟩
  | packageManagerDied => exact ⟨rfl, rfl⟩
  | persist => exact ⟨rfl, rfl⟩
  | loadPersistedKeys level env =>
    dsimp only [World.next]
    split_ifs
    · exact keepsConfig_loadPersistedKeys env level
    · exact ⟨rfl, rfl⟩
  | targetChanged | keyboxChanged | restart | initializeConfig => cases h

end Hooks

/-! ## The observer -/

section Observer

variable (lib : PemParsers) (xml : List Char → List XmlEvent) (P : Platform)

/-- `initialize` reads the files in this order. -/
def observer : Watcher String (List Char) Configured { e : Event // e.setsConfig = false } where
  paths := [TARGET_FILE, KEYBOX_FILE, PATCHLEVEL_FILE]
  update := onEvent lib xml
  absent := initializeAbsent
  next := next P
  Reflects := Reflects lib xml
  nodup := by decide
  removed c path _ := reflects_onEvent lib xml c path none
  text c text path _ := reflects_onEvent lib xml c path (some text)
  missing _ _ _ h := h.onEvent_missing
  notThere _ _ _ h := h.initializeAbsent
  frame_update _ _ seen _ _ _ hne h := h.onEvent_of_ne hne seen
  frame_absent _ _ _ _ _ hne h := h.initializeAbsent_of_ne hne
  frame_next c _ e _ _ h := h.congr (keepsConfig_next c.world e.1 e.2).1 (keepsConfig_next c.world e.1 e.2).2 rfl

/-- A process that has just been started, whatever keys it has loaded. -/
theorem reflects_nothing {c : Configured} (hmodes : c.world.daemon.config.packageModes = ∅)
    (hkeyboxes : c.world.daemon.keyboxes = ∅) (hlevels : c.levels = {}) (path : String) :
    c.Reflects lib xml path none :=
  ⟨fun _ => hmodes, fun _ => hkeyboxes, fun _ => hlevels⟩

/-- Whatever is done to the files while the daemon starts and runs: when the observer has dealt with what
it was notified of, the modes, the keyboxes and the patch levels are those of the present files, for every
file that was not changed unnoticed. -/
theorem config_converges (files : String → Option (List Char)) (c : Configured)
    (hmodes : c.world.daemon.config.packageModes = ∅) (hkeyboxes : c.world.daemon.keyboxes = ∅)
    (hlevels : c.levels = {})
    (es : List (WatchStep String (List Char) { e : Event // e.setsConfig = false })) (path : String)
    (hpath : path ∈ [TARGET_FILE, KEYBOX_FILE, PATCHLEVEL_FILE]) :
    let s := Machine.run (Watched.step (observer lib xml P)) (Watched.start (observer lib xml P) files c) es
    (s.unreported path = false ∨ path ∈ s.starting) → ∀ torn k, s.left ≤ k →
      (Machine.run (Watched.step (observer lib xml P)) s (Watched.catchUp torn k)).state.Reflects lib xml path
        (s.files path) := by
  intro s hreported torn k hk
  exact Watched.run_reflects (fun path _ => reflects_nothing lib xml hmodes hkeyboxes hlevels path) rfl hpath
    hreported torn hk

end Observer

end Configured

namespace Demo

/-- Parsers of which no text is expected. -/
def noPem : PemParsers := ⟨fun _ => none, fun _ => none⟩

/-- There are no files at first; `target.txt` is written twice, the second time while it is read. -/
def editedTwice : List (WatchStep String (List Char) { e : Event // e.setsConfig = false }) :=
  [.begin, .begin, .begin, .begin, .change TARGET_FILE (.write "com.owner".toList) false,
    .change TARGET_FILE .close false, .begin, .change TARGET_FILE (.write "com.owner!".toList) false,
    .finish (some "com.".toList), .next ⟨.persist, rfl⟩, .change TARGET_FILE .close false]

/-- The daemon in front of its last reading. -/
def edited : Watched String (List Char) Configured :=
  Machine.run (Watched.step (Configured.observer noPem (fun _ => []) platform))
    (Watched.start (Configured.observer noPem (fun _ => []) platform) (fun _ => none) {}) editedTwice

end Demo

open Demo Configured in
theorem config_converges_edited :
    (Machine.run (Watched.step (observer noPem (fun _ => []) platform)) edited
      (Watched.catchUp none 1)).state.Reflects noPem (fun _ => []) TARGET_FILE (edited.files TARGET_FILE) :=
  config_converges noPem (fun _ => []) platform (fun _ => none) {} rfl rfl rfl editedTwice TARGET_FILE
    (by decide) (.inl rfl) none 1 (by decide)

end TrickyStore
