import Mathlib.Logic.Function.Basic
import TrickyStore.Lib.Machine

/-!
# Watching files

A program reads some files when it starts, then has itself notified when a file of the directory was
written, moved or deleted, and reads the file again.  The file may change between the change that is
notified and the reading, and during the reading too.  Nothing is notified of a file before its writer
closes it, nor before the program watches.  Of every other file the program has read what is there, as
soon as it has dealt with what was notified.
-/

namespace Lib

namespace Watch

/-- Why the program is notified. -/
inductive Kind
  | closeWrite
  | movedTo
  | delete
  | movedFrom
deriving DecidableEq, Repr

structure Notice (P : Type*) where
  path : P
  kind : Kind
deriving DecidableEq, Repr

/-- The file is gone when this is notified. -/
def Notice.removes {P : Type*} (n : Notice P) : Bool :=
  match n.kind with
  | .closeWrite | .movedTo => false
  | .delete | .movedFrom => true

/-- What somebody does to a file. -/
inductive Change (C : Type*)
  | write (text : C)
  | close
  | moveIn (text : C)
  | delete
  | moveOut
deriving DecidableEq, Repr

/-- What the program finds when it deals with a notice. -/
inductive Seen (C : Type*)
  | removed
  | missing
  | unreadable
  | text (text : C)
deriving DecidableEq, Repr

namespace Change

variable {C : Type*}

def content (old : Option C) : Change C → Option C
  | .write text | .moveIn text => some text
  | .close => old
  | .delete | .moveOut => none

def notice {P : Type*} (path : P) : Change C → Option (Notice P)
  | .write _ => none
  | .close => some ⟨path, .closeWrite⟩
  | .moveIn _ => some ⟨path, .movedTo⟩
  | .delete => some ⟨path, .delete⟩
  | .moveOut => some ⟨path, .movedFrom⟩

/-- Whether the file may be another one afterwards. -/
def alters : Change C → Bool
  | .close => false
  | _ => true

/-- The notice brings the program to what the file is now. -/
def reports (old : Option C) : Change C → Bool
  | .write _ => false
  | .close => old.isSome
  | _ => true

/-- What is not there cannot be removed. -/
def possible (old : Option C) : Change C → Bool
  | .delete | .moveOut => old.isSome
  | _ => true

end Change

end Watch

open Watch

/-- A program with the state `σ` that reads the files `paths`, in this order, and then watches them;
`Reflects` says that the state is as a file wants it. -/
structure Watcher (P C σ ε : Type*) where
  paths : List P
  /-- Deals with a file that was read or that is gone. -/
  update : σ → P → Seen C → σ
  /-- Deals with a file that is not there at the start. -/
  absent : σ → P → σ
  /-- What else the program does. -/
  next : σ → ε → σ
  Reflects : P → Option C → σ → Prop
  nodup : paths.Nodup
  removed : ∀ s, ∀ p ∈ paths, Reflects p none (update s p .removed)
  text : ∀ s c, ∀ p ∈ paths, Reflects p (some c) (update s p (.text c))
  missing : ∀ s, ∀ p ∈ paths, Reflects p none s → Reflects p none (update s p .missing)
  notThere : ∀ s, ∀ p ∈ paths, Reflects p none s → Reflects p none (absent s p)
  frame_update : ∀ s c seen p', ∀ p ∈ paths, p' ≠ p → Reflects p c s → Reflects p c (update s p' seen)
  frame_absent : ∀ s c p', ∀ p ∈ paths, p' ≠ p → Reflects p c s → Reflects p c (absent s p')
  frame_next : ∀ s c e, ∀ p ∈ paths, Reflects p c s → Reflects p c (next s e)

/-- A file that is being read, and whether nobody has changed it since. -/
structure Reading (P : Type*) where
  path : P
  untouched : Bool := true
deriving DecidableEq, Repr

/-- The files, the program, and what it has still to do. -/
structure Watched (P C σ : Type*) where
  files : P → Option C
  state : σ
  /-- The files that it reads before it watches. -/
  starting : List P
  watching : Bool := false
  queue : List (Notice P) := []
  reading : Option (Reading P) := none
  /-- The file was changed, and not read nor notified since. -/
  unreported : P → Bool := fun _ => false

inductive WatchStep (P C ε : Type*)
  /-- Somebody changes a file; a notice may be merged with an equal one in front of it. -/
  | change (path : P) (c : Change C) (merged : Bool)
  /-- The program turns to the next thing that it has to do. -/
  | begin
  /-- It is done with reading a file; if the file was changed meanwhile, this is what it has read. -/
  | finish (torn : Option C)
  | next (e : ε)
deriving DecidableEq, Repr

namespace Watched

variable {P C σ ε : Type*} [DecidableEq P]

def enqueue (merged : Bool) (n : Notice P) (queue : List (Notice P)) : List (Notice P) :=
  if merged ∧ queue.getLast? = some n then queue else queue ++ [n]

/-- The reading of a file that is changed. -/
def touch (path : P) (r : Reading P) : Reading P := if r.path = path then { r with untouched := false } else r

def changed (s : Watched P C σ) (path : P) (c : Change C) (merged : Bool) : Watched P C σ :=
  { s with
    files := Function.update s.files path (c.content (s.files path))
    queue := if s.watching then (c.notice path).elim s.queue fun n => enqueue merged n s.queue else s.queue
    reading := if c.alters then s.reading.map (touch path) else s.reading
    unreported := Function.update s.unreported path
      (if s.watching ∧ c.reports (s.files path) then false else s.unreported path || c.alters) }

def change (s : Watched P C σ) (path : P) (c : Change C) (merged : Bool) : Watched P C σ :=
  if c.possible (s.files path) then s.changed path c merged else s

variable (W : Watcher P C σ ε)

def begin (s : Watched P C σ) : Watched P C σ :=
  match s.reading, s.starting, s.watching, s.queue with
  | some _, _, _, _ => s
  | none, path :: rest, _, _ =>
    let s := { s with starting := rest, unreported := Function.update s.unreported path false }
    match s.files path with
    | none => { s with state := W.absent s.state path }
    | some _ => { s with reading := some { path := path } }
  | none, [], false, _ => { s with watching := true }
  | none, [], true, [] => s
  | none, [], true, n :: queue =>
    let s := { s with queue := queue }
    if n.removes then { s with state := W.update s.state n.path .removed }
    else match s.files n.path with
      | none => { s with state := W.update s.state n.path .missing }
      | some _ => { s with reading := some { path := n.path } }

def finish (torn : Option C) (s : Watched P C σ) : Watched P C σ :=
  match s.reading with
  | none => s
  | some r =>
    let read := if r.untouched then s.files r.path else torn
    { s with
      state := W.update s.state r.path (read.elim .unreadable .text)
      reading := none }

def step (s : Watched P C σ) : WatchStep P C ε → Watched P C σ
  | .change path c merged => s.change path c merged
  | .begin => s.begin W
  | .finish torn => s.finish W torn
  | .next e => { s with state := W.next s.state e }

/-- The program before it has read any file. -/
def start (files : P → Option C) (state : σ) : Watched P C σ :=
  { files := files, state := state, starting := W.paths }

/-! ## What is notified of one file -/

def notices (s : Watched P C σ) (path : P) : List (Notice P) := s.queue.filter (·.path = path)

/-- The file is not being read. -/
def Free (s : Watched P C σ) (path : P) : Prop := ∀ r, s.reading = some r → r.path ≠ path

section Queues

variable {merged : Bool} {n : Notice P} {queue : List (Notice P)} {path : P}

theorem filter_enqueue_of_ne (h : n.path ≠ path) :
    (enqueue merged n queue).filter (·.path = path) = queue.filter (·.path = path) := by
  unfold enqueue
  split_ifs
  · rfl
  · simp [h]

theorem getLast?_filter_enqueue (h : n.path = path) :
    ((enqueue merged n queue).filter (·.path = path)).getLast? = some n := by
  unfold enqueue
  split_ifs with hmerged
  · obtain ⟨front, rfl⟩ := List.getLast?_eq_some_iff.1 hmerged.2
    simp [h]
  · simp [h]

theorem mem_enqueue {m : Notice P} (h : m ∈ queue) : m ∈ enqueue merged n queue := by
  unfold enqueue
  split_ifs
  · exact h
  · exact List.mem_append_left _ h

end Queues

/-- The file has been read since its last change, or it will be, or it is being read. -/
structure Settling (s : Watched P C σ) (path : P) : Prop where
  present : ∀ c, s.files path = some c →
    (∀ n, (s.notices path).getLast? = some n → n.removes = false) ∧
      (s.notices path = [] →
        W.Reflects path (some c) s.state ∧ s.Free path ∨ s.reading = some { path := path })
  absent : s.files path = none →
    (∃ n ∈ s.notices path, n.removes = true) ∨ W.Reflects path none s.state ∧ s.Free path

structure Sound (s : Watched P C σ) : Prop where
  starting : ∀ p ∈ s.starting, p ∈ W.paths ∧ W.Reflects p none s.state ∧ s.Free p
  nodup : s.starting.Nodup
  early : s.starting ≠ [] → s.watching = false
  idle : s.watching = false → s.queue = []
  untouched : ∀ r, s.reading = some r → r.untouched = true → (s.files r.path).isSome = true
  settling : ∀ p ∈ W.paths, p ∉ s.starting → s.unreported p = false → s.Settling W p

section Steps

variable {W} {s s' : Watched P C σ} {path p : P} {c : Change C} {merged : Bool}

theorem Settling.congr (h : s.Settling W p) (hfiles : s'.files p = s.files p)
    (hnotices : s'.notices p = s.notices p) (hfree : s.Free p → s'.Free p)
    (hreading : s.reading = some { path := p } → s'.reading = some { path := p })
    (hreflects : ∀ c, W.Reflects p c s.state → W.Reflects p c s'.state) : s'.Settling W p where
  present c hc := by
    rw [hfiles] at hc
    rw [hnotices]
    refine ⟨(h.present c hc).1, fun hnil => ?_⟩
    rcases (h.present c hc).2 hnil with ⟨hr, hf⟩ | hr
    · exact .inl ⟨hreflects _ hr, hfree hf⟩
    · exact .inr (hreading hr)
  absent hc := by
    rw [hfiles] at hc
    rw [hnotices]
    rcases h.absent hc with hn | ⟨hr, hf⟩
    · exact .inl hn
    · exact .inr ⟨hreflects _ hr, hfree hf⟩

/-! ### Changes -/

theorem touch_path (r : Reading P) : (touch path r).path = r.path := by
  unfold touch
  split_ifs <;> rfl

theorem touch_of_ne {r : Reading P} (h : r.path ≠ path) : touch path r = r := if_neg h

omit [DecidableEq P] in
theorem notice_path {n : Notice P} (h : c.notice path = some n) : n.path = path := by
  cases c <;> cases h <;> rfl

theorem notices_changed_of_ne (hne : path ≠ p) : (s.changed path c merged).notices p = s.notices p := by
  unfold notices changed
  dsimp only
  split_ifs
  · cases hn : c.notice path with
    | none => rfl
    | some n => exact filter_enqueue_of_ne (by rw [notice_path hn]; exact hne)
  · rfl

theorem free_changed (h : s.Free p) : (s.changed path c merged).Free p := by
  intro r' hr'
  unfold changed at hr'
  dsimp only at hr'
  split_ifs at hr'
  · obtain ⟨r, hr, rfl⟩ := Option.map_eq_some_iff.1 hr'
    rw [touch_path]
    exact h r hr
  · exact h r' hr'

/-- A change of another file. -/
theorem Settling.changed_of_ne (h : s.Settling W p) (hne : path ≠ p) :
    (s.changed path c merged).Settling W p := by
  refine h.congr (Function.update_of_ne hne.symm _ _) (notices_changed_of_ne hne) free_changed ?_ fun _ h => h
  intro hr
  unfold changed
  dsimp only
  split_ifs
  · rw [hr, Option.map_some, touch_of_ne hne.symm]
  · exact hr

/-- A change that is notified. -/
theorem Settling.changed_of_reports (hwatching : s.watching = true) (hreports : c.reports (s.files path) = true) :
    (s.changed path c merged).Settling W path := by
  obtain ⟨n, hn⟩ : ∃ n, c.notice path = some n := by
    cases c with
    | write text => cases hreports
    | _ => exact ⟨_, rfl⟩
  have hcontent : (s.changed path c merged).files path = c.content (s.files path) := Function.update_self _ _ _
  have hlast : ((s.changed path c merged).notices path).getLast? = some n := by
    unfold notices changed
    dsimp only
    rw [if_pos hwatching, hn]
    exact getLast?_filter_enqueue (notice_path hn)
  have hremoves : n.removes = (c.content (s.files path)).isNone := by
    cases c with
    | write text => cases hreports
    | close =>
      cases hn
      exact (Option.not_isSome _).symm.trans (congrArg (! ·) hreports) |>.symm
    | _ => cases hn; rfl
  constructor
  · intro text htext
    rw [hcontent] at htext
    refine ⟨fun m hm => ?_, fun hnil => ?_⟩
    · rw [hlast] at hm
      obtain rfl := Option.some.inj hm
      rw [hremoves, htext]
      rfl
    · rw [hnil] at hlast
      cases hlast
  · intro hgone
    rw [hcontent] at hgone
    refine .inl ⟨n, List.mem_of_getLast? hlast, ?_⟩
    rw [hremoves, hgone]
    rfl

theorem Settling.changed_self (h : s.unreported path = false → s.Settling W path)
    (hunreported : (s.changed path c merged).unreported path = false) :
    (s.changed path c merged).Settling W path := by
  have hvalue : (s.changed path c merged).unreported path =
      if s.watching ∧ c.reports (s.files path) then false else s.unreported path || c.alters :=
    Function.update_self _ _ _
  rw [hvalue] at hunreported
  split_ifs at hunreported with hreports
  · exact .changed_of_reports hreports.1 hreports.2
  obtain ⟨hbefore, halters⟩ := Bool.or_eq_false_iff.1 hunreported
  -- a writer that closes the file leaves it as it is
  obtain rfl : c = .close := by
    cases c with
    | close => rfl
    | _ => cases halters
  have hfiles : (s.changed path .close merged).files path = s.files path := Function.update_self _ _ _
  have hs := h hbefore
  cases hwatching : s.watching with
  | false =>
    refine hs.congr hfiles ?_ id id fun _ h => h
    unfold notices changed
    dsimp only
    rw [hwatching]
    rfl
  | true =>
    have hgone : s.files path = none := by
      cases hfile : s.files path with
      | none => rfl
      | some text => exact absurd ⟨hwatching, by rw [hfile]; rfl⟩ hreports
    constructor
    · intro text htext
      rw [hfiles, hgone] at htext
      cases htext
    · intro _
      rcases hs.absent hgone with ⟨n, hn, hremoves⟩ | hr
      · refine .inl ⟨n, ?_, hremoves⟩
        obtain ⟨hmem, hpath⟩ := List.mem_filter.1 hn
        refine List.mem_filter.2 ⟨?_, hpath⟩
        unfold changed
        dsimp only
        rw [if_pos hwatching]
        exact mem_enqueue hmem
      · exact .inr hr

theorem Sound.change (h : s.Sound W) : (s.change path c merged).Sound W := by
  unfold Watched.change
  split_ifs
  · refine ⟨?_, h.nodup, h.early, ?_, ?_, ?_⟩
    · intro p hp
      obtain ⟨hmem, hr, hf⟩ := h.starting p hp
      exact ⟨hmem, hr, free_changed hf⟩
    · intro hwatching
      have hw : s.watching = false := hwatching
      unfold changed
      dsimp only
      rw [hw]
      exact h.idle hw
    · intro r' hr' huntouched
      have hkept (hne : r'.path ≠ path) : (s.changed path c merged).files r'.path = s.files r'.path :=
        Function.update_of_ne hne _ _
      cases halters : c.alters with
      | true =>
        have hmap : s.reading.map (touch path) = some r' := by
          rw [← hr', changed]
          exact (if_pos halters).symm
        obtain ⟨r, hr, rfl⟩ := Option.map_eq_some_iff.1 hmap
        by_cases hne : r.path = path
        · rw [touch, if_pos hne] at huntouched
          cases huntouched
        · rw [touch_of_ne hne] at hkept huntouched ⊢
          rw [hkept hne]
          exact h.untouched r hr huntouched
      | false =>
        have hr : s.reading = some r' := by
          rw [← hr', changed]
          exact (if_neg (by simp [halters])).symm
        obtain rfl : c = .close := by
          cases c with
          | close => rfl
          | _ => cases halters
        by_cases hne : r'.path = path
        · subst hne
          rw [show (s.changed r'.path .close merged).files r'.path = s.files r'.path from
            Function.update_self _ _ _]
          exact h.untouched r' hr huntouched
        · rw [hkept hne]
          exact h.untouched r' hr huntouched
    · intro p hp hstarting hunreported
      by_cases hne : path = p
      · subst hne
        exact .changed_self (h.settling path hp hstarting) hunreported
      · have hsame : (s.changed path c merged).unreported p = s.unreported p :=
          Function.update_of_ne (Ne.symm hne) _ _
        rw [hsame] at hunreported
        exact (h.settling p hp hstarting hunreported).changed_of_ne hne
  · exact h

/-! ### Reading -/

theorem Settling.next (e : ε) (hp : p ∈ W.paths) (h : s.Settling W p) :
    ({ s with state := W.next s.state e } : Watched P C σ).Settling W p :=
  h.congr rfl rfl id id fun c => W.frame_next s.state c e p hp

theorem Sound.next (h : s.Sound W) (e : ε) :
    ({ s with state := W.next s.state e } : Watched P C σ).Sound W where
  starting p hp := by
    obtain ⟨hmem, hr, hf⟩ := h.starting p hp
    exact ⟨hmem, W.frame_next _ _ _ p hmem hr, hf⟩
  nodup := h.nodup
  early := h.early
  idle := h.idle
  untouched := h.untouched
  settling p hp hstarting hunreported := (h.settling p hp hstarting hunreported).next e hp

/-- What the program has read. -/
def read (s : Watched P C σ) (torn : Option C) (r : Reading P) : Seen C :=
  (if r.untouched then s.files r.path else torn).elim .unreadable .text

omit [DecidableEq P] in
theorem finish_eq {r : Reading P} (hr : s.reading = some r) (torn : Option C) :
    s.finish W torn = { s with state := W.update s.state r.path (s.read torn r), reading := none } := by
  rw [Watched.finish, hr]
  rfl

/-- A file that was read. -/
theorem Settling.finish {r : Reading P} (h : s.Settling W r.path) (hp : r.path ∈ W.paths)
    (hr : s.reading = some r) (torn : Option C) : (s.finish W torn).Settling W r.path := by
  have hbusy (hf : s.Free r.path) : False := hf r hr rfl
  rw [finish_eq hr]
  constructor
  · intro c hc
    refine ⟨(h.present c hc).1, fun hnil => .inl ⟨?_, fun r' hr' => nomatch hr'⟩⟩
    rcases (h.present c hc).2 hnil with ⟨-, hf⟩ | hreading
    · exact (hbusy hf).elim
    · have huntouched : r.untouched = true := congrArg Reading.untouched (Option.some.inj (hr.symm.trans hreading))
      have hread : s.read torn r = .text c := by
        rw [read, if_pos huntouched, show s.files r.path = some c from hc]
        rfl
      rw [hread]
      exact W.text _ _ _ hp
  · intro hgone
    rcases h.absent hgone with hn | ⟨-, hf⟩
    · exact .inl hn
    · exact (hbusy hf).elim

theorem Sound.finish (h : s.Sound W) (torn : Option C) : (s.finish W torn).Sound W := by
  cases hr : s.reading with
  | none =>
    rw [Watched.finish, hr]
    exact h
  | some r =>
    refine ⟨?_, ?_, ?_, ?_, ?_, ?_⟩
    · rw [finish_eq hr]
      intro p hp
      obtain ⟨hmem, hreflects, hf⟩ := h.starting p hp
      exact ⟨hmem, W.frame_update _ _ _ _ p hmem (hf r hr) hreflects, fun r' hr' => nomatch hr'⟩
    · rw [finish_eq hr]
      exact h.nodup
    · rw [finish_eq hr]
      exact h.early
    · rw [finish_eq hr]
      exact h.idle
    · rw [finish_eq hr]
      exact fun r' hr' => nomatch hr'
    · intro p hp hstarting hunreported
      have hsettling : s.Settling W p := by
        rw [finish_eq hr] at hstarting hunreported
        exact h.settling p hp hstarting hunreported
      by_cases hne : r.path = p
      · subst hne
        exact hsettling.finish hp hr torn
      · rw [finish_eq hr]
        refine hsettling.congr rfl rfl (fun _ r' hr' => nomatch hr') ?_ fun c =>
          W.frame_update _ _ _ _ p hp hne
        intro hreading
        exact absurd (congrArg Reading.path (Option.some.inj (hr.symm.trans hreading))) hne

/-! ### Turning to the next thing -/

section Begin

variable {rest : List P} {n : Notice P} {queue : List (Notice P)}

theorem begin_busy {r : Reading P} (hr : s.reading = some r) : s.begin W = s := by
  rw [begin, hr]

omit [DecidableEq P] in
theorem free_of_idle (hr : s.reading = none) : s.Free p := fun r hr' => by
  rw [hr] at hr'
  cases hr'

theorem begin_start (hr : s.reading = none) (hs : s.starting = path :: rest) :
    s.begin W = match s.files path with
      | none => { s with
          starting := rest, unreported := Function.update s.unreported path false
          state := W.absent s.state path }
      | some _ => { s with
          starting := rest, unreported := Function.update s.unreported path false
          reading := some { path := path } } := by
  rw [begin, hr, hs]

theorem begin_watch (hr : s.reading = none) (hs : s.starting = []) (hw : s.watching = false) :
    s.begin W = { s with watching := true } := by
  rw [begin, hr, hs, hw]

theorem begin_idle (hr : s.reading = none) (hs : s.starting = []) (hw : s.watching = true) (hq : s.queue = []) :
    s.begin W = s := by
  rw [begin, hr, hs, hw, hq]

theorem begin_notice (hr : s.reading = none) (hs : s.starting = []) (hw : s.watching = true)
    (hq : s.queue = n :: queue) :
    s.begin W = if n.removes then { s with queue := queue, state := W.update s.state n.path .removed }
      else match s.files n.path with
        | none => { s with queue := queue, state := W.update s.state n.path .missing }
        | some _ => { s with queue := queue, reading := some { path := n.path } } := by
  rw [begin, hr, hs, hw, hq]

theorem Sound.begin_start (h : s.Sound W) (hr : s.reading = none) (hs : s.starting = path :: rest) :
    (s.begin W).Sound W := by
  have hnodup : path ∉ rest ∧ rest.Nodup := List.nodup_cons.1 (hs ▸ h.nodup)
  have hpath := h.starting path (hs ▸ List.mem_cons_self)
  have hrest (p : P) (hp : p ∈ rest) : path ≠ p ∧ p ∈ W.paths ∧ W.Reflects p none s.state ∧ s.Free p := by
    refine ⟨?_, h.starting p (hs ▸ List.mem_cons_of_mem _ hp)⟩
    rintro rfl
    exact hnodup.1 hp
  have hidle : s.queue = [] := h.idle (h.early (by simp [hs]))
  have hnotices (p : P) : s.notices p = [] := by
    rw [notices, hidle]
    rfl
  -- what is known of the other files that were read before
  have hothers (p : P) (hne : path ≠ p) (hp : p ∈ W.paths) (hstarting : p ∉ rest)
      (hunreported : Function.update s.unreported path false p = false) : s.Settling W p := by
    refine h.settling p hp ?_ ?_
    · rw [hs, List.mem_cons, not_or]
      exact ⟨hne.symm, hstarting⟩
    · rwa [Function.update_of_ne hne.symm] at hunreported
  rw [Watched.begin_start hr hs]
  cases hfile : s.files path with
  | none =>
    refine ⟨fun p hp => ?_, hnodup.2, fun _ => h.early (by simp [hs]), h.idle, h.untouched, ?_⟩
    · obtain ⟨hne, hmem, hreflects, hf⟩ := hrest p hp
      exact ⟨hmem, W.frame_absent _ _ _ p hmem hne hreflects, hf⟩
    · intro p hp hstarting hunreported
      by_cases hne : path = p
      · subst hne
        refine ⟨fun c hc => ?_, fun _ => .inr ⟨W.notThere _ _ hp hpath.2.1, free_of_idle hr⟩⟩
        cases hfile.symm.trans hc
      · exact (hothers p hne hp hstarting hunreported).congr rfl rfl id id fun c =>
          W.frame_absent _ _ _ p hp hne
  | some text =>
    refine ⟨fun p hp => ?_, hnodup.2, fun _ => h.early (by simp [hs]), h.idle, ?_, ?_⟩
    · obtain ⟨hne, hmem, hreflects, -⟩ := hrest p hp
      refine ⟨hmem, hreflects, ?_⟩
      rintro r ⟨⟩
      exact hne
    · rintro r ⟨⟩ -
      rw [hfile]
      rfl
    · intro p hp hstarting hunreported
      by_cases hne : path = p
      · subst hne
        refine ⟨fun c _ => ⟨fun n hn => ?_, fun _ => .inr rfl⟩, fun hc => ?_⟩
        · have hlast : (s.notices path).getLast? = some n := hn
          rw [hnotices] at hlast
          cases hlast
        · cases hfile.symm.trans hc
      · refine (hothers p hne hp hstarting hunreported).congr rfl rfl ?_ ?_ fun _ h => h
        · rintro - r ⟨⟩
          exact hne
        · intro hreading
          cases hr.symm.trans hreading

theorem notices_cons (hq : s.queue = n :: queue) (hn : n.path = p) :
    s.notices p = n :: queue.filter (·.path = p) := by
  rw [notices, hq]
  exact List.filter_cons_of_pos (decide_eq_true hn)

theorem notices_cons_of_ne (hq : s.queue = n :: queue) (hn : n.path ≠ p) :
    s.notices p = queue.filter (·.path = p) := by
  rw [notices, hq]
  exact List.filter_cons_of_neg (by simpa using hn)

/-- The last notice of a present file is dealt with last. -/
theorem Settling.last (h : s.Settling W p) (hq : s.queue = n :: queue) (hn : n.path = p) {c : C}
    (hc : s.files p = some c) :
    (∀ m, (queue.filter (·.path = p)).getLast? = some m → m.removes = false) ∧
      (queue.filter (·.path = p) = [] → n.removes = false) := by
  have hlast := (h.present c hc).1
  rw [notices_cons hq hn] at hlast
  constructor
  · intro m hm
    refine hlast m ?_
    rw [List.getLast?_cons, hm]
    rfl
  · intro hnil
    refine hlast n ?_
    rw [hnil]
    rfl

/-- The first notice, if the file is gone by now. -/
theorem Settling.after (h : s.Settling W p) (hq : s.queue = n :: queue) (hn : n.path = p)
    (hremoves : n.removes = false) (hgone : s.files p = none) :
    (∃ m ∈ queue.filter (·.path = p), m.removes = true) ∨ W.Reflects p none s.state := by
  rcases h.absent hgone with ⟨m, hm, hmr⟩ | ⟨hreflects, -⟩
  · rw [notices_cons hq hn] at hm
    rcases List.mem_cons.1 hm with rfl | hm
    · cases hremoves.symm.trans hmr
    · exact .inl ⟨m, hm, hmr⟩
  · exact .inr hreflects

/-- The program deals with a notice. -/
theorem Settling.begin_notice (h : s.Settling W p) (hp : p ∈ W.paths) (hr : s.reading = none)
    (hs : s.starting = []) (hw : s.watching = true) (hq : s.queue = n :: queue) :
    (s.begin W).Settling W p := by
  rw [Watched.begin_notice hr hs hw hq]
  by_cases hn : n.path = p
  · subst hn
    cases hremoves : n.removes with
    | true =>
      rw [if_pos rfl]
      refine ⟨fun c hc => ⟨(h.last hq rfl hc).1, fun hnil => ?_⟩, fun _ => .inr ⟨W.removed _ _ hp, free_of_idle hr⟩⟩
      cases hremoves.symm.trans ((h.last hq rfl hc).2 hnil)
    | false =>
      rw [if_neg (by simp)]
      cases hfile : s.files n.path with
      | none =>
        refine ⟨fun c hc => ?_, fun _ => ?_⟩
        · cases hfile.symm.trans hc
        · rcases h.after hq rfl hremoves hfile with hm | hreflects
          · exact .inl hm
          · exact .inr ⟨W.missing _ _ hp hreflects, free_of_idle hr⟩
      | some text =>
        refine ⟨fun c hc => ⟨(h.last hq rfl hc).1, fun _ => .inr rfl⟩, fun hc => ?_⟩
        cases hfile.symm.trans hc
  · have hnotices := notices_cons_of_ne hq hn
    cases hremoves : n.removes with
    | true => exact h.congr rfl hnotices.symm id id fun c => W.frame_update _ _ _ _ p hp hn
    | false =>
      rw [if_neg (by simp)]
      cases hfile : s.files n.path with
      | none => exact h.congr rfl hnotices.symm id id fun c => W.frame_update _ _ _ _ p hp hn
      | some text =>
        refine h.congr rfl hnotices.symm ?_ ?_ fun _ h => h
        · rintro - r ⟨⟩
          exact hn
        · intro hreading
          cases hr.symm.trans hreading

theorem Sound.begin_notice (h : s.Sound W) (hr : s.reading = none) (hs : s.starting = [])
    (hw : s.watching = true) (hq : s.queue = n :: queue) : (s.begin W).Sound W := by
  have hsame : (s.begin W).starting = s.starting ∧ (s.begin W).watching = s.watching ∧
      (s.begin W).unreported = s.unreported ∧ (s.begin W).files = s.files := by
    rw [Watched.begin_notice hr hs hw hq]
    split_ifs
    · exact ⟨rfl, rfl, rfl, rfl⟩
    · cases s.files n.path <;> exact ⟨rfl, rfl, rfl, rfl⟩
  obtain ⟨hstarting, hwatching, hunreported, hfiles⟩ := hsame
  refine ⟨?_, hstarting ▸ h.nodup, ?_, ?_, ?_, ?_⟩
  · rw [hstarting, hs]
    exact fun p hp => nomatch hp
  · rw [hstarting, hs]
    exact fun hne => absurd rfl hne
  · rw [hwatching, hw]
    exact fun hne => nomatch hne
  · rw [hfiles, Watched.begin_notice hr hs hw hq]
    intro r hr' _
    split_ifs at hr'
    · cases hr.symm.trans hr'
    · cases hfile : s.files n.path with
      | none =>
        rw [hfile] at hr'
        cases hr.symm.trans hr'
      | some text =>
        rw [hfile] at hr'
        cases hr'
        rw [hfile]
        rfl
  · rw [hstarting, hunreported]
    intro p hp hstart hreported
    exact (h.settling p hp hstart hreported).begin_notice hp hr hs hw hq

theorem Sound.begin (h : s.Sound W) : (s.begin W).Sound W := by
  cases hr : s.reading with
  | some r => rwa [begin_busy hr]
  | none =>
    cases hs : s.starting with
    | cons path rest => exact h.begin_start hr hs
    | nil =>
      cases hw : s.watching with
      | false =>
        rw [begin_watch hr hs hw]
        exact ⟨h.starting, h.nodup, fun hne => absurd hs hne, fun hne => (nomatch hne), h.untouched,
          fun p hp hstarting hunreported => (h.settling p hp hstarting hunreported).congr rfl rfl id id fun _ h => h⟩
      | true =>
        cases hq : s.queue with
        | nil => rwa [begin_idle hr hs hw hq]
        | cons n queue => exact h.begin_notice hr hs hw hq

end Begin

theorem Sound.step (h : s.Sound W) (e : WatchStep P C ε) : (s.step W e).Sound W := by
  cases e with
  | change path c merged => exact h.change
  | begin => exact h.begin
  | finish torn => exact h.finish torn
  | next e => exact h.next e

theorem sound_start {files : P → Option C} {state : σ} (h : ∀ p ∈ W.paths, W.Reflects p none state) :
    (start W files state).Sound W where
  starting p hp := ⟨hp, h p hp, fun _ hr => nomatch hr⟩
  nodup := W.nodup
  early _ := rfl
  idle _ := rfl
  untouched _ hr := nomatch hr
  settling _ hp hstarting := absurd hp hstarting

end Steps

/-! ## Catching up -/

/-- The program deals with `k` things, and nobody else does anything. -/
def catchUp (torn : Option C) (k : ℕ) : List (WatchStep P C ε) :=
  .finish torn :: (List.replicate k [.begin, .finish torn]).flatten

/-- The things that the program has to do. -/
def left (s : Watched P C σ) : ℕ := s.starting.length + s.queue.length + if s.watching then 0 else 1

section CatchUp

variable {W} {s : Watched P C σ} {p : P}

/-- Nobody does anything else meanwhile. -/
structure Onward (s s' : Watched P C σ) : Prop where
  files : s'.files = s.files
  reported : ∀ p, s.unreported p = false ∨ p ∈ s.starting → s'.unreported p = false ∨ p ∈ s'.starting

omit [DecidableEq P] in
theorem Onward.trans {s s' s'' : Watched P C σ} (h : Onward s s') (h' : Onward s' s'') : Onward s s'' :=
  ⟨h'.files.trans h.files, fun p hp => h'.reported p (h.reported p hp)⟩

omit [DecidableEq P] in
theorem onward_finish (torn : Option C) : Onward s (s.finish W torn) ∧ (s.finish W torn).reading = none ∧
    (s.finish W torn).left = s.left := by
  cases hr : s.reading with
  | none =>
    rw [Watched.finish, hr]
    exact ⟨⟨rfl, fun _ h => h⟩, hr, rfl⟩
  | some r =>
    rw [finish_eq hr]
    exact ⟨⟨rfl, fun _ h => h⟩, rfl, rfl⟩

theorem onward_begin (hr : s.reading = none) : Onward s (s.begin W) ∧ (s.begin W).left = s.left - 1 := by
  cases hs : s.starting with
  | cons path rest =>
    have hleft : ({ s with starting := rest } : Watched P C σ).left = s.left - 1 := by
      simp only [left, hs, List.length_cons]
      omega
    have hreported (p : P) (hp : s.unreported p = false ∨ p ∈ s.starting) :
        Function.update s.unreported path false p = false ∨ p ∈ rest := by
      by_cases hne : p = path
      · subst hne
        exact .inl (Function.update_self _ _ _)
      · rw [hs, List.mem_cons] at hp
        rw [Function.update_of_ne hne]
        exact hp.imp_right fun h => h.resolve_left hne
    rw [begin_start hr hs]
    cases s.files path <;> exact ⟨⟨rfl, hreported⟩, hleft⟩
  | nil =>
    cases hw : s.watching with
    | false =>
      rw [begin_watch hr hs hw]
      refine ⟨⟨rfl, fun _ h => h⟩, ?_⟩
      simp [left, hw]
    | true =>
      cases hq : s.queue with
      | nil =>
        rw [begin_idle hr hs hw hq]
        exact ⟨⟨rfl, fun _ h => h⟩, by simp [left, hs, hw, hq]⟩
      | cons n queue =>
        have hleft : ({ s with queue := queue } : Watched P C σ).left = s.left - 1 := by
          simp only [left, hq, List.length_cons]
          omega
        rw [begin_notice hr hs hw hq]
        split_ifs
        · exact ⟨⟨rfl, fun _ h => h⟩, hleft⟩
        · cases s.files n.path <;> exact ⟨⟨rfl, fun _ h => h⟩, hleft⟩

theorem onward_rounds (torn : Option C) (k : ℕ) (hr : s.reading = none) :
    Onward s (Machine.run (step W) s (List.replicate k [.begin, .finish torn]).flatten) ∧
      (Machine.run (step W) s (List.replicate k [.begin, .finish torn]).flatten).reading = none ∧
      (Machine.run (step W) s (List.replicate k [.begin, .finish torn]).flatten).left = s.left - k := by
  induction k generalizing s with
  | zero => exact ⟨⟨rfl, fun _ h => h⟩, hr, rfl⟩
  | succ k ih =>
    have hbegin := onward_begin (W := W) hr
    have hfinish := onward_finish (W := W) (s := s.begin W) torn
    obtain ⟨honward, hreading, hleft⟩ := ih hfinish.2.1
    refine ⟨(hbegin.1.trans hfinish.1).trans honward, hreading, hleft.trans ?_⟩
    rw [hfinish.2.2, hbegin.2]
    omega

/-- When nothing is left to do, the state is as the files want it. -/
theorem Sound.reflects (h : s.Sound W) (hr : s.reading = none) (hleft : s.left = 0) (hp : p ∈ W.paths)
    (hreported : s.unreported p = false ∨ p ∈ s.starting) : W.Reflects p (s.files p) s.state := by
  have hstarting : s.starting = [] := List.length_eq_zero_iff.1 (by unfold left at hleft; omega)
  have hqueue : s.queue = [] := List.length_eq_zero_iff.1 (by unfold left at hleft; omega)
  have hnotices : s.notices p = [] := by
    rw [notices, hqueue]
    rfl
  rw [hstarting] at hreported
  have hsettling := h.settling p hp (by simp [hstarting]) (hreported.resolve_right (by simp))
  cases hfile : s.files p with
  | none =>
    rcases hsettling.absent hfile with ⟨n, hn, -⟩ | ⟨hreflects, -⟩
    · rw [hnotices] at hn
      cases hn
    · exact hreflects
  | some c =>
    rcases (hsettling.present c hfile).2 hnotices with ⟨hreflects, -⟩ | hreading
    · exact hreflects
    · cases hr.symm.trans hreading

/-- Whatever was done to the files, and whenever: once the program has dealt with what it was notified of,
its state is as every file wants it that was not changed behind its back. -/
theorem run_reflects {files : P → Option C} {state : σ} {es : List (WatchStep P C ε)}
    (hstate : ∀ p ∈ W.paths, W.Reflects p none state) (hs : s = Machine.run (step W) (start W files state) es)
    (hp : p ∈ W.paths) (hreported : s.unreported p = false ∨ p ∈ s.starting) (torn : Option C) {k : ℕ}
    (hk : s.left ≤ k) : W.Reflects p (s.files p) (Machine.run (step W) s (catchUp torn k)).state := by
  have hsound : s.Sound W := by
    rw [hs]
    exact Machine.run_invariant (fun s e h => h.step e) (sound_start hstate)
  have hfinish := onward_finish (W := W) (s := s) torn
  have hrounds := onward_rounds (W := W) torn k hfinish.2.1
  have hfinal : (Machine.run (step W) s (catchUp torn k)).Sound W :=
    Machine.run_invariant (fun s e h => h.step e) hsound
  have honward := hfinish.1.trans hrounds.1
  rw [← honward.files]
  refine hfinal.reflects hrounds.2.1 ?_ hp (honward.reported p hreported)
  have hleft := hrounds.2.2
  rw [hfinish.2.2] at hleft
  exact hleft.trans (by omega)

end CatchUp

end Watched

end Lib
