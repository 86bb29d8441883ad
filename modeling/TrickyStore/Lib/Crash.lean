import TrickyStore.Lib.HashMap
import TrickyStore.Lib.Machine

/-!
# Programs on files that a crash may cut off

A task is a program of single actions, each of which happens or does not.  It may be cut off behind any
of them, by a crash or by an exception.  If, seen through a view, a task that is cut off has done all of
its work or none, then any number of cut-offs in a history leaves what some history of whole tasks
leaves: of all that were finished, and of some of those that were not.  Replacing a file by way of a
temporary one is such a task; copying over it is not.
-/

namespace Lib

/-! ## Tasks that may be cut off -/

/-- A task, and behind how many of its actions it was cut off, if it was. -/
structure Attempt (T : Type*) where
  task : T
  cutOff : Option ℕ := none
deriving DecidableEq, Repr

namespace Attempt

variable {T σ α V : Type*}

/-- The actions that were done. -/
def done (a : Attempt T) (program : List α) : List α := a.cutOff.elim program program.take

/-- The state after an attempt. -/
def run (perform : σ → α → σ) (program : σ → T → List α) (s : σ) (a : Attempt T) : σ :=
  Machine.run perform s (a.done (program s a.task))

/-- All tasks that were finished, and some of those that were cut off, in their order. -/
inductive Effective : List (Attempt T) → List T → Prop
  | nil : Effective [] []
  | kept {a as ts} (h : Effective as ts) : Effective (a :: as) (a.task :: ts)
  | lost {a as ts} (hcut : a.cutOff ≠ none) (h : Effective as ts) : Effective (a :: as) ts

theorem Effective.subset {as : List (Attempt T)} {ts : List T} (h : Effective as ts) :
    ∀ t ∈ ts, ∃ a ∈ as, a.task = t := by
  induction h with
  | nil => simp
  | kept h ih =>
    intro t ht
    rcases List.mem_cons.1 ht with rfl | ht
    · exact ⟨_, List.mem_cons_self, rfl⟩
    · obtain ⟨a, ha, rfl⟩ := ih t ht
      exact ⟨a, List.mem_cons_of_mem _ ha, rfl⟩
  | lost hcut h ih =>
    intro t ht
    obtain ⟨a, ha, rfl⟩ := ih t ht
    exact ⟨a, List.mem_cons_of_mem _ ha, rfl⟩

/-- All of the tasks, whether they were cut off or not. -/
theorem effective_map (as : List (Attempt T)) : Effective as (as.map task) := by
  induction as with
  | nil => exact .nil
  | cons a as ih => exact .kept ih

variable {perform : σ → α → σ} {program : σ → T → List α} {I : σ → Prop} {view : σ → V}
  {effect : V → T → V} {le : V → V → Prop} {s : σ} {as : List (Attempt T)}

/-- An attempt has, seen through the view, all of the task's effect, or none if it was cut off; what is
seen may fall short of that in the sense of `le`. -/
structure AllOrNothing (perform : σ → α → σ) (program : σ → T → List α) (I : σ → Prop) (view : σ → V)
    (effect : V → T → V) (le : V → V → Prop) (a : Attempt T) : Prop where
  keeps : ∀ s, I s → I (a.run perform program s)
  finished : ∀ s, I s → a.cutOff = none → le (view (a.run perform program s)) (effect (view s) a.task)
  cut : ∀ s, I s → le (view (a.run perform program s)) (effect (view s) a.task) ∨
    le (view (a.run perform program s)) (view s)

/-- A history of such attempts leaves what a history of whole tasks leaves. -/
theorem exists_effective (hrefl : ∀ v, le v v) (htrans : ∀ u v w, le u v → le v w → le u w)
    (hmono : ∀ v w t, le v w → le (effect v t) (effect w t))
    (has : ∀ a ∈ as, AllOrNothing perform program I view effect le a) (hs : I s) :
    I (Machine.run (run perform program) s as) ∧ ∃ ts, Effective as ts ∧
      le (view (Machine.run (run perform program) s as)) (ts.foldl effect (view s)) := by
  have hfold (ts : List T) (v w : V) (h : le v w) : le (ts.foldl effect v) (ts.foldl effect w) := by
    induction ts generalizing v w with
    | nil => exact h
    | cons t ts ih => exact ih _ _ (hmono v w t h)
  induction as generalizing s with
  | nil => exact ⟨hs, [], .nil, hrefl _⟩
  | cons a as ih =>
    have ha := has a List.mem_cons_self
    obtain ⟨hI, ts, hts, hview⟩ := ih (fun a' h => has a' (List.mem_cons_of_mem _ h)) (ha.keeps s hs)
    refine ⟨hI, ?_⟩
    by_cases hcut : a.cutOff = none
    · exact ⟨a.task :: ts, .kept hts, htrans _ _ _ hview (hfold ts _ _ (ha.finished s hs hcut))⟩
    · rcases ha.cut s hs with heffect | hsame
      · exact ⟨a.task :: ts, .kept hts, htrans _ _ _ hview (hfold ts _ _ heffect)⟩
      · exact ⟨ts, .lost hcut hts, htrans _ _ _ hview (hfold ts _ _ hsame)⟩

/-- What holds behind every part of the program holds after an attempt. -/
theorem run_of_prefix {P : σ → Prop} (a : Attempt T)
    (h : ∀ part, part <+: program s a.task → P (Machine.run perform s part)) :
    P (a.run perform program s) := by
  refine h _ ?_
  unfold done
  cases a.cutOff with
  | none => exact List.prefix_refl _
  | some n => exact List.take_prefix n _

theorem run_of_finished {a : Attempt T} (h : a.cutOff = none) :
    a.run perform program s = Machine.run perform s (program s a.task) := by
  rw [run, done, h]
  rfl

end Attempt

/-! ## Files -/

/-- The files of a file system, by their paths. -/
abbrev Files (P β : Type*) := HashMap P (List β)

/-- What the file system does at once. -/
inductive FileAction (P β : Type*)
  | create (path : P)
  | append (path : P) (b : β)
  | rename (path target : P)
  | delete (path : P)
deriving DecidableEq, Repr

namespace Files

variable {P β : Type*} [DecidableEq P]

/-- A new file is empty, and replaces one that is there; so does a file that is renamed. -/
def perform (files : Files P β) : FileAction P β → Files P β
  | .create path => AList.insert path [] files
  | .append path b => (files.lookup path).elim files fun bytes => AList.insert path (bytes ++ [b]) files
  | .rename path target =>
    (files.lookup path).elim files fun bytes => AList.insert target bytes (AList.erase path files)
  | .delete path => AList.erase path files

/-- The file that an action leaves otherwise than it was. -/
def Touches (path : P) : FileAction P β → Prop
  | .create p | .append p _ | .delete p => p = path
  | .rename p target => p = path ∨ target = path

variable {files : Files P β} {path tmp : P} {bytes : List β}

theorem lookup_perform_of_not_touches {a : FileAction P β} (h : ¬ Touches path a) :
    (perform files a).lookup path = files.lookup path := by
  cases a with
  | create p => exact AList.lookup_insert_ne fun heq => h heq.symm
  | append p b =>
    dsimp only [perform]
    cases files.lookup p with
    | none => rfl
    | some bytes => exact AList.lookup_insert_ne fun heq => h heq.symm
  | rename p target =>
    have hne : ¬ (p = path ∨ target = path) := h
    dsimp only [perform]
    cases files.lookup p with
    | none => rfl
    | some bytes =>
      exact (AList.lookup_insert_ne fun heq => hne (.inr heq.symm)).trans
        (AList.lookup_erase_ne fun heq => hne (.inl heq.symm))
  | delete p => exact AList.lookup_erase_ne fun heq => h heq.symm

/-- The files that a program leaves alone. -/
theorem lookup_run_of_not_touches {program : List (FileAction P β)} (h : ∀ a ∈ program, ¬ Touches path a) :
    (Machine.run perform files program).lookup path = files.lookup path := by
  induction program generalizing files with
  | nil => rfl
  | cons a program ih =>
    rw [Machine.run_cons, ih fun a' h' => h a' (List.mem_cons_of_mem _ h'),
      lookup_perform_of_not_touches (h a List.mem_cons_self)]

/-! ## Writing and replacing a file -/

/-- Creates a file and writes it byte by byte. -/
def write (path : P) (bytes : List β) : List (FileAction P β) := .create path :: bytes.map (.append path)

/-- Writes a temporary file and renames it. -/
def replace (tmp path : P) (bytes : List β) : List (FileAction P β) := write tmp bytes ++ [.rename tmp path]

/-- Writes a temporary file and copies it over another, which is deleted before. -/
def overwrite (tmp path : P) (bytes : List β) : List (FileAction P β) :=
  write tmp bytes ++ .delete path :: (write path bytes ++ [.delete tmp])

theorem lookup_run_appends {content : List β} (h : files.lookup path = some content) (bytes : List β) :
    (Machine.run perform files (bytes.map (.append path))).lookup path = some (content ++ bytes) := by
  induction bytes generalizing files content with
  | nil => simpa using h
  | cons b bytes ih =>
    have happend : perform files (.append path b) = AList.insert path (content ++ [b]) files := by
      rw [perform, h]
      rfl
    rw [List.map_cons, Machine.run_cons, happend, ih (AList.lookup_insert _)]
    simp

theorem lookup_run_write (files : Files P β) (path : P) (bytes : List β) :
    (Machine.run perform files (write path bytes)).lookup path = some bytes := by
  rw [write, Machine.run_cons]
  exact lookup_run_appends (AList.lookup_insert _) bytes

variable (files) in
/-- Of a file that is still being written there is the beginning. -/
theorem lookup_run_part_of_write {part : List (FileAction P β)} (h : part <+: write path bytes) :
    part = [] ∨ ∃ front, front <+: bytes ∧
      (Machine.run perform files part).lookup path = some front := by
  rcases List.prefix_cons_iff.1 h with rfl | ⟨rest, rfl, hrest⟩
  · exact .inl rfl
  · obtain ⟨n, rfl⟩ : ∃ n, rest = (bytes.take n).map (.append path) := by
      refine ⟨rest.length, ?_⟩
      rw [List.map_take]
      exact List.prefix_iff_eq_take.1 hrest
    exact .inr ⟨bytes.take n, List.take_prefix n bytes, lookup_run_write files path _⟩

omit [DecidableEq P] in
theorem not_touches_write (h : tmp ≠ path) {a : FileAction P β} (ha : a ∈ write tmp bytes) :
    ¬ Touches path a := by
  rcases List.mem_cons.1 ha with rfl | ha
  · exact h
  · obtain ⟨b, -, rfl⟩ := List.mem_map.1 ha
    exact h

/-- A file that is replaced has its old or its new content at every time. -/
theorem lookup_run_part_of_replace (h : tmp ≠ path) {part : List (FileAction P β)}
    (hpart : part <+: replace tmp path bytes) :
    (Machine.run perform files part).lookup path = files.lookup path ∨
      (Machine.run perform files part).lookup path = some bytes := by
  rcases List.prefix_concat_iff.1 hpart with rfl | hpart
  · right
    rw [Machine.run_concat, perform, lookup_run_write]
    exact AList.lookup_insert _
  · exact .inl (lookup_run_of_not_touches fun a ha => not_touches_write h (hpart.subset ha))

theorem lookup_run_replace (files : Files P β) (tmp path : P) (bytes : List β) :
    (Machine.run perform files (replace tmp path bytes)).lookup path = some bytes := by
  rw [replace, Machine.run_concat, perform, lookup_run_write]
  exact AList.lookup_insert _

omit [DecidableEq P] in
theorem not_touches_replace {other : P} (htmp : tmp ≠ other) (hpath : path ≠ other)
    {a : FileAction P β} (ha : a ∈ replace tmp path bytes) : ¬ Touches other a := by
  rcases List.mem_append.1 ha with ha | ha
  · exact not_touches_write htmp ha
  · obtain rfl := List.mem_singleton.1 ha
    exact fun h => h.elim htmp hpath

/-- A file that is copied over is as it was, or it is gone, or there is the beginning of the new one. -/
theorem lookup_run_part_of_overwrite (h : tmp ≠ path) {part : List (FileAction P β)}
    (hpart : part <+: overwrite tmp path bytes) :
    (Machine.run perform files part).lookup path = files.lookup path ∨
      (Machine.run perform files part).lookup path = none ∨ ∃ front, front <+: bytes ∧
        (Machine.run perform files part).lookup path = some front := by
  have hdelete : ¬ Touches path (.delete tmp : FileAction P β) := h
  rcases List.prefix_or_prefix_of_prefix hpart (List.prefix_append _ _) with hpart | ⟨rest, rfl⟩
  · exact .inl (lookup_run_of_not_touches fun a ha => not_touches_write h (hpart.subset ha))
  rcases List.prefix_cons_iff.1 ((List.prefix_append_right_inj _).1 hpart) with rfl | ⟨rest, rfl, hrest⟩
  · left
    rw [List.append_nil]
    exact lookup_run_of_not_touches fun a ha => not_touches_write h ha
  right
  rw [Machine.run_append, Machine.run_cons]
  rcases List.prefix_concat_iff.1 hrest with rfl | hrest
  · refine .inr ⟨bytes, List.prefix_refl _, ?_⟩
    rw [Machine.run_concat, lookup_perform_of_not_touches hdelete, lookup_run_write]
  · rcases lookup_run_part_of_write _ hrest with rfl | ⟨front, hfront, hlookup⟩
    · exact .inl (AList.lookup_erase _ _)
    · exact .inr ⟨front, hfront, hlookup⟩

theorem lookup_run_overwrite (h : tmp ≠ path) (files : Files P β) (bytes : List β) :
    (Machine.run perform files (overwrite tmp path bytes)).lookup path = some bytes := by
  have hdelete : ¬ Touches path (.delete tmp : FileAction P β) := h
  rw [overwrite, Machine.run_append, Machine.run_cons, Machine.run_concat,
    lookup_perform_of_not_touches hdelete, lookup_run_write]

omit [DecidableEq P] in
theorem not_touches_overwrite {other : P} (htmp : tmp ≠ other) (hpath : path ≠ other)
    {a : FileAction P β} (ha : a ∈ overwrite tmp path bytes) : ¬ Touches other a := by
  rcases List.mem_append.1 ha with ha | ha
  · exact not_touches_write htmp ha
  rcases List.mem_cons.1 ha with rfl | ha
  · exact hpath
  rcases List.mem_append.1 ha with ha | ha
  · exact not_touches_write hpath ha
  · obtain rfl := List.mem_singleton.1 ha
    exact htmp

/-! ## Deleting files -/

/-- Of files that are deleted one by one, each is there as it was, or gone. -/
theorem lookup_run_deletes (files : Files P β) (paths : List P) (path : P) :
    (Machine.run perform files (paths.map .delete)).lookup path =
      if path ∈ paths then none else files.lookup path := by
  induction paths generalizing files with
  | nil => rfl
  | cons p paths ih =>
    have hdelete : (perform files (.delete p)).lookup path = if path = p then none else files.lookup path :=
      HashMap.lookup_erase_ite files p path
    rw [List.map_cons, Machine.run_cons, ih, hdelete]
    by_cases hp : path = p <;> by_cases hmem : path ∈ paths <;> simp [hp, hmem]

end Files

end Lib
