import TrickyStore.Lib.LazyCell
import TrickyStore.Model.TeeBootstrap

/-!
# One bootstrap for all threads

The two variables of the bootstrap are one cell that is filled under the lock: the steps of `ensureInitialized`
are steps of the cell, or change nothing of it.
-/

open Lib

namespace TrickyStore

open LazyCell

/-- What the thread does with the cell there. -/
def EnsureInitialized.position {E : Type*} : EnsureInitialized E → Position (BootstrapResult E)
  | .outside | .readFailure => .outside
  | .enterLock => .waiting
  | .rereadReady | .rereadFailure => .checking
  | .initialise => .filling
  | .setReady => .storing .Ready
  | .setFailure e => .storing (.Failed e)
  | .exitLock result => .leaving result

namespace ProbeBootstrap

variable {Thread E : Type*} {s : ProbeBootstrap Thread E} {t : Thread}

/-- The outcome that the two variables stand for. -/
def outcome (s : ProbeBootstrap Thread E) : Option (BootstrapResult E) :=
  if s.ready then some .Ready else s.failure.map .Failed

/-- The bootstrap as a cell. -/
def cell (s : ProbeBootstrap Thread E) : LazyCell Thread (BootstrapResult E) where
  cell := s.outcome
  owner := s.lock
  position u := (s.thread u).position
  fills := s.starts
  failures := s.errors
  returned := s.results

/-- At most one of the variables is set, and a thread that has read `ready` under the lock has read what it
still holds. -/
structure Guarded (s : ProbeBootstrap Thread E) : Prop where
  sound : s.cell.Sound
  exclusive : s.ready = true → s.failure = none
  reread : ∀ t, s.thread t = .rereadFailure → s.ready = false

variable [DecidableEq Thread]

@[simp] theorem goTo_thread_self (s : ProbeBootstrap Thread E) (p : EnsureInitialized E) :
    (s.goTo t p).thread t = p := Function.update_self ..

theorem goTo_thread_of_ne (s : ProbeBootstrap Thread E) {u : Thread} (hu : u ≠ t) (p : EnsureInitialized E) :
    (s.goTo t p).thread u = s.thread u := Function.update_of_ne hu ..

theorem cell_goTo (s : ProbeBootstrap Thread E) (p : EnsureInitialized E) :
    (s.goTo t p).cell = s.cell.goTo t p.position := by
  have hposition : (fun u => ((s.goTo t p).thread u).position) = Function.update s.cell.position t p.position := by
    funext u
    by_cases hu : u = t
    · rw [hu, goTo_thread_self, Function.update_self]
    · rw [goTo_thread_of_ne s hu, Function.update_of_ne hu]
      rfl
  rw [cell, hposition]
  rfl

/-- A thread that goes on outside the cell does not change it. -/
theorem goTo_same {p : EnsureInitialized E} (h : p.position = (s.thread t).position) : (s.goTo t p).cell = s.cell := by
  rw [cell_goTo, h]
  unfold LazyCell.goTo
  rw [show (s.thread t).position = s.cell.position t from rfl, Function.update_eq_self]

theorem cell_returns {r : BootstrapResult E} (h : (s.thread t).position = .outside) :
    (s.returns t r).cell = { s.cell with returned := r :: s.cell.returned } :=
  goTo_same (s := { s with results := r :: s.results }) h.symm

variable (s t) in
/-- A step of a thread is a step of the cell, or none. -/
theorem cell_step (h : s.Guarded) (o : BootstrapOutcome E) :
    (s.step t o).cell = s.cell ∨ ∃ e, (s.step t o).cell = s.cell.next e := by
  have hposition : s.cell.position t = (s.thread t).position := rfl
  cases hthread : s.thread t with
  | outside =>
    rw [hthread] at hposition
    simp only [step, hthread]
    split_ifs with hready
    · refine .inr ⟨.enter t true, ?_⟩
      have hcell : s.cell.cell = some .Ready := if_pos hready
      rw [cell_returns (by rw [hthread]; rfl), next_enter_sees hposition hcell]
    · exact .inl (goTo_same (by rw [hthread]; rfl))
  | readFailure =>
    rw [hthread] at hposition
    simp only [step, hthread]
    cases hfailure : s.failure with
    | some e =>
      refine .inr ⟨.enter t true, ?_⟩
      have hready : s.ready ≠ true := fun hready => by
        rw [h.exclusive hready] at hfailure
        cases hfailure
      have hcell : s.cell.cell = some (.Failed e) := by
        rw [cell, outcome, if_neg hready, hfailure]
        rfl
      dsimp only
      rw [cell_returns (by rw [hthread]; rfl), next_enter_sees hposition hcell]
    | none =>
      refine .inr ⟨.enter t false, ?_⟩
      rw [next_enter_misses hposition, cell_goTo]
      rfl
  | enterLock =>
    rw [hthread] at hposition
    simp only [step, hthread]
    cases hlock : s.lock with
    | some u => exact .inl rfl
    | none =>
      refine .inr ⟨.acquire t, ?_⟩
      rw [next_acquire hposition hlock, cell_goTo]
      rfl
  | rereadReady =>
    rw [hthread] at hposition
    simp only [step, hthread]
    split_ifs with hready
    · refine .inr ⟨.check t, ?_⟩
      have hcell : s.cell.cell = some .Ready := if_pos hready
      rw [next_check_filled hposition hcell, cell_goTo]
      rfl
    · exact .inl (goTo_same (by rw [hthread]; rfl))
  | rereadFailure =>
    rw [hthread] at hposition
    have hcell : s.cell.cell = s.failure.map .Failed := by
      rw [cell, outcome, h.reread t hthread]
      rfl
    refine .inr ⟨.check t, ?_⟩
    cases hfailure : s.failure with
    | some e =>
      have hstep : s.step t o = s.goTo t (.exitLock (some (.Failed e))) := by simp [step, hthread, hfailure]
      rw [hfailure] at hcell
      rw [hstep, next_check_filled hposition hcell, cell_goTo]
      rfl
    | none =>
      have hstep : s.step t o = { s with starts := s.starts + 1 }.goTo t .initialise := by
        simp [step, hthread, hfailure]
      rw [hfailure] at hcell
      rw [hstep, next_check_empty hposition hcell, cell_goTo]
      rfl
  | initialise =>
    rw [hthread] at hposition
    simp only [step, hthread]
    right
    cases o with
    | completes =>
      refine ⟨.fill t (some .Ready), ?_⟩
      rw [next_fill_some hposition, cell_goTo]
      rfl
    | exception e =>
      refine ⟨.fill t (some (.Failed e)), ?_⟩
      rw [next_fill_some hposition, cell_goTo]
      rfl
    | error =>
      refine ⟨.fill t none, ?_⟩
      rw [next_fill_none hposition, cell_goTo]
      rfl
  | setReady =>
    rw [hthread] at hposition
    simp only [step, hthread]
    refine .inr ⟨.store t, ?_⟩
    rw [next_store hposition, cell_goTo]
    rfl
  | setFailure e =>
    rw [hthread] at hposition
    simp only [step, hthread]
    have hbusy : (s.cell.position t).Busy := by
      rw [hposition]
      trivial
    have hready : s.ready ≠ true := by
      intro hready
      have hnone := h.sound.empty t hbusy
      rw [show s.cell.cell = some .Ready from if_pos hready] at hnone
      cases hnone
    refine .inr ⟨.store t, ?_⟩
    rw [next_store hposition, cell_goTo]
    have houtcome : outcome { s with failure := some e } = some (.Failed e) := by
      rw [outcome, if_neg hready]
      rfl
    rw [show cell { s with failure := some e } = { s.cell with cell := some (.Failed e) } by rw [cell, houtcome]; rfl]
    rfl
  | exitLock result =>
    rw [hthread] at hposition
    simp only [step, hthread]
    refine .inr ⟨.leave t, ?_⟩
    rw [next_leave hposition, cell_goTo]
    rfl

omit [DecidableEq Thread] in
theorem guarded_initial : Guarded ({} : ProbeBootstrap Thread E) where
  sound := sound_initial
  exclusive h := by cases h
  reread _ h := by cases h

/-- A thread that sets no variable and goes anywhere but to the second one under the lock. -/
theorem Guarded.goes {s' : ProbeBootstrap Thread E} {p : EnsureInitialized E} (h : s.Guarded)
    (hsound : (s'.goTo t p).cell.Sound) (hp : p ≠ .rereadFailure) (hready : s'.ready = s.ready)
    (hfailure : s'.failure = s.failure) (hthread : s'.thread = s.thread) : (s'.goTo t p).Guarded where
  sound := hsound
  exclusive := by
    show s'.ready = true → s'.failure = none
    rw [hready, hfailure]
    exact h.exclusive
  reread u hu := by
    by_cases ht : u = t
    · rw [ht, goTo_thread_self] at hu
      exact absurd hu hp
    · rw [goTo_thread_of_ne s' ht, hthread] at hu
      exact hready.trans (h.reread u hu)

omit [DecidableEq Thread] in
/-- The variables are unset while a thread is busy. -/
theorem Guarded.unset (h : s.Guarded) (hbusy : (s.thread t).position.Busy) : s.ready = false ∧ s.failure = none := by
  have hnone : s.outcome = none := h.sound.empty t hbusy
  unfold outcome at hnone
  split_ifs at hnone with hready
  · exact ⟨by simpa using hready, Option.map_eq_none_iff.1 hnone⟩

/-- No other thread is between the two variables while a thread is busy. -/
theorem Guarded.not_reread (h : s.Guarded) (hbusy : (s.thread t).position.Busy) {p : EnsureInitialized E}
    (hp : p ≠ .rereadFailure) {s' : ProbeBootstrap Thread E} (hthread : s'.thread = s.thread) (u : Thread) :
    (s'.goTo t p).thread u ≠ .rereadFailure := by
  intro hu
  by_cases ht : u = t
  · rw [ht, goTo_thread_self] at hu
    exact hp hu
  · rw [goTo_thread_of_ne s' ht, hthread] at hu
    have hin : (s.cell.position u).Inside := by
      show (s.thread u).position.Inside
      rw [hu]
      trivial
    exact h.sound.not_inside (t := t) (Position.Busy.inside hbusy) ht hin

theorem Guarded.step (h : s.Guarded) (o : BootstrapOutcome E) : (s.step t o).Guarded := by
  have hsound : (s.step t o).cell.Sound := by
    rcases cell_step s t h o with hsame | ⟨e, he⟩
    · exact hsame ▸ h.sound
    · exact he ▸ h.sound.next e
  cases hthread : s.thread t with
  | outside =>
    simp only [ProbeBootstrap.step, hthread] at hsound ⊢
    split_ifs at hsound ⊢
    · exact h.goes hsound (by simp) rfl rfl rfl
    · exact h.goes hsound (by simp) rfl rfl rfl
  | readFailure =>
    simp only [ProbeBootstrap.step, hthread] at hsound ⊢
    split at hsound
    · exact h.goes hsound (by simp) rfl rfl rfl
    · exact h.goes hsound (by simp) rfl rfl rfl
  | enterLock =>
    simp only [ProbeBootstrap.step, hthread] at hsound ⊢
    split at hsound
    · exact h
    · exact h.goes hsound (by simp) rfl rfl rfl
  | rereadReady =>
    simp only [ProbeBootstrap.step, hthread] at hsound ⊢
    split_ifs at hsound ⊢ with hready
    · exact h.goes hsound (by simp) rfl rfl rfl
    · exact ⟨hsound, h.exclusive, fun _ _ => Bool.eq_false_iff.2 hready⟩
  | rereadFailure =>
    simp only [ProbeBootstrap.step, hthread] at hsound ⊢
    split at hsound
    · exact h.goes hsound (by simp) rfl rfl rfl
    · exact h.goes hsound (by simp) rfl rfl rfl
  | initialise =>
    simp only [ProbeBootstrap.step, hthread] at hsound ⊢
    cases o with
    | completes => exact h.goes hsound (by simp) rfl rfl rfl
    | exception e => exact h.goes hsound (by simp) rfl rfl rfl
    | error => exact h.goes hsound (by simp) rfl rfl rfl
  | setReady =>
    have hbusy : (s.thread t).position.Busy := by
      rw [hthread]
      trivial
    simp only [ProbeBootstrap.step, hthread] at hsound ⊢
    exact ⟨hsound, fun _ => (h.unset hbusy).2, fun u hu => absurd hu (h.not_reread hbusy (by simp) rfl u)⟩
  | setFailure e =>
    have hbusy : (s.thread t).position.Busy := by
      rw [hthread]
      trivial
    have hready := (h.unset hbusy).1
    simp only [ProbeBootstrap.step, hthread] at hsound ⊢
    exact ⟨hsound, fun htrue => absurd (hready.symm.trans htrue) (by simp), fun _ _ => hready⟩
  | exitLock result =>
    simp only [ProbeBootstrap.step, hthread] at hsound ⊢
    exact h.goes hsound (by simp) rfl rfl rfl

theorem guarded_run (steps : List (Thread × BootstrapOutcome E)) : (run {} steps).Guarded :=
  Machine.run_invariant (fun _ e h => Guarded.step h e.2) guarded_initial

/-- Whatever threads call `ensureInitialized` and however their steps interleave: no two run the initialisers at
a time, all calls that return do so with one result, and the initialisers are started at most once more than
they have ended with an `Error`, so that no call starts them once one has returned. -/
theorem bootstrap_once (steps : List (Thread × BootstrapOutcome E)) :
    (∀ t t', (run {} steps).thread t = .initialise → (run {} steps).thread t' = .initialise → t = t') ∧
      (∀ r ∈ (run {} steps).results, ∀ r' ∈ (run {} steps).results, r = r') ∧
      (run {} steps).starts ≤ (run {} steps).errors + 1 ∧
      ((run {} steps).results ≠ [] → (run {} steps).starts = (run {} steps).errors + 1 ∧
        ∀ t, (run {} steps).thread t ≠ .initialise) := by
  have hone := (guarded_run steps).sound.oneValue
  have hbusy {t : Thread} (ht : (run {} steps).thread t = .initialise) :
      ((run {} steps).cell.position t).Busy := by
    show ((run {} steps).thread t).position.Busy
    rw [ht]
    trivial
  refine ⟨fun t t' ht ht' => hone.alone t t' (hbusy ht) (hbusy ht'), fun r hr r' hr' => ?_, hone.fills, fun hne => ?_⟩
  · exact Option.some.inj ((hone.agree r hr).symm.trans (hone.agree r' hr'))
  · obtain ⟨r, hr⟩ := List.exists_mem_of_ne_nil _ hne
    obtain ⟨hstarts, hidle⟩ := hone.filled r (hone.agree r hr)
    exact ⟨hstarts, fun t ht => hidle t (hbusy ht)⟩

end ProbeBootstrap

end TrickyStore
