import TrickyStore.Lib.LazyCell
import TrickyStore.Model.CachedAttestData
import TrickyStore.Proof.TeeVerdict

/-!
# One attestation of the hardware

The cached data is a cell that is filled under the lock.  The probe clears it only as it leaves UNKNOWN for
BROKEN, and then no thread has ever been let through to fill it.
-/

open Lib

namespace TrickyStore

open LazyCell

/-- What the thread does with the cell there. -/
def CachedAttestData.position {Data : Type*} : CachedAttestData Data → Position Data
  | .outside => .outside
  | .enterLock => .waiting
  | .readCache => .checking
  | .loadAttestData | .writeCache none => .filling
  | .writeCache (some data) => .storing data
  | .exitLock result => .leaving result

namespace AttestDataCache

variable {Thread Data : Type*} {s : AttestDataCache Thread Data} {t : Thread}

/-- The cache as a cell. -/
def cell (s : AttestDataCache Thread Data) : LazyCell Thread Data where
  cell := s.cached
  owner := s.stateLock
  position u := (s.getter u).position
  fills := s.loads
  failures := s.failures
  returned := s.results

/-- No thread is past the first read of the state, and nothing is cached, unless the hardware works. -/
structure Guarded (s : AttestDataCache Thread Data) : Prop where
  sound : s.cell.Sound
  tee : s.tee.Sound
  getter : ∀ t, s.getter t ≠ .outside → s.tee.state = .WORKING
  cached : s.cached ≠ none → s.tee.state = .WORKING

variable [DecidableEq Thread]

@[simp] theorem goTo_getter_self (s : AttestDataCache Thread Data) (p : CachedAttestData Data) :
    (s.goTo t p).getter t = p := Function.update_self ..

theorem goTo_getter_of_ne (s : AttestDataCache Thread Data) {u : Thread} (hu : u ≠ t) (p : CachedAttestData Data) :
    (s.goTo t p).getter u = s.getter u := Function.update_of_ne hu ..

theorem cell_goTo (s : AttestDataCache Thread Data) (p : CachedAttestData Data) :
    (s.goTo t p).cell = s.cell.goTo t p.position := by
  have hposition : (fun u => ((s.goTo t p).getter u).position) = Function.update s.cell.position t p.position := by
    funext u
    by_cases hu : u = t
    · rw [hu, goTo_getter_self, Function.update_self]
    · rw [goTo_getter_of_ne s hu, Function.update_of_ne hu]
      rfl
  rw [cell, hposition]
  rfl

/-- A thread that goes on in the cell's position does not change it. -/
theorem goTo_same {p : CachedAttestData Data} (h : p.position = (s.getter t).position) :
    (s.goTo t p).cell = s.cell := by
  rw [cell_goTo, h]
  unfold LazyCell.goTo
  rw [show (s.getter t).position = s.cell.position t from rfl, Function.update_eq_self]

variable (s t) in
/-- A step of a thread that asks for the data is a step of the cell, or none. -/
theorem cell_get (h : s.Guarded) (loaded : Option Data) :
    (s.get t loaded).cell = s.cell ∨ ∃ e, (s.get t loaded).cell = s.cell.next e := by
  have hposition : s.cell.position t = (s.getter t).position := rfl
  cases hgetter : s.getter t with
  | outside =>
    rw [hgetter] at hposition
    simp only [get, hgetter]
    split_ifs
    · exact .inl rfl
    · refine .inr ⟨.enter t false, ?_⟩
      rw [next_enter_misses hposition, cell_goTo]
      rfl
  | enterLock =>
    rw [hgetter] at hposition
    simp only [get, hgetter]
    cases hlock : s.stateLock with
    | some u => exact .inl rfl
    | none =>
      refine .inr ⟨.acquire t, ?_⟩
      rw [next_acquire hposition hlock, cell_goTo]
      rfl
  | readCache =>
    rw [hgetter] at hposition
    refine .inr ⟨.check t, ?_⟩
    cases hcached : s.cached with
    | some data =>
      have hget : s.get t loaded = s.goTo t (.exitLock (some data)) := by simp [get, hgetter, hcached]
      rw [hget, next_check_filled hposition hcached, cell_goTo]
      rfl
    | none =>
      have hget : s.get t loaded = { s with loads := s.loads + 1 }.goTo t .loadAttestData := by
        simp [get, hgetter, hcached]
      rw [hget, next_check_empty hposition hcached, cell_goTo]
      rfl
  | loadAttestData =>
    rw [hgetter] at hposition
    simp only [get, hgetter]
    cases hloaded : (if s.tee.state ≠ .WORKING then none else loaded) with
    | none => exact .inl (goTo_same (by rw [hgetter]; rfl))
    | some data =>
      refine .inr ⟨.fill t (some data), ?_⟩
      rw [next_fill_some hposition, cell_goTo]
      rfl
  | writeCache loaded' =>
    rw [hgetter] at hposition
    right
    cases loaded' with
    | none =>
      have hbusy : (s.cell.position t).Busy := by
        rw [hposition]
        trivial
      have hempty : s.cached = none := h.sound.empty t hbusy
      refine ⟨.fill t none, ?_⟩
      rw [next_fill_none hposition]
      have hget : s.get t loaded = { s with failures := s.failures + 1 }.goTo t (.exitLock none) := by
        simp [get, hgetter, hempty]
      rw [hget, cell_goTo]
      rfl
    | some data =>
      refine ⟨.store t, ?_⟩
      have hget : s.get t loaded = { s with cached := some data }.goTo t (.exitLock (some data)) := by
        simp [get, hgetter]
      rw [hget, next_store hposition, cell_goTo]
      rfl
  | exitLock result =>
    rw [hgetter] at hposition
    refine .inr ⟨.leave t, ?_⟩
    simp only [get, hgetter]
    rw [next_leave hposition, cell_goTo]
    rfl

omit [DecidableEq Thread] in
theorem guarded_initial : Guarded ({} : AttestDataCache Thread Data) where
  sound := sound_initial
  tee := TeeDaemon.sound_initial
  getter _ h := absurd rfl h
  cached h := absurd rfl h

/-- Hardware that works goes on working. -/
theorem working_next {d : TeeDaemon Thread} (h : d.Sound) (hworking : d.state = .WORKING) (e : TeeEvent Thread) :
    (d.next e).state = .WORKING := by
  have hverdict := (h.next_step e).1.verdict
  rw [hworking] at hverdict
  exact TeeState.verdict_inj ((hverdict false rfl).trans rfl)

/-- The state that a transition sets. -/
theorem state_of_transitionOf {e : TeeEvent Thread} {newState : TeeState} (h : s.transitionOf e = some newState) :
    (s.tee.next e).state = newState := by
  unfold transitionOf at h
  split at h
  · next input =>
    split at h
    · next attempt newState' hprobe =>
      cases h
      simp only [TeeDaemon.next, TeeDaemon.probe, hprobe, TeeDaemon.transitionTo]
      split_ifs with hsame
      · exact hsame
      · rfl
    · cases h
  · cases h

theorem Guarded.teeStep (h : s.Guarded) (e : TeeEvent Thread) : (s.teeStep e).Guarded := by
  unfold AttestDataCache.teeStep
  split
  · exact ⟨h.sound, (h.tee.next_step e).2, fun t ht => working_next h.tee (h.getter t ht) e,
      fun hne => working_next h.tee (h.cached hne) e⟩
  · next newState htransition =>
    split_ifs with hfree hclears
    · have hlost : s.tee.state ≠ .WORKING := by
        intro hworking
        have hstate := working_next h.tee hworking e
        rw [state_of_transitionOf htransition] at hstate
        exact hclears.2 hstate
      have hempty : s.cached = none := by
        by_contra hne
        exact hlost (h.cached hne)
      rw [← hempty]
      exact ⟨h.sound, (h.tee.next_step e).2, fun t ht => absurd (h.getter t ht) hlost,
        fun hne => absurd (h.cached hne) hlost⟩
    · exact ⟨h.sound, (h.tee.next_step e).2, fun t ht => working_next h.tee (h.getter t ht) e,
        fun hne => working_next h.tee (h.cached hne) e⟩
    · exact h

variable (s t) in
/-- A thread that asks for the data leaves the state alone and writes what it has found, and is let through only
where the hardware works. -/
theorem get_frame (loaded : Option Data) :
    (s.get t loaded).tee = s.tee ∧
      ((s.get t loaded).cached ≠ none → s.cached ≠ none ∨ s.getter t ≠ .outside) ∧
      ∀ u, (s.get t loaded).getter u ≠ .outside → s.getter u ≠ .outside ∨ s.tee.state = .WORKING := by
  have hmoves {s' : AttestDataCache Thread Data} {p : CachedAttestData Data} (hsame : s'.getter = s.getter)
      (hlet : s.getter t ≠ .outside ∨ s.tee.state = .WORKING) (u : Thread)
      (hu : (s'.goTo t p).getter u ≠ .outside) : s.getter u ≠ .outside ∨ s.tee.state = .WORKING := by
    by_cases ht : u = t
    · rw [ht]
      exact hlet
    · rw [goTo_getter_of_ne s' ht, hsame] at hu
      exact .inl hu
  have hin {p : CachedAttestData Data} (hp : p ≠ .outside) (hgetter : s.getter t = p) : s.getter t ≠ .outside :=
    hgetter ▸ hp
  cases hgetter : s.getter t with
  | outside =>
    simp only [get, hgetter]
    split_ifs with hstate
    · exact ⟨rfl, .inl, fun u => .inl⟩
    · exact ⟨rfl, .inl, hmoves rfl (.inr (not_not.1 hstate))⟩
  | enterLock =>
    simp only [get, hgetter]
    split
    · exact ⟨rfl, .inl, fun u => .inl⟩
    · exact ⟨rfl, .inl, hmoves rfl (.inl (hin (by simp) hgetter))⟩
  | readCache =>
    simp only [get, hgetter]
    split
    · exact ⟨rfl, .inl, hmoves rfl (.inl (hin (by simp) hgetter))⟩
    · exact ⟨rfl, .inl, hmoves rfl (.inl (hin (by simp) hgetter))⟩
  | loadAttestData =>
    simp only [get, hgetter]
    exact ⟨rfl, .inl, hmoves rfl (.inl (hin (by simp) hgetter))⟩
  | writeCache loaded' =>
    have hlet := hin (by simp) hgetter
    cases loaded' with
    | none =>
      simp only [get, hgetter]
      exact ⟨rfl, fun hne => absurd rfl hne, hmoves rfl (.inl hlet)⟩
    | some data =>
      simp only [get, hgetter]
      exact ⟨rfl, fun _ => .inr (by simp), hmoves rfl (.inl hlet)⟩
  | exitLock result =>
    simp only [get, hgetter]
    exact ⟨rfl, .inl, hmoves rfl (.inl (hin (by simp) hgetter))⟩

theorem Guarded.get (h : s.Guarded) (loaded : Option Data) : (s.get t loaded).Guarded := by
  obtain ⟨htee, hcached, hgetter⟩ := get_frame s t loaded
  refine ⟨?_, ?_, fun u hu => ?_, fun hne => ?_⟩
  · rcases cell_get s t h loaded with hsame | ⟨e, he⟩
    · exact hsame ▸ h.sound
    · exact he ▸ h.sound.next e
  · rw [htee]
    exact h.tee
  · rw [htee]
    exact (hgetter u hu).elim (h.getter u) id
  · rw [htee]
    exact (hcached hne).elim h.cached (h.getter t)

theorem guarded_run (es : List (AttestDataEvent Thread Data)) : (run {} es).Guarded := by
  refine Machine.run_invariant (fun s e h => ?_) guarded_initial
  cases e with
  | tee e => exact h.teeStep e
  | get t loaded => exact h.get loaded

/-- Whatever the probe, the binder threads and the threads that ask for the data do, and however their steps
interleave: all data that is ever returned is the same, it is returned only once the hardware has been found
working, it is loaded by one thread at a time and at most once more than no data was found, and not again once
it has been returned. -/
theorem attestation_data_once (es : List (AttestDataEvent Thread Data)) :
    (∀ data ∈ (run {} es).results, ∀ data' ∈ (run {} es).results, data = data') ∧
      ((run {} es).results ≠ [] → (run {} es).tee.state = .WORKING ∧ (run {} es).loads = (run {} es).failures + 1 ∧
        ∀ t, (run {} es).getter t ≠ .loadAttestData) ∧
      (run {} es).loads ≤ (run {} es).failures + 1 ∧
      ∀ t t', (run {} es).getter t = .loadAttestData → (run {} es).getter t' = .loadAttestData → t = t' := by
  have hguarded := guarded_run es
  have hone := hguarded.sound.oneValue
  have hbusy {t : Thread} (ht : (run {} es).getter t = .loadAttestData) : ((run {} es).cell.position t).Busy := by
    show ((run {} es).getter t).position.Busy
    rw [ht]
    trivial
  refine ⟨fun data h data' h' => ?_, fun hne => ?_, hone.fills,
    fun t t' ht ht' => hone.alone t t' (hbusy ht) (hbusy ht')⟩
  · exact Option.some.inj ((hone.agree data h).symm.trans (hone.agree data' h'))
  · obtain ⟨data, hdata⟩ := List.exists_mem_of_ne_nil _ hne
    have hcached : (run {} es).cached = some data := hone.agree data hdata
    obtain ⟨hloads, hidle⟩ := hone.filled data hcached
    exact ⟨hguarded.cached (by simp [hcached]), hloads, fun t ht => hidle t (hbusy ht)⟩

end AttestDataCache

end TrickyStore
