import Mathlib.Tactic.SplitIfs
import TrickyStore.Lib.WriteOnce
import TrickyStore.Model.TeeProbe

/-!
# The verdict on the TEE

`resolveState` would let the state go back to UNKNOWN, but the probe thread asks for another attempt only
while the state is UNKNOWN, and no other thread sets it.  So the state is written once, and whatever a
thread has read of it stays true until it has published it.
-/

open Lib

namespace TrickyStore

/-- What the state says about `teeBroken`. -/
def TeeState.verdict : TeeState → Option Bool
  | .UNKNOWN => none
  | .WORKING => some false
  | .BROKEN => some true

theorem TeeState.verdict_eq_none {state : TeeState} : state.verdict = none ↔ state = .UNKNOWN := by
  cases state <;> simp [verdict]

theorem TeeState.verdict_eq_some {state : TeeState} {broken : Bool} (h : state.verdict = some broken) :
    broken = decide (state = .BROKEN) := by
  cases state <;> simp_all [verdict]

theorem TeeState.verdict_inj {state state' : TeeState} (h : state.verdict = state'.verdict) : state = state' := by
  cases state <;> cases state' <;> simp_all [verdict]

namespace TeeDaemon

variable {Thread : Type*} {s : TeeDaemon Thread}

/-! ## The attempts -/

/-- As many attempts have been made as the place of the probe thread tells. -/
def Counted (s : TeeDaemon Thread) : Prop :=
  match s.probeThread with
  | .runProbeAttempt n | .sleep n => s.probes = n ∧ n ≤ TeeRetryPolicy.MAX_ATTEMPTS
  | .transitionTo n _ | .stateListener n _ | .persistTeeBroken n _ | .writeText n _ =>
    s.probes = n + 1 ∧ n ≤ TeeRetryPolicy.MAX_ATTEMPTS
  | .runRetryLoop n => s.probes = n ∧ n ≤ 1 + TeeRetryPolicy.MAX_ATTEMPTS
  | .finished => s.probes ≤ 1 + TeeRetryPolicy.MAX_ATTEMPTS

theorem Counted.probes_le (h : s.Counted) : s.probes ≤ 1 + TeeRetryPolicy.MAX_ATTEMPTS := by
  unfold Counted at h
  split at h <;> omega

theorem Counted.congr {t : TeeDaemon Thread} (h : s.Counted) (hprobes : t.probes = s.probes)
    (hthread : t.probeThread = s.probeThread) : t.Counted := by
  unfold Counted at h ⊢
  rw [hprobes, hthread]
  exact h

@[simp] theorem writeText_probes (broken written : Bool) : (s.writeText broken written).probes = s.probes := by
  cases written <;> rfl

theorem Counted.probe (h : s.Counted) (input : ProbeInput) : (s.probe input).Counted := by
  have hle := h.probes_le
  unfold Counted at h
  unfold TeeDaemon.probe
  cases hthread : s.probeThread with
  | runProbeAttempt n =>
    rw [hthread] at h
    cases hboot : input.bootstrap <;> simp only [runProbeAttempt, hboot, Counted] <;> omega
  | transitionTo n newState =>
    rw [hthread] at h
    simp only [transitionTo]
    split_ifs <;> simp only [Counted] <;> omega
  | stateListener n newState =>
    rw [hthread] at h
    cases newState <;> simp only [stateListener, Counted] <;> omega
  | persistTeeBroken n broken =>
    rw [hthread] at h
    exact h
  | writeText n broken =>
    rw [hthread] at h
    simp only [Counted, writeText_probes]
    omega
  | runRetryLoop n =>
    rw [hthread] at h
    simp only
    split_ifs with hcontinue
    · simp only [TeeRetryPolicy.shouldContinueRetrying, Bool.and_eq_true, decide_eq_true_eq] at hcontinue
      exact ⟨h.1, hcontinue.2⟩
    · exact hle
  | sleep n =>
    rw [hthread] at h
    simp only
    split_ifs
    · exact hle
    · exact h
  | finished => simpa only [Counted, hthread] using hle

/-! ## The copies of the verdict -/

/-- The probe thread looks at the hardware only while the state is UNKNOWN, and publishes what it is. -/
def ProbeSound (s : TeeDaemon Thread) : Prop :=
  match s.probeThread with
  | .runProbeAttempt _ | .transitionTo _ _ => s.state = .UNKNOWN
  | .stateListener _ newState => s.state = newState
  | .persistTeeBroken _ broken => s.state.verdict = some broken
  | .writeText _ broken => s.teeBroken = some broken
  | .runRetryLoop _ | .sleep _ | .finished => True

/-- A binder thread publishes what the state is. -/
def BinderSound (s : TeeDaemon Thread) : BinderThread → Prop
  | .checkNeed | .storeTEEStatus => True
  | .persistTeeBroken broken => s.state.verdict = some broken
  | .writeText broken => s.teeBroken = some broken

structure Sound (s : TeeDaemon Thread) : Prop where
  teeBroken : Known s.teeBroken s.state.verdict
  probe : s.ProbeSound
  binders : ∀ thread, s.BinderSound (s.binders thread)
  file : ∀ text ∈ s.statusFile, s.teeBroken.map statusText = some text

/-- What has been written stays written. -/
structure Extends (s t : TeeDaemon Thread) : Prop where
  verdict : Known s.state.verdict t.state.verdict
  teeBroken : Known s.teeBroken t.teeBroken

theorem Extends.of_eq {t : TeeDaemon Thread} (hstate : t.state = s.state) (hbroken : t.teeBroken = s.teeBroken) :
    s.Extends t :=
  ⟨by rw [hstate]; exact Known.refl _, by rw [hbroken]; exact Known.refl _⟩

theorem BinderSound.mono {t : TeeDaemon Thread} {b : BinderThread} (h : s.BinderSound b) (hst : s.Extends t) :
    t.BinderSound b := by
  cases b with
  | checkNeed => trivial
  | storeTEEStatus => trivial
  | persistTeeBroken broken => exact hst.verdict _ h
  | writeText broken => exact hst.teeBroken _ h

theorem file_mono {t : TeeDaemon Thread} (h : ∀ text ∈ s.statusFile, s.teeBroken.map statusText = some text)
    (hst : s.Extends t) (text : String) (hmem : text ∈ s.statusFile) : t.teeBroken.map statusText = some text := by
  obtain ⟨broken, hbroken, htext⟩ := Option.map_eq_some_iff.1 (h text hmem)
  rw [hst.teeBroken _ hbroken, ← htext]
  rfl

theorem Sound.teeBroken_eq (h : s.Sound) (hne : s.teeBroken ≠ none) :
    s.teeBroken = some (decide (s.state = .BROKEN)) := by
  obtain ⟨broken, hbroken⟩ := Option.ne_none_iff_exists'.1 hne
  rw [hbroken, TeeState.verdict_eq_some (h.teeBroken _ hbroken)]

/-- A step is sound when it keeps what is written, and the places it changes are sound. -/
theorem Sound.step {t : TeeDaemon Thread} (h : s.Sound) (hst : s.Extends t)
    (hbroken : Known t.teeBroken t.state.verdict) (hprobe : t.ProbeSound)
    (hbinders : ∀ thread, t.binders thread = s.binders thread ∨ t.BinderSound (t.binders thread))
    (hfile : ∀ text ∈ t.statusFile, text ∈ s.statusFile ∨ t.teeBroken.map statusText = some text) :
    s.Extends t ∧ t.Sound := by
  refine ⟨hst, hbroken, hprobe, fun thread => ?_, fun text hmem => ?_⟩
  · rcases hbinders thread with hsame | hnew
    · rw [hsame]
      exact (h.binders thread).mono hst
    · exact hnew
  · rcases hfile text hmem with hold | hnew
    · exact file_mono h.file hst text hold
    · exact hnew

/-- A step that writes nothing. -/
theorem Sound.silent {t : TeeDaemon Thread} (h : s.Sound) (hstate : t.state = s.state)
    (hbroken : t.teeBroken = s.teeBroken) (hfile : t.statusFile = s.statusFile) (hprobe : t.ProbeSound)
    (hbinders : ∀ thread, t.binders thread = s.binders thread ∨ t.BinderSound (t.binders thread)) :
    s.Extends t ∧ t.Sound := by
  refine h.step (Extends.of_eq hstate hbroken) ?_ hprobe hbinders fun text hmem => .inl (hfile ▸ hmem)
  rw [hbroken, hstate]
  exact h.teeBroken

theorem Sound.publish {broken : Bool} (h : s.Sound) (hverdict : s.state.verdict = some broken) :
    Known s.teeBroken (some broken) := by
  rw [← hverdict]
  exact h.teeBroken

@[simp] theorem writeText_state (broken written : Bool) : (s.writeText broken written).state = s.state := by
  cases written <;> rfl

@[simp] theorem writeText_teeBroken (broken written : Bool) :
    (s.writeText broken written).teeBroken = s.teeBroken := by
  cases written <;> rfl

@[simp] theorem writeText_binders (broken written : Bool) : (s.writeText broken written).binders = s.binders := by
  cases written <;> rfl

@[simp] theorem writeText_probeThread (broken written : Bool) :
    (s.writeText broken written).probeThread = s.probeThread := by
  cases written <;> rfl

theorem mem_writeText {broken written : Bool} {text : String} (h : text ∈ (s.writeText broken written).statusFile)
    (hbroken : s.teeBroken = some broken) : text ∈ s.statusFile ∨ s.teeBroken.map statusText = some text := by
  unfold writeText at h
  split_ifs at h
  · rcases List.mem_cons.1 h with rfl | hold
    · right
      rw [hbroken]
      rfl
    · exact .inl hold
  · exact .inl h

/-! ## One step -/

theorem sound_initial : ({} : TeeDaemon Thread).Sound :=
  ⟨known_none _, rfl, fun _ => trivial, fun _ hmem => nomatch hmem⟩

theorem counted_initial : ({} : TeeDaemon Thread).Counted := ⟨rfl, Nat.zero_le _⟩

/-- The probe thread does not see what a binder thread does. -/
theorem ProbeSound.keep {t : TeeDaemon Thread} (h : s.ProbeSound) (hstate : t.state = s.state)
    (hbroken : Known s.teeBroken t.teeBroken) (hthread : t.probeThread = s.probeThread) : t.ProbeSound := by
  unfold ProbeSound at h ⊢
  rw [hthread, hstate]
  cases hp : s.probeThread <;> simp only [hp] at h ⊢ <;> first | exact h | exact hbroken _ h

theorem Sound.probe_step (h : s.Sound) (input : ProbeInput) :
    s.Extends (s.probe input) ∧ (s.probe input).Sound := by
  have hprobe := h.probe
  unfold ProbeSound at hprobe
  unfold TeeDaemon.probe
  cases hthread : s.probeThread with
  | runProbeAttempt n =>
    rw [hthread] at hprobe
    refine h.silent rfl rfl rfl ?_ fun _ => .inl rfl
    cases hboot : input.bootstrap with
    | Ready => simpa only [runProbeAttempt, hboot, ProbeSound] using hprobe
    | Failed => simp only [runProbeAttempt, hboot, ProbeSound]
  | transitionTo n newState =>
    rw [hthread] at hprobe
    have hnone : s.state.verdict = none := TeeState.verdict_eq_none.2 hprobe
    have hbroken : s.teeBroken = none := (hnone ▸ h.teeBroken : Known s.teeBroken none).eq_none
    simp only [transitionTo]
    split_ifs
    · exact h.silent rfl rfl rfl trivial fun _ => .inl rfl
    · refine h.step ⟨?_, Known.refl _⟩ ?_ rfl (fun _ => .inl rfl) fun _ hmem => .inl hmem
      · rw [hnone]
        exact known_none _
      · rw [hbroken]
        exact known_none _
  | stateListener n newState =>
    rw [hthread] at hprobe
    cases newState with
    | UNKNOWN => exact h.silent rfl rfl rfl trivial fun _ => .inl rfl
    | WORKING => exact h.silent rfl rfl rfl (congrArg TeeState.verdict hprobe) fun _ => .inl rfl
    | BROKEN => exact h.silent rfl rfl rfl (congrArg TeeState.verdict hprobe) fun _ => .inl rfl
  | persistTeeBroken n broken =>
    rw [hthread] at hprobe
    exact h.step ⟨Known.refl _, h.publish hprobe⟩ (known_some.2 hprobe) rfl (fun _ => .inl rfl)
      fun _ hmem => .inl hmem
  | writeText n broken =>
    rw [hthread] at hprobe
    refine h.step (Extends.of_eq (by simp) (by simp)) ?_ trivial (fun _ => .inl (by simp)) fun text hmem => ?_
    · simpa using h.teeBroken
    · simpa using mem_writeText hmem hprobe
  | runRetryLoop n =>
    simp only
    split_ifs
    · exact h.silent rfl rfl rfl trivial fun _ => .inl rfl
    · exact h.silent rfl rfl rfl trivial fun _ => .inl rfl
  | sleep n =>
    simp only
    split_ifs with hstate
    · exact h.silent rfl rfl rfl trivial fun _ => .inl rfl
    · exact h.silent rfl rfl rfl (not_not.1 hstate) fun _ => .inl rfl
  | finished => exact h.silent rfl rfl rfl h.probe fun _ => .inl rfl

section Binders

variable [DecidableEq Thread] {thread : Thread}

theorem setBinder_binders (b : BinderThread) (t : Thread) :
    (s.setBinder thread b).binders t = s.binders t ∨ t = thread ∧ (s.setBinder thread b).binders t = b := by
  by_cases ht : t = thread
  · subst ht
    exact .inr ⟨rfl, Function.update_self ..⟩
  · exact .inl (Function.update_of_ne ht ..)

theorem Sound.setBinder (h : s.Sound) {b : BinderThread} (hb : s.BinderSound b) :
    s.Extends (s.setBinder thread b) ∧ (s.setBinder thread b).Sound := by
  refine h.silent rfl rfl rfl (h.probe.keep rfl (Known.refl _) rfl) fun t => ?_
  rcases setBinder_binders b t with hsame | ⟨-, hnew⟩
  · exact .inl hsame
  · rw [hnew]
    exact .inr (hb.mono (Extends.of_eq rfl rfl))

theorem Sound.storeTEEStatus (h : s.Sound) :
    s.Extends (s.storeTEEStatus thread) ∧ (s.storeTEEStatus thread).Sound := by
  unfold TeeDaemon.storeTEEStatus
  cases hstate : s.state with
  | UNKNOWN => exact h.setBinder trivial
  | WORKING => exact h.setBinder (congrArg TeeState.verdict hstate)
  | BROKEN => exact h.setBinder (congrArg TeeState.verdict hstate)

theorem Sound.binder_step (h : s.Sound) (written : Bool) :
    s.Extends (s.binder thread written) ∧ (s.binder thread written).Sound := by
  have hbinder := h.binders thread
  unfold TeeDaemon.binder
  cases hthread : s.binders thread with
  | checkNeed =>
    simp only
    split_ifs
    · exact h.setBinder trivial
    · exact ⟨Extends.of_eq rfl rfl, h⟩
  | storeTEEStatus => exact h.storeTEEStatus
  | persistTeeBroken broken =>
    rw [hthread] at hbinder
    refine h.step ⟨Known.refl _, h.publish hbinder⟩ (known_some.2 hbinder)
      (h.probe.keep rfl (h.publish hbinder) rfl) (fun t => ?_) fun _ hmem => .inl hmem
    rcases @setBinder_binders _ { s with teeBroken := some broken } _ thread (.writeText broken) t with
      hsame | ⟨-, hnew⟩
    · exact .inl hsame
    · rw [hnew]
      exact .inr rfl
  | writeText broken =>
    rw [hthread] at hbinder
    refine h.step (Extends.of_eq (writeText_state ..) (writeText_teeBroken ..)) ?_
      (h.probe.keep (writeText_state ..) (by simp [TeeDaemon.setBinder, Known.refl]) (writeText_probeThread ..))
      (fun t => ?_) fun text hmem => ?_
    · simpa [TeeDaemon.setBinder] using h.teeBroken
    · rcases @setBinder_binders _ (s.writeText broken written) _ thread .checkNeed t with hsame | ⟨-, hnew⟩
      · exact .inl (hsame.trans (by simp))
      · rw [hnew]
        exact .inr trivial
    · simpa [TeeDaemon.setBinder] using mem_writeText hmem hbinder

theorem Sound.next_step (h : s.Sound) (e : TeeEvent Thread) : s.Extends (s.next e) ∧ (s.next e).Sound := by
  cases e with
  | probe input => exact h.probe_step input
  | probeThrows => exact h.silent rfl rfl rfl trivial fun _ => .inl rfl
  | binder thread written => exact h.binder_step written
  | binderThrows thread => exact h.setBinder trivial

theorem setBinder_counted (h : s.Counted) (b : BinderThread) : (s.setBinder thread b).Counted :=
  h.congr rfl rfl

theorem Counted.next (h : s.Counted) (e : TeeEvent Thread) : (s.next e).Counted := by
  cases e with
  | probe input => exact h.probe input
  | probeThrows => exact h.probes_le
  | binder thread written =>
    show (s.binder thread written).Counted
    unfold TeeDaemon.binder
    cases s.binders thread with
    | checkNeed =>
      simp only
      split_ifs
      · exact setBinder_counted h _
      · exact h
    | storeTEEStatus =>
      unfold TeeDaemon.storeTEEStatus
      cases s.state <;> exact setBinder_counted h _
    | persistTeeBroken broken => exact h.congr rfl rfl
    | writeText broken => exact h.congr (writeText_probes ..) (writeText_probeThread ..)
  | binderThrows thread => exact setBinder_counted h _

/-! ## Runs -/

theorem sound_run (es : List (TeeEvent Thread)) : (({} : TeeDaemon Thread).run es).Sound :=
  Machine.run_invariant (fun _ e h => (h.next_step e).2) sound_initial

theorem counted_run (es : List (TeeEvent Thread)) : (({} : TeeDaemon Thread).run es).Counted :=
  Machine.run_invariant (fun _ e h => h.next e) counted_initial

theorem Sound.extends_run (h : s.Sound) (es : List (TeeEvent Thread)) : s.Extends (s.run es) :=
  ⟨Machine.run_known h (fun _ e h => (h.next_step e).2) (fun _ e h => (h.next_step e).1.verdict) es,
    Machine.run_known h (fun _ e h => (h.next_step e).2) (fun _ e h => (h.next_step e).1.teeBroken) es⟩

/-- Once the probe thread has left UNKNOWN its verdict stands, it is the only one that `teeBroken` and the
status file ever hold, and no more than ten attempts are made. -/
theorem verdict_final (before after : List (TeeEvent Thread)) :
    let earlier := ({} : TeeDaemon Thread).run before
    let s := ({} : TeeDaemon Thread).run (before ++ after)
    (earlier.state ≠ .UNKNOWN → s.state = earlier.state) ∧
    s.probes ≤ 1 + TeeRetryPolicy.MAX_ATTEMPTS ∧
    (s.state = .UNKNOWN → s.teeBroken = none) ∧
    (earlier.teeBroken ≠ none → s.teeBroken = some (decide (s.state = .BROKEN))) ∧
    (∀ text, s.statusFile.head? = some text → s.teeBroken.map statusText = some text) := by
  intro earlier s
  have hearlier : earlier.Sound := sound_run before
  have hs : s.Sound := sound_run (before ++ after)
  have hextends : earlier.Extends s := by
    simp only [s, run, Machine.run_append]
    exact hearlier.extends_run after
  refine ⟨fun hne => ?_, (counted_run _).probes_le, fun hstate => ?_, fun hne => ?_, fun text hhead => ?_⟩
  · have hverdict : earlier.state.verdict ≠ none := fun h => hne (TeeState.verdict_eq_none.1 h)
    exact TeeState.verdict_inj (hextends.verdict.eq_of_ne_none hverdict)
  · exact (TeeState.verdict_eq_none.2 hstate ▸ hs.teeBroken : Known s.teeBroken none).eq_none
  · apply hs.teeBroken_eq
    rw [hextends.teeBroken.eq_of_ne_none hne]
    exact hne
  · exact hs.file text (List.mem_of_mem_head? hhead)

-- the second attempt finds the hardware broken, and a binder thread publishes it before the listener does
example :
    let s := ({} : TeeDaemon Unit).run [.probe { result := .TRANSIENT }, .probe {}, .probe {}, .probe {},
      .probe { result := .BROKEN }, .probe {}, .binder () true, .binder () true, .binder () true, .binder () true]
    (s.state, s.probeThread, s.teeBroken, s.statusFile) =
      (.BROKEN, .stateListener 1 .BROKEN, some true, ["teeBroken=true"]) := by decide

/-! ## A check without interference -/

/-- A check of a binder thread that no other thread interrupts leaves what `checkNeed` of the
configuration leaves, whose `storeTEEStatus` is one step. -/
theorem teeBroken_checkNeed (c : PkgConfig) (hbroken : c.teeBroken = s.teeBroken)
    (hidle : s.binders thread = .checkNeed) (written : Bool) :
    (s.run (List.replicate 4 (.binder thread written))).teeBroken =
      (if c.teeBroken = none then c.storeTEEStatus s.state else c).teeBroken := by
  rw [hbroken]
  by_cases hnone : s.teeBroken = none
  · have hstore : (s.binder thread written).binder thread written =
        (s.setBinder thread .storeTEEStatus).storeTEEStatus thread := by
      have hfirst : s.binder thread written = s.setBinder thread .storeTEEStatus := by
        simp only [TeeDaemon.binder, hidle, hnone, if_true]
      rw [hfirst]
      simp only [TeeDaemon.binder, TeeDaemon.setBinder, Function.update_self]
    show ((((s.binder thread written).binder thread written).binder thread written).binder thread
      written).teeBroken = _
    rw [hstore, if_pos hnone]
    cases hstate : s.state <;>
      simp [TeeDaemon.storeTEEStatus, TeeDaemon.binder, TeeDaemon.setBinder, PkgConfig.storeTEEStatus, hstate,
        hnone, hbroken]
  · have hstay : s.binder thread written = s := by
      simp only [TeeDaemon.binder, hidle, hnone, if_false]
    show ((((s.binder thread written).binder thread written).binder thread written).binder thread
      written).teeBroken = _
    rw [hstay, hstay, hstay, hstay, if_neg hnone, hbroken]

end Binders

end TeeDaemon

end TrickyStore
