import TrickyStore.Model.TeeClassifier
import TrickyStore.Proof.TeeVerdict

/-!
# The evidence for a verdict on the TEE

The probe thread attests again only after an attempt that decides nothing, so the verdict is that of the last
attempt, whatever the binder threads do in between.  Behind a verdict of a broken TEE there is an exception whose
first code that decides, or whose first text if no code does, says so.
-/

open Lib

namespace TrickyStore

namespace TeeProbeClassifier

variable {Ref : Type*} (T : Throwables Ref) {bootCompleted : Bool} {exception : Ref}

/-! ## The exceptions that are looked at -/

/-- The exception and its causes, as many as are looked at. -/
def causes : ℕ → Option Ref → List Ref
  | 0, _ => []
  | _ + 1, none => []
  | depth + 1, some current => current :: causes depth (T.cause current)

theorem signalsFrom_eq (depth : ℕ) (current : Option Ref) :
    signalsFrom T depth current =
      ⟨(causes T depth current).filterMap T.message, (causes T depth current).filterMap (extractErrorCode T)⟩ := by
  induction depth generalizing current with
  | zero => rfl
  | succ depth ih =>
    cases current with
    | none => rfl
    | some current =>
      rw [signalsFrom, ih, causes, List.filterMap_cons, List.filterMap_cons]
      cases T.message current <;> cases extractErrorCode T current <;> rfl

/-- What the code of one exception decides. -/
def codeDecides (bootCompleted : Bool) (current : Ref) : Option TeeProbeResult :=
  (extractErrorCode T current).bind (codeResult bootCompleted)

/-- What the text of one exception decides. -/
def messageDecides (bootCompleted : Bool) (current : Ref) : Option TeeProbeResult :=
  (T.message current).bind (messageResult T bootCompleted)

theorem findSome?_filterMap {α β γ : Type*} (f : α → Option β) (g : β → Option γ) (l : List α) :
    (l.filterMap f).findSome? g = l.findSome? fun x => (f x).bind g := by
  rw [← List.head?_filterMap, List.filterMap_filterMap, List.head?_filterMap]

/-- The first code decides, and otherwise the first text. -/
theorem classifyException_eq :
    classifyException T exception bootCompleted =
      ((causes T 12 (some exception)).findSome? (codeDecides T bootCompleted)).getD
        (((causes T 12 (some exception)).findSome? (messageDecides T bootCompleted)).getD .TRANSIENT) := by
  unfold classifyException classifySignals extractSignals
  rw [signalsFrom_eq]
  simp only [findSome?_filterMap]
  unfold codeDecides messageDecides
  cases (causes T 12 (some exception)).findSome? fun current =>
    (extractErrorCode T current).bind (codeResult bootCompleted) <;> rfl

/-- The first of the exceptions that decides anything decides for a broken TEE. -/
def FirstBroken (decides : Ref → Option TeeProbeResult) (exceptions : List Ref) : Prop :=
  ∃ before current after, exceptions = before ++ current :: after ∧ (∀ earlier ∈ before, decides earlier = none) ∧
    decides current = some .BROKEN

/-- The exception says that the TEE is broken: the first code that decides does, or no code decides and the first
text that does. -/
def SaysBroken (exception : Ref) (bootCompleted : Bool) : Prop :=
  FirstBroken (codeDecides T bootCompleted) (causes T 12 (some exception)) ∨
    (∀ current ∈ causes T 12 (some exception), codeDecides T bootCompleted current = none) ∧
      FirstBroken (messageDecides T bootCompleted) (causes T 12 (some exception))

theorem findSome?_broken_iff {decides : Ref → Option TeeProbeResult} {exceptions : List Ref} :
    exceptions.findSome? decides = some .BROKEN ↔ FirstBroken decides exceptions := by
  rw [List.findSome?_eq_some_iff]
  constructor
  · rintro ⟨before, current, after, hsplit, hcurrent, hbefore⟩
    exact ⟨before, current, after, hsplit, hbefore, hcurrent⟩
  · rintro ⟨before, current, after, hsplit, hbefore, hcurrent⟩
    exact ⟨before, current, after, hsplit, hcurrent, hbefore⟩

theorem classifyException_broken_iff :
    classifyException T exception bootCompleted = .BROKEN ↔ SaysBroken T exception bootCompleted := by
  unfold SaysBroken
  rw [classifyException_eq, ← findSome?_broken_iff, ← findSome?_broken_iff, ← List.findSome?_eq_none_iff]
  cases (causes T 12 (some exception)).findSome? (codeDecides T bootCompleted) with
  | some result => simp
  | none =>
    cases (causes T 12 (some exception)).findSome? (messageDecides T bootCompleted) with
    | some result => simp
    | none => simp

/-- The errors that are permanent whether the boot is completed or not. -/
def IsPermanent (code : Int) : Prop :=
  code = ResponseCode.OUT_OF_KEYS_PERMANENT_ERROR ∨ code = ResponseCode.OUT_OF_KEYS_REQUIRES_SYSTEM_UPGRADE

theorem codeResult_booting {code : Int} (h : codeResult false code = some .BROKEN) : IsPermanent code := by
  by_contra hpermanent
  unfold IsPermanent at hpermanent
  simp only [codeResult, if_neg hpermanent, Bool.false_eq_true, if_false] at h
  split_ifs at h <;> cases h

theorem messageResult_booting (message : List Char) : messageResult T false message ≠ some .BROKEN := by
  simp only [messageResult, Bool.false_eq_true, if_false]
  split_ifs <;> simp

/-- While the system boots only a permanent error says that the TEE is broken. -/
theorem SaysBroken.permanent (h : SaysBroken T exception false) :
    ∃ current ∈ causes T 12 (some exception), ∃ code, extractErrorCode T current = some code ∧ IsPermanent code := by
  rcases h with ⟨before, current, after, hsplit, -, hcurrent⟩ | ⟨-, before, current, after, -, -, hcurrent⟩
  · obtain ⟨code, hcode, hresult⟩ := Option.bind_eq_some_iff.1 hcurrent
    exact ⟨current, by simp [hsplit], code, hcode, codeResult_booting hresult⟩
  · obtain ⟨message, -, hresult⟩ := Option.bind_eq_some_iff.1 hcurrent
    exact absurd hresult (messageResult_booting T message)

/-! ## What an exception cannot say -/

theorem codeResult_ne_working (code : Int) : codeResult bootCompleted code ≠ some .WORKING := by
  unfold codeResult
  split_ifs <;> simp

theorem messageResult_ne_working (message : List Char) : messageResult T bootCompleted message ≠ some .WORKING := by
  simp only [messageResult]
  split_ifs <;> simp

theorem findSome?_ne_working {decides : Ref → Option TeeProbeResult} (h : ∀ current, decides current ≠ some .WORKING)
    (exceptions : List Ref) : exceptions.findSome? decides ≠ some .WORKING := by
  intro hworking
  obtain ⟨current, -, hcurrent⟩ := List.exists_of_findSome?_eq_some hworking
  exact h current hcurrent

theorem codeDecides_ne_working (current : Ref) : codeDecides T bootCompleted current ≠ some .WORKING := by
  intro hworking
  obtain ⟨code, -, hresult⟩ := Option.bind_eq_some_iff.1 hworking
  exact codeResult_ne_working code hresult

theorem messageDecides_ne_working (current : Ref) : messageDecides T bootCompleted current ≠ some .WORKING := by
  intro hworking
  obtain ⟨message, -, hresult⟩ := Option.bind_eq_some_iff.1 hworking
  exact messageResult_ne_working T message hresult

theorem getD_ne {α : Type*} {o : Option α} {d r : α} (ho : o ≠ some r) (hd : d ≠ r) : o.getD d ≠ r := by
  cases o with
  | none => exact hd
  | some x => exact fun hx => ho (congrArg some hx)

theorem classifyException_ne_working : classifyException T exception bootCompleted ≠ .WORKING := by
  rw [classifyException_eq]
  apply getD_ne (findSome?_ne_working (codeDecides_ne_working T) _)
  apply getD_ne (findSome?_ne_working (messageDecides_ne_working T) _)
  decide

end TeeProbeClassifier

namespace HardwareInput

variable {Ref : Type*} {T : Throwables Ref} {input : HardwareInput Ref}

theorem probe_working_iff : input.probeHardwareAttestationOnce T = .WORKING ↔ input.thrown = none := by
  unfold probeHardwareAttestationOnce
  cases input.thrown with
  | none => simp
  | some exception => simpa using TeeProbeClassifier.classifyException_ne_working T

theorem probe_broken (h : input.probeHardwareAttestationOnce T = .BROKEN) :
    ∃ exception, input.thrown = some exception ∧ TeeProbeClassifier.SaysBroken T exception input.bootCompleted := by
  unfold probeHardwareAttestationOnce at h
  cases hthrown : input.thrown with
  | none =>
    rw [hthrown] at h
    cases h
  | some exception =>
    rw [hthrown] at h
    exact ⟨exception, rfl, (TeeProbeClassifier.classifyException_broken_iff T).1 h⟩

end HardwareInput

/-! ## The attempts of a run -/

theorem TeeProbeClassifier.resolveState_injective (current : TeeState) :
    Function.Injective (resolveState current) := by
  intro result result' h
  cases result <;> cases result' <;> simp_all [resolveState]

namespace HardwareProbe

variable {Ref : Type*} {T : Throwables Ref} {attempts : List (HardwareInput Ref)} {state : TeeState}

/-- No attempt has decided anything. -/
def Undecided (T : Throwables Ref) (attempts : List (HardwareInput Ref)) : Prop :=
  ∀ input ∈ attempts, input.probeHardwareAttestationOnce T = .TRANSIENT

/-- The last attempt, the only one that may decide something, leads to the state. -/
def LeadsTo (T : Throwables Ref) (attempts : List (HardwareInput Ref)) (state : TeeState) : Prop :=
  ∃ last earlier, attempts = last :: earlier ∧ Undecided T earlier ∧
    state = TeeProbeClassifier.resolveState .UNKNOWN (last.probeHardwareAttestationOnce T)

/-- The state is still UNKNOWN after attempts that decide nothing, or is what the last attempt leads to. -/
def Settled (T : Throwables Ref) (state : TeeState) (attempts : List (HardwareInput Ref)) : Prop :=
  state = .UNKNOWN ∧ Undecided T attempts ∨ state ≠ .UNKNOWN ∧ LeadsTo T attempts state

/-- A thread that ends before it has set the state leaves an attempt that nobody hears of. -/
def Heard (T : Throwables Ref) (state : TeeState) (attempts : List (HardwareInput Ref)) : Prop :=
  Undecided T attempts.tail ∧ (state ≠ .UNKNOWN → LeadsTo T attempts state)

/-- What the place of the probe thread tells of the attempts. -/
def Vouched (T : Throwables Ref) (state : TeeState) (attempts : List (HardwareInput Ref)) : ProbeThread → Prop
  | .runProbeAttempt _ => state = .UNKNOWN ∧ Undecided T attempts
  | .transitionTo _ newState => state = .UNKNOWN ∧ LeadsTo T attempts newState
  | .stateListener _ _ => state ≠ .UNKNOWN ∧ LeadsTo T attempts state
  | .persistTeeBroken _ _ | .writeText _ _ | .runRetryLoop _ | .sleep _ => Settled T state attempts
  | .finished => Heard T state attempts

theorem LeadsTo.undecided (h : LeadsTo T attempts .UNKNOWN) : Undecided T attempts := by
  obtain ⟨last, earlier, rfl, hearlier, hlast⟩ := h
  have hresult : last.probeHardwareAttestationOnce T = .TRANSIENT :=
    TeeProbeClassifier.resolveState_injective .UNKNOWN hlast.symm
  exact List.forall_mem_cons.2 ⟨hresult, hearlier⟩

theorem LeadsTo.tail (h : LeadsTo T attempts state) : Undecided T attempts.tail := by
  obtain ⟨last, earlier, rfl, hearlier, -⟩ := h
  exact hearlier

theorem Undecided.tail (h : Undecided T attempts) : Undecided T attempts.tail :=
  fun input hinput => h input (List.mem_of_mem_tail hinput)

theorem Settled.heard (h : Settled T state attempts) : Heard T state attempts := by
  rcases h with ⟨hstate, hundecided⟩ | ⟨-, hleads⟩
  · exact ⟨hundecided.tail, fun hne => absurd hstate hne⟩
  · exact ⟨hleads.tail, fun _ => hleads⟩

theorem Vouched.heard {thread : ProbeThread} (h : Vouched T state attempts thread) : Heard T state attempts := by
  cases thread with
  | runProbeAttempt n => exact ⟨h.2.tail, fun hne => absurd h.1 hne⟩
  | transitionTo n newState => exact ⟨h.2.tail, fun hne => absurd h.1 hne⟩
  | stateListener n newState => exact ⟨h.2.tail, fun _ => h.2⟩
  | persistTeeBroken n broken => exact Settled.heard h
  | writeText n broken => exact Settled.heard h
  | runRetryLoop n => exact Settled.heard h
  | sleep n => exact Settled.heard h
  | finished => exact h

/-! ## One step -/

section Steps

variable {Thread : Type*} {s : HardwareProbe Thread Ref}

/-- The places of the probe thread but the one where it attests. -/
theorem attempt_none {input : HardwareInput Ref} (h : ∀ n, s.tee.probeThread ≠ .runProbeAttempt n) :
    s.attempt input = none := by
  unfold attempt
  split
  · next n hn => exact absurd hn (h n)
  · rfl

theorem vouched_probe (h : Vouched T s.tee.state s.attempts s.tee.probeThread) (input : HardwareInput Ref) :
    Vouched T (s.tee.probe (input.toProbeInput T)).state ((s.attempt input).toList ++ s.attempts)
      (s.tee.probe (input.toProbeInput T)).probeThread := by
  have hheard := h.heard
  by_cases hattests : ∃ n, s.tee.probeThread = .runProbeAttempt n
  · obtain ⟨n, hthread⟩ := hattests
    rw [hthread] at h
    obtain ⟨hstate, hundecided⟩ := h
    simp only [TeeDaemon.probe, attempt, hthread, TeeDaemon.runProbeAttempt, HardwareInput.toProbeInput]
    cases hbootstrap : input.bootstrap with
    | Ready => exact ⟨hstate, input, s.attempts, rfl, hundecided, rfl⟩
    | Failed => exact .inl ⟨hstate, hundecided⟩
  · rw [attempt_none fun n hn => hattests ⟨n, hn⟩]
    show Vouched T _ s.attempts _
    unfold TeeDaemon.probe
    cases hthread : s.tee.probeThread with
    | runProbeAttempt n => exact absurd ⟨n, hthread⟩ hattests
    | transitionTo n newState =>
      rw [hthread] at h
      obtain ⟨hstate, hleads⟩ := h
      simp only [TeeDaemon.transitionTo]
      split_ifs with hsame
      · exact .inl ⟨hstate, LeadsTo.undecided (by rw [← hstate, hsame]; exact hleads)⟩
      · exact ⟨fun hnew => hsame (hstate.trans hnew.symm), hleads⟩
    | stateListener n newState =>
      rw [hthread] at h
      cases newState <;> exact .inr h
    | persistTeeBroken n broken =>
      rw [hthread] at h
      exact h
    | writeText n broken =>
      rw [hthread] at h
      show Settled T _ _
      rw [TeeDaemon.writeText_state]
      exact h
    | runRetryLoop n =>
      rw [hthread] at h
      simp only
      split_ifs
      · exact h
      · exact hheard
    | sleep n =>
      rw [hthread] at h
      simp only
      split_ifs with hstate
      · exact hheard
      · exact h.resolve_right fun hne => hstate hne.1
    | finished =>
      rw [hthread]
      exact hheard

/-- What every run of the threads keeps. -/
structure Sound (T : Throwables Ref) (s : HardwareProbe Thread Ref) : Prop where
  tee : s.tee.Sound
  vouched : Vouched T s.tee.state s.attempts s.tee.probeThread

theorem sound_initial : Sound T ({} : HardwareProbe Thread Ref) :=
  ⟨TeeDaemon.sound_initial, rfl, fun _ hinput => absurd hinput List.not_mem_nil⟩

/-- Where the daemon has published a verdict, it is that of the state. -/
theorem Sound.state_of_published {broken : Bool} (h : Sound T s)
    (hpublished : s.tee.teeBroken = some broken ∨ statusText broken ∈ s.tee.statusFile) :
    s.tee.state.verdict = some broken := by
  rcases hpublished with hbroken | hfile
  · exact h.tee.teeBroken _ hbroken
  · obtain ⟨written, hwritten, htext⟩ := Option.map_eq_some_iff.1 (h.tee.file _ hfile)
    have hinjective : ∀ b b' : Bool, statusText b = statusText b' → b = b' := by decide
    rw [← hinjective _ _ htext]
    exact h.tee.teeBroken _ hwritten

theorem Sound.broken (h : Sound T s) (hstate : s.tee.state = .BROKEN) :
    ∃ last earlier exception, s.attempts = last :: earlier ∧ last.thrown = some exception ∧
      TeeProbeClassifier.SaysBroken T exception last.bootCompleted ∧
      (last.bootCompleted = false → ∃ current ∈ TeeProbeClassifier.causes T 12 (some exception), ∃ code,
        TeeProbeClassifier.extractErrorCode T current = some code ∧ TeeProbeClassifier.IsPermanent code) := by
  obtain ⟨last, earlier, hattempts, -, hlast⟩ := h.vouched.heard.2 (by rw [hstate]; decide)
  have hresult : last.probeHardwareAttestationOnce T = .BROKEN :=
    TeeProbeClassifier.resolveState_injective _ (hlast.symm.trans hstate)
  obtain ⟨exception, hthrown, hsays⟩ := HardwareInput.probe_broken hresult
  refine ⟨last, earlier, exception, hattempts, hthrown, hsays, fun hbooting => ?_⟩
  rw [hbooting] at hsays
  exact hsays.permanent

theorem Sound.working (h : Sound T s) (hstate : s.tee.state = .WORKING) :
    ∃ last earlier, s.attempts = last :: earlier ∧ last.thrown = none := by
  obtain ⟨last, earlier, hattempts, -, hlast⟩ := h.vouched.heard.2 (by rw [hstate]; decide)
  have hresult : last.probeHardwareAttestationOnce T = .WORKING :=
    TeeProbeClassifier.resolveState_injective _ (hlast.symm.trans hstate)
  exact ⟨last, earlier, hattempts, HardwareInput.probe_working_iff.1 hresult⟩

variable [DecidableEq Thread]

/-- A binder thread sets neither the state nor the place of the probe thread. -/
theorem binder_keeps (tee : TeeDaemon Thread) (thread : Thread) (written : Bool) :
    (tee.binder thread written).state = tee.state ∧ (tee.binder thread written).probeThread = tee.probeThread := by
  unfold TeeDaemon.binder
  cases tee.binders thread with
  | checkNeed =>
    simp only
    split_ifs <;> exact ⟨rfl, rfl⟩
  | storeTEEStatus =>
    simp only [TeeDaemon.storeTEEStatus]
    split <;> exact ⟨rfl, rfl⟩
  | persistTeeBroken broken => exact ⟨rfl, rfl⟩
  | writeText broken =>
    exact ⟨TeeDaemon.writeText_state broken written, TeeDaemon.writeText_probeThread broken written⟩

theorem Sound.next (h : Sound T s) (e : HardwareEvent Thread Ref) : Sound T (s.next T e) := by
  cases e with
  | probe input => exact ⟨(h.tee.next_step (.probe (input.toProbeInput T))).2, vouched_probe h.vouched input⟩
  | probeThrows => exact ⟨(h.tee.next_step .probeThrows).2, h.vouched.heard⟩
  | binder thread written =>
    obtain ⟨hstate, hthread⟩ := binder_keeps s.tee thread written
    refine ⟨(h.tee.next_step (.binder thread written)).2, ?_⟩
    show Vouched T (s.tee.binder thread written).state s.attempts (s.tee.binder thread written).probeThread
    rw [hstate, hthread]
    exact h.vouched
  | binderThrows thread => exact ⟨(h.tee.next_step (.binderThrows thread)).2, h.vouched⟩

theorem sound_run (es : List (HardwareEvent Thread Ref)) : Sound T (({} : HardwareProbe Thread Ref).run T es) :=
  Machine.run_invariant (fun _ e h => h.next e) sound_initial

/-! ## Runs -/

/-- Every attempt but the last decides nothing.  A verdict in the state, in `teeBroken` or in the status file is that
of the last attempt: of a broken TEE only when it threw an exception that says so, by a permanent error while the
system boots, and of a working one only when it threw nothing. -/
theorem verdict_on_evidence (es : List (HardwareEvent Thread Ref)) :
    let s := ({} : HardwareProbe Thread Ref).run T es
    Undecided T s.attempts.tail ∧
    (s.tee.state = .BROKEN ∨ s.tee.teeBroken = some true ∨ statusText true ∈ s.tee.statusFile →
      ∃ last earlier exception, s.attempts = last :: earlier ∧ last.thrown = some exception ∧
        TeeProbeClassifier.SaysBroken T exception last.bootCompleted ∧
        (last.bootCompleted = false → ∃ current ∈ TeeProbeClassifier.causes T 12 (some exception), ∃ code,
          TeeProbeClassifier.extractErrorCode T current = some code ∧ TeeProbeClassifier.IsPermanent code)) ∧
    (s.tee.state = .WORKING ∨ s.tee.teeBroken = some false ∨ statusText false ∈ s.tee.statusFile →
      ∃ last earlier, s.attempts = last :: earlier ∧ last.thrown = none) := by
  intro s
  have hs : Sound T s := sound_run es
  refine ⟨hs.vouched.heard.1, ?_, ?_⟩
  · rintro (hstate | hpublished)
    · exact hs.broken hstate
    · exact hs.broken (TeeState.verdict_inj (hs.state_of_published hpublished))
  · rintro (hstate | hpublished)
    · exact hs.working hstate
    · exact hs.working (TeeState.verdict_inj (hs.state_of_published hpublished))

-- a permanent error that caused an exception without a code counts while the system boots
example :
    let T : Throwables Bool := {
      message := fun _ => some "Failed to generate key pair".toList
      serviceSpecific := fun x => if x then none else some ResponseCode.OUT_OF_KEYS_PERMANENT_ERROR
      getField := fun _ _ => none
      cause := fun x => if x then some false else none
      lowercase := fun text => text.map Char.toLower }
    (({} : HardwareProbe Unit Bool).run T [.probe { thrown := some true }, .probe {}]).tee.state = .BROKEN := by
  decide

end Steps

end HardwareProbe

end TrickyStore
