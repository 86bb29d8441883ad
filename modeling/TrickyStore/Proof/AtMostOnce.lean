import TrickyStore.Native.BinderStub

/-!
# The original target is called at most once

The error macro of `handleInterceptedTransaction` returns `false`, which the stub takes as "forward
to the original binder".  Before the interceptor's answer that is right; after the real call it
repeats the call, and after an override was decided it executes a request that was answered.
-/

open Lib

namespace TrickyStore

namespace Native

/-- The target is called at most once, and not once the reply was decided to be overridden. -/
structure AtMostOnce (log : List Step) : Prop where
  once : log.count .targetTransact ≤ 1
  notAfterOverride : ∀ l₁ l₂, log = l₁ ++ .overrideDecided :: l₂ → .targetTransact ∉ l₂

/-- The operations behind the two decisions succeed: those after a real call, and the copying of an
overriding reply. -/
structure StepsSucceed (o : Outcomes) : Prop where
  afterCall : callsTarget o = true → postSucceeds o = true
  afterOverride : overrides o = true → overrideCopied o = true

/-- The stub was called for a target that is still alive. -/
def isForTarget (o : Outcomes) : Prop := o.queued.any fun info => info.targetBinder = .alive

variable {o : Outcomes}

theorem onTransact_of_not_isForTarget (h : ¬ isForTarget o) : onTransact o = [] := by
  unfold onTransact
  cases hq : o.queued with
  | none => rfl
  | some info =>
    have ha : info.targetBinder ≠ .alive := fun ha => h (by simp [isForTarget, hq, ha])
    simp only [ha, if_false, ite_self]

theorem onTransact_of_isForTarget (h : isForTarget o) :
    onTransact o =
      if overrides o then
        if overrideCopied o then [.overrideDecided] else [.overrideDecided, .targetTransact]
      else if callsTarget o then
        if postSucceeds o then [.targetTransact] else [.targetTransact, .targetTransact]
      else [.targetTransact] := by
  unfold onTransact
  cases hq : o.queued with
  | none => simp [isForTarget, hq] at h
  | some info =>
    have ha : info.targetBinder = .alive := by simpa [isForTarget, hq] using h
    simp only [ha, reduceCtorEq, false_and, if_false, if_true, handleInterceptedTransaction_run]
    by_cases hans : answered o = true
    · by_cases hr : o.preAction = kActionOverrideReply
      · have ho : overrides o = true := by simp [overrides, hans, hr]
        have hs : kActionOverrideReply ≠ kActionSkip := by decide
        simp only [hans, hs, hr, ho, Bool.not_true, Bool.false_eq_true, if_false, if_true]
        cases overrideCopied o <;> rfl
      · have ho : overrides o = false := by simp [overrides, hr]
        by_cases hs : o.preAction = kActionSkip
        · have hc : callsTarget o = false := by simp [callsTarget, hs]
          simp only [hans, hs, ho, hc, Bool.not_true, Bool.false_eq_true, if_false, if_true]
          rfl
        · simp only [hans, hs, hr, ho, Bool.not_true, Bool.false_eq_true, if_false]
          cases callsTarget o <;> cases postSucceeds o <;> rfl
    · have ho : overrides o = false := by simp [overrides, hans]
      have hc : callsTarget o = false := by simp [callsTarget, hans]
      simp only [hans, ho, hc, Bool.not_false, Bool.false_eq_true, if_false, if_true]
      rfl

theorem atMostOnce_nil : AtMostOnce [] := ⟨by simp, fun l₁ l₂ h => by simp at h⟩

theorem atMostOnce_target : AtMostOnce [.targetTransact] := by
  refine ⟨by decide, fun l₁ l₂ h => ?_⟩
  have hmem : Step.overrideDecided ∈ [Step.targetTransact] := by
    rw [h]
    simp
  simp at hmem

theorem atMostOnce_override : AtMostOnce [.overrideDecided] := by
  refine ⟨by decide, fun l₁ l₂ h => ?_⟩
  have hlen := congrArg List.length h
  have hl₂ : l₂ = [] := by
    apply List.length_eq_zero_iff.1
    simp at hlen
    omega
  simp [hl₂]

theorem not_atMostOnce_override_target : ¬ AtMostOnce [.overrideDecided, .targetTransact] :=
  fun h => h.notAfterOverride [] [.targetTransact] rfl (by simp)

theorem not_atMostOnce_target_target : ¬ AtMostOnce [.targetTransact, .targetTransact] :=
  fun h => absurd h.once (by decide)

/-- The transaction runs at most once exactly when nothing fails behind its decision point. -/
theorem onTransact_atMostOnce_iff (o : Outcomes) :
    AtMostOnce (onTransact o) ↔ (isForTarget o → StepsSucceed o) := by
  by_cases h : isForTarget o
  · rw [onTransact_of_isForTarget h]
    cases ho : overrides o with
    | true =>
      have hc : callsTarget o = false := by
        simp only [overrides, Bool.and_eq_true, decide_eq_true_eq] at ho
        simp [callsTarget, ho.2]
      cases hcopied : overrideCopied o with
      | true => exact ⟨fun _ _ => ⟨by simp [hc], fun _ => hcopied⟩, fun _ => atMostOnce_override⟩
      | false =>
        refine ⟨fun hlog => absurd hlog not_atMostOnce_override_target, fun hs => ?_⟩
        simp [(hs h).afterOverride ho] at hcopied
    | false =>
      cases hc : callsTarget o with
      | false =>
        exact ⟨fun _ _ => ⟨by simp [hc], by simp [ho]⟩, fun _ => atMostOnce_target⟩
      | true =>
        cases hp : postSucceeds o with
        | true => exact ⟨fun _ _ => ⟨fun _ => hp, by simp [ho]⟩, fun _ => atMostOnce_target⟩
        | false =>
          refine ⟨fun hlog => absurd hlog not_atMostOnce_target_target, fun hs => ?_⟩
          simp [(hs h).afterCall hc] at hp
  · rw [onTransact_of_not_isForTarget h]
    exact ⟨fun _ ht => absurd ht h, fun _ => atMostOnce_nil⟩

/-- A transaction that goes well until the interceptor's process dies before its post-hook. -/
def interceptorDiesBeforePostHook : Outcomes where
  queued := some { isBackdoorCode := false, targetBinder := .alive }
  hasReply := true
  registered := true
  preAction := kActionContinue
  replySize := 8
  postAction := kActionSkip
  ok := fun p => p ≠ .postTransact

theorem dead_interceptor_repeats_call :
    ¬ ∀ o : Outcomes, AtMostOnce (onTransact o) := by
  intro h
  have hlog : onTransact interceptorDiesBeforePostHook = [.targetTransact, .targetTransact] := by
    decide
  exact not_atMostOnce_target_target (hlog ▸ h interceptorDiesBeforePostHook)

end Native

end TrickyStore
