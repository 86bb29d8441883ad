import Mathlib.Data.List.Basic
import Mathlib.Data.List.Induction
import Mathlib.Tactic.Common

/-!
# Runs of a deterministic machine driven by events

All choices of the environment are part of the events, so a run is determined by its list of
events.  The rules below are the induction principles of the development: an invariant that every
step preserves holds at the end of a run, an invariant that the steps meeting a side condition
preserve holds of every run all of whose steps meet it, and a property that holds at the end but not
at the start was established by one event and has held ever since.
-/

namespace Lib

namespace Machine

variable {σ ε : Type*} (next : σ → ε → σ)

/-- The state after the events of the list. -/
def run (s : σ) (es : List ε) : σ := es.foldl next s

@[simp] theorem run_nil (s : σ) : run next s [] = s := rfl

@[simp] theorem run_cons (s : σ) (e : ε) (es : List ε) :
    run next s (e :: es) = run next (next s e) es := rfl

theorem run_append (s : σ) (es es' : List ε) :
    run next s (es ++ es') = run next (run next s es) es' :=
  List.foldl_append

theorem run_concat (s : σ) (es : List ε) (e : ε) :
    run next s (es ++ [e]) = next (run next s es) e :=
  run_append next s es [e]

/-- `P` holds of every step of the run, as a property of the state before it and its event. -/
def AllSteps (P : σ → ε → Prop) (s : σ) (es : List ε) : Prop :=
  ∀ es₁ e es₂, es = es₁ ++ e :: es₂ → P (run next s es₁) e

variable {next} {P Q : σ → ε → Prop} {s : σ} {e : ε} {es es' : List ε}

theorem AllSteps.head (h : AllSteps next P s (e :: es)) : P s e := h [] e es rfl

theorem AllSteps.tail (h : AllSteps next P s (e :: es)) : AllSteps next P (next s e) es :=
  fun es₁ e' es₂ he => h (e :: es₁) e' es₂ (by rw [he]; rfl)

theorem AllSteps.take (h : AllSteps next P s (es ++ es')) : AllSteps next P s es :=
  fun es₁ e es₂ he => h es₁ e (es₂ ++ es') (by rw [he]; simp)

theorem allSteps_nil : AllSteps next P s [] := by
  intro es₁ e es₂ he
  simp at he

theorem allSteps_cons (h : P s e) (hs : AllSteps next P (next s e) es) :
    AllSteps next P s (e :: es) := by
  intro es₁ e' es₂ he
  cases es₁ with
  | nil =>
    obtain ⟨rfl, rfl⟩ := List.cons.inj he
    exact h
  | cons e₀ es₀ =>
    obtain ⟨rfl, rfl⟩ := List.cons.inj he
    exact hs es₀ e' es₂ rfl

/-- A property preserved by the steps that meet `P` holds after a run whose steps all meet `P`. -/
theorem AllSteps.invariant {I : σ → Prop} (h : AllSteps next P s es) (hs : I s)
    (step : ∀ s e, I s → P s e → I (next s e)) : I (run next s es) := by
  induction es generalizing s with
  | nil => exact hs
  | cons e es ih => exact ih h.tail (step s e hs h.head)

/-- Every step taken from an invariant state under the condition `P` has the property `Q`. -/
theorem AllSteps.ensures {I : σ → Prop} (h : AllSteps next P s es) (hs : I s)
    (step : ∀ s e, I s → P s e → I (next s e)) (post : ∀ s e, I s → P s e → Q s e) :
    AllSteps next Q s es := by
  intro es₁ e es₂ he
  subst he
  exact post _ _ (h.take.invariant hs step) (h es₁ e es₂ rfl)

/-- A property that an invariant implies holds after every prefix of a run exactly if every step meets
the condition `P`, when steps that meet it keep the invariant and the property after a step implies it. -/
theorem allSteps_iff_forall_prefix {I G : σ → Prop} {E : ε → Prop} (hs : I s) (he : ∀ e ∈ es, E e)
    (step : ∀ s e, I s → E e → P s e → I (next s e)) (good : ∀ s, I s → G s)
    (exact : ∀ s e, I s → E e → G (next s e) → P s e) :
    AllSteps next P s es ↔ ∀ es₁, es₁ <+: es → G (run next s es₁) := by
  constructor
  · rintro h es₁ ⟨es₂, rfl⟩
    have hboth : AllSteps next (fun s e => E e ∧ P s e) s es₁ := fun before e after heq =>
      ⟨he e (by simp [heq]), h.take before e after heq⟩
    exact good _ (hboth.invariant hs fun s e hI hP => step s e hI hP.1 hP.2)
  · intro h
    induction es generalizing s with
    | nil => exact allSteps_nil
    | cons e es ih =>
      have hE : E e := he e List.mem_cons_self
      have hP : P s e := exact s e hs hE (h [e] ⟨es, rfl⟩)
      refine allSteps_cons hP (ih (step s e hs hE hP) (fun e' he' => he e' (List.mem_cons_of_mem _ he'))
        fun es₁ hp => ?_)
      exact h (e :: es₁) (List.prefix_cons_inj e |>.2 hp)

theorem run_invariant {I : σ → Prop} (step : ∀ s e, I s → I (next s e)) (hs : I s) :
    I (run next s es) := by
  induction es generalizing s with
  | nil => exact hs
  | cons e es ih => exact ih (step s e hs)

variable (next) in
/-- A property that holds at the end of a run but not at its start was established by one event of
the run and has held after every later event. -/
theorem exists_origin {R : σ → Prop} (hs : ¬ R s) (h : R (run next s es)) :
    ∃ es₁ e es₂, es = es₁ ++ e :: es₂ ∧ ¬ R (run next s es₁) ∧
      ∀ es₃, es₃ <+: es₂ → R (run next s (es₁ ++ e :: es₃)) := by
  induction es using List.reverseRecOn with
  | nil => exact absurd h hs
  | append_singleton es e ih =>
    by_cases hR : R (run next s es)
    · obtain ⟨es₁, e', es₂, rfl, hn, hall⟩ := ih hR
      refine ⟨es₁, e', es₂ ++ [e], by simp, hn, fun es₃ hp => ?_⟩
      rcases List.prefix_concat_iff.1 hp with rfl | hp
      · simpa using h
      · exact hall es₃ hp
    · refine ⟨es, e, [], rfl, hR, fun es₃ hp => ?_⟩
      obtain rfl := List.prefix_nil.1 hp
      exact h

end Machine

end Lib
