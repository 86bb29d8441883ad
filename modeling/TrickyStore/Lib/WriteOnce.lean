import TrickyStore.Lib.Machine

/-!
# Values that are written once

A variable is written once when no step changes it after it is set, so that what was read of it stays
true and whatever is copied from a copy agrees with it.
-/

namespace Lib

variable {α : Type*} {x y z : Option α} {a b : α}

/-- What `x` holds, `y` holds too. -/
def Known (x y : Option α) : Prop := ∀ a, x = some a → y = some a

theorem Known.refl (x : Option α) : Known x x := fun _ h => h

theorem Known.trans (h : Known x y) (h' : Known y z) : Known x z := fun a hx => h' a (h a hx)

theorem known_none (y : Option α) : Known none y := fun _ h => nomatch h

theorem known_some : Known (some a) y ↔ y = some a := by
  constructor
  · intro h
    exact h a rfl
  · rintro h a' ha
    exact ha ▸ h

theorem Known.eq_none (h : Known x none) : x = none := by
  cases x with
  | none => rfl
  | some a => exact absurd (h a rfl) (by simp)

theorem Known.eq_of_ne_none (h : Known x y) (hx : x ≠ none) : y = x := by
  obtain ⟨a, rfl⟩ := Option.ne_none_iff_exists'.1 hx
  exact h a rfl

namespace Machine

variable {σ ε : Type*} {next : σ → ε → σ} {s : σ} {I : σ → Prop}

/-- A variable that each step from an invariant state keeps is kept by a run. -/
theorem run_known {v : σ → Option α} (hs : I s) (step : ∀ s e, I s → I (next s e))
    (keep : ∀ s e, I s → Known (v s) (v (next s e))) (es : List ε) : Known (v s) (v (run next s es)) := by
  induction es generalizing s with
  | nil => exact Known.refl _
  | cons e es ih => exact (keep s e hs).trans (ih (step s e hs))

end Machine

end Lib
