import Mathlib.Tactic.Common

/-!
# Triples of programs over a state

A precondition, a program over a state and a postcondition on its value and its final state.  Where the value
is known beforehand, the program that follows is looked at for this value only.
-/

namespace Lib

variable {σ α β : Type}

/-- Started where `P` holds, the program ends where `Q` does. -/
def Triple (P : σ → Prop) (x : StateM σ α) (Q : α → σ → Prop) : Prop :=
  ∀ s, P s → Q (x.run s).1 (x.run s).2

/-- Started where `P` holds, the program returns `a` and ends where `Q` holds. -/
def Returns (P : σ → Prop) (x : StateM σ α) (a : α) (Q : σ → Prop) : Prop :=
  Triple P x fun b s => b = a ∧ Q s

variable {P Q R : σ → Prop} {x y : StateM σ α} {f : α → StateM σ β} {a : α} {b : β} {c : Prop} [Decidable c]

namespace Triple

variable {S : α → σ → Prop} {T : β → σ → Prop}

theorem bind (hx : Triple P x S) (hf : ∀ a, Triple (S a) (f a) T) : Triple P (x >>= f) T :=
  fun s hs => hf _ _ (hx s hs)

theorem of_modify {g : σ → σ} (h : ∀ s, P s → Q (g s)) : Triple P (modify g : StateM σ PUnit) fun _ => Q := h

end Triple

namespace Returns

theorem of_pure (h : ∀ s, P s → Q s) : Returns P (pure a : StateM σ α) a Q :=
  fun s hs => ⟨rfl, h s hs⟩

theorem bind (hx : Returns P x a Q) (hf : Returns Q (f a) b R) : Returns P (x >>= f) b R := by
  intro s hs
  obtain ⟨hvalue, hstate⟩ := hx s hs
  have hrest := hf _ hstate
  rw [← hvalue] at hrest
  exact hrest

/-- The value of the first program does not matter. -/
theorem bind_any (hx : Triple P x fun _ => Q) (hf : ∀ a, Returns Q (f a) b R) : Returns P (x >>= f) b R :=
  hx.bind hf

theorem of_pos (hc : c) (hx : Returns P x a Q) : Returns P (if c then x else y) a Q := by
  rw [if_pos hc]
  exact hx

theorem of_neg (hc : ¬ c) (hy : Returns P y a Q) : Returns P (if c then x else y) a Q := by
  rw [if_neg hc]
  exact hy

end Returns

end Lib
