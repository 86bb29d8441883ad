import Mathlib.Data.List.ReduceOption
import TrickyStore.Lib.Machine

/-!
# Noninterference by unwinding

A machine is shared by several users.  One of them observes the outputs of its own events, and two
states are alike for it when they agree on whatever its events can see.  If the events of the others
lead to states alike, and its own events lead from alike states to alike states and give the same
output there, then what it observes depends on its own events only: the others could as well be
absent.
-/

namespace Lib

namespace Machine

variable {σ ε ω : Type*} (next : σ → ε → σ) (mine : ε → Bool) (observe : σ → ε → ω)

/-- The outputs of the user's own events along the run. -/
def observations (s : σ) : List ε → List ω
  | [] => []
  | e :: es =>
    if mine e then observe s e :: observations (next s e) es else observations (next s e) es

/-- The conditions on a single step, in states with the invariant `I` and for events with the property
`C`; `alike` relates the states that the user cannot tell apart. -/
structure Unwinding (C : ε → Prop) (I : σ → Prop) (alike : σ → σ → Prop) : Prop where
  invariant : ∀ {s e}, I s → C e → I (next s e)
  respects : ∀ {s t e}, I s → I t → C e → mine e = false → alike s t → alike (next s e) t
  consistent : ∀ {s t e}, I s → I t → C e → mine e = true → alike s t →
    alike (next s e) (next t e)
  output : ∀ {s t e}, I s → I t → C e → mine e = true → alike s t → observe s e = observe t e

variable {next mine observe} {C : ε → Prop} {I : σ → Prop} {alike : σ → σ → Prop} {s t : σ}
  {es es' : List ε}

/-- Nothing changes for the user when the events of the others are left out. -/
theorem Unwinding.observations_filter (h : Unwinding next mine observe C I alike) (hs : I s)
    (ht : I t) (hst : alike s t) (hC : ∀ e ∈ es, C e) :
    observations next mine observe s es = observations next mine observe t (es.filter mine) := by
  induction es generalizing s t with
  | nil => rfl
  | cons e es ih =>
    have he : C e := hC e (List.mem_cons_self ..)
    have hes : ∀ e' ∈ es, C e' := fun e' he' => hC e' (List.mem_cons_of_mem _ he')
    cases hmine : mine e with
    | true =>
      rw [List.filter_cons_of_pos hmine]
      simp only [observations, hmine, if_true]
      rw [h.output hs ht he hmine hst, ih (h.invariant hs he) (h.invariant ht he)
        (h.consistent hs ht he hmine hst) hes]
    | false =>
      rw [List.filter_cons_of_neg (by simp [hmine])]
      simp only [observations, hmine, Bool.false_eq_true, if_false]
      exact ih (h.invariant hs he) ht (h.respects hs ht he hmine hst) hes

/-- Two runs with the same events of the user look the same to it. -/
theorem Unwinding.observations_eq (h : Unwinding next mine observe C I alike) (hs : I s) (ht : I t)
    (hst : alike s t) (hrefl : alike t t) (hC : ∀ e ∈ es, C e) (hC' : ∀ e ∈ es', C e)
    (hsame : es.filter mine = es'.filter mine) :
    observations next mine observe s es = observations next mine observe t es' := by
  rw [h.observations_filter hs ht hst hC, hsame, ← h.observations_filter ht ht hrefl hC']

/-! ## Leaving out some of the others -/

variable {kept : ε → Bool}

/-- The events that are not observed leave nothing behind among the outputs of those that are kept. -/
theorem observations_reduceOption (h : ∀ e, mine e = true → kept e = true) :
    (observations next kept (fun s e => if mine e then some (observe s e) else none) s es).reduceOption =
      observations next mine observe s es := by
  induction es generalizing s with
  | nil => rfl
  | cons e es ih =>
    by_cases hmine : mine e = true
    · simp only [observations, hmine, h e hmine, if_true, List.reduceOption_cons_of_some]
      rw [ih]
    · by_cases hkept : kept e = true
      · simp only [observations, hmine, hkept, if_true, Bool.false_eq_true, if_false,
          List.reduceOption_cons_of_none]
        exact ih
      · simp only [observations, hmine, hkept, Bool.false_eq_true, if_false]
        exact ih

/-- Nothing changes for the user when only some of the others are left out, and unwinding holds for
them. -/
theorem Unwinding.observations_left_out
    (h : Unwinding next kept (fun s e => if mine e then some (observe s e) else none) C I alike)
    (hmine : ∀ e, mine e = true → kept e = true) (hs : I s) (ht : I t) (hst : alike s t)
    (hC : ∀ e ∈ es, C e) :
    observations next mine observe s es = observations next mine observe t (es.filter kept) := by
  rw [← observations_reduceOption hmine, ← observations_reduceOption hmine,
    h.observations_filter hs ht hst hC]

end Machine

/-! ## The items of a user in a shared list

They are those that satisfy a predicate, and are numbered in the order of the list. -/

section Items

variable {α : Type*} {p q : α → Bool} {n : ℕ} {b : α} {l : List α}

theorem getElem?_findIdxNth : l[l.findIdxNth p n]? = (l.filter p)[n]? := by
  induction l generalizing n with
  | nil => rfl
  | cons a l ih =>
    cases hp : p a with
    | true => cases n <;> simp [List.findIdxNth_cons_of_pos hp, List.filter_cons_of_pos hp, ih]
    | false =>
      rw [List.findIdxNth_cons_of_neg hp, List.filter_cons_of_neg (by simp [hp])]
      exact ih

theorem filter_set_findIdxNth (hb : p b = true) :
    (l.set (l.findIdxNth p n) b).filter p = (l.filter p).set n b := by
  induction l generalizing n with
  | nil => rfl
  | cons a l ih =>
    cases hp : p a with
    | true =>
      cases n <;>
        simp [List.findIdxNth_cons_of_pos hp, List.filter_cons_of_pos hp, hb, ih]
    | false =>
      rw [List.findIdxNth_cons_of_neg hp, List.filter_cons_of_neg (by simp [hp]), List.set_cons_succ,
        List.filter_cons_of_neg (by simp [hp])]
      exact ih

/-- The items of another user stay as they are. -/
theorem filter_set_findIdxNth_of_ne (hpq : ∀ a, p a = true → q a = false) (hb : q b = false) :
    (l.set (l.findIdxNth p n) b).filter q = l.filter q := by
  induction l generalizing n with
  | nil => rfl
  | cons a l ih =>
    cases hp : p a with
    | true => cases n <;> simp [List.findIdxNth_cons_of_pos hp, hb, hpq a hp, ih]
    | false =>
      rw [List.findIdxNth_cons_of_neg hp, List.set_cons_succ, List.filter_cons, List.filter_cons, ih]

end Items

end Lib
