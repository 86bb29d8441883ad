import Mathlib.Data.List.Sort
import Mathlib.Tactic.Common

/-!
# Lists in the order of a key

`sortBy` is the stable sort of a list by a key.  A list whose keys ascend strictly is determined by its
members, so two ways of building such a list agree as soon as they put the same things in.  Lists that
are built from a table of optional rows have distinct keys because the table has.
-/

namespace Lib

variable {α β : Type*} (key : α → ℕ)

def sortBy (l : List α) : List α := l.insertionSort fun a b => key a ≤ key b

def Ascending (l : List α) : Prop := l.Pairwise fun a b => key a < key b

instance : DecidablePred (Ascending key) := fun l =>
  inferInstanceAs (Decidable (l.Pairwise fun a b => key a < key b))

/-- The rows of a table that have a value. -/
def present (table : List (ℕ × Option β)) : List (ℕ × β) :=
  table.filterMap fun row => row.2.map fun v => (row.1, v)

variable {key} {a b : α} {l l' : List α}

@[simp] theorem mem_sortBy : a ∈ sortBy key l ↔ a ∈ l := List.mem_insertionSort _

theorem sortBy_perm (l : List α) : (sortBy key l).Perm l := List.perm_insertionSort _ l

theorem ascending_sortBy (h : (l.map key).Nodup) : Ascending key (sortBy key l) := by
  have hsorted : (sortBy key l).Pairwise fun a b => key a ≤ key b := by
    have : IsTrans α fun a b => key a ≤ key b := ⟨fun _ _ _ => le_trans⟩
    have : Std.Total fun a b : α => key a ≤ key b := ⟨fun a b => le_total _ _⟩
    exact List.pairwise_insertionSort _ l
  have hnodup : ((sortBy key l).map key).Nodup := ((sortBy_perm l).map key).nodup_iff.2 h
  rw [List.Nodup, List.pairwise_map] at hnodup
  exact (hsorted.and hnodup).imp fun h => lt_of_le_of_ne h.1 h.2

namespace Ascending

theorem nodup (h : Ascending key l) : (l.map key).Nodup := by
  rw [List.Nodup, List.pairwise_map]
  exact h.imp fun hlt => hlt.ne

/-- Lists in ascending order with the same members are equal. -/
theorem ext (h : Ascending key l) (h' : Ascending key l') (hmem : ∀ a, a ∈ l ↔ a ∈ l') : l = l' := by
  have hperm : l.Perm l' :=
    (List.perm_ext_iff_of_nodup h.nodup.of_map h'.nodup.of_map).2 hmem
  apply hperm.eq_of_pairwise _ h h'
  intro a b _ _ hab hba
  omega

end Ascending

/-- Among distinct keys one key stands at most once. -/
theorem ascending_filter (h : (l.map key).Nodup) (k : ℕ) :
    Ascending key (l.filter fun a => key a = k) := by
  rw [List.Nodup, List.pairwise_map] at h
  apply (h.filter _).imp_of_mem
  intro a b ha hb hne
  have hka : key a = k := by simpa using (List.mem_filter.1 ha).2
  have hkb : key b = k := by simpa using (List.mem_filter.1 hb).2
  exact absurd (hka.trans hkb.symm) hne

theorem mem_present {table : List (ℕ × Option β)} {t : ℕ} {v : β} :
    (t, v) ∈ present table ↔ (t, some v) ∈ table := by
  unfold present
  rw [List.mem_filterMap]
  constructor
  · rintro ⟨⟨t', v'⟩, hrow, heq⟩
    cases v' with
    | none => simp at heq
    | some w =>
      obtain ⟨rfl, rfl⟩ := Prod.mk.inj (Option.some.inj heq)
      exact hrow
  · intro hrow
    exact ⟨_, hrow, rfl⟩

theorem present_keys_sublist (table : List (ℕ × Option β)) :
    ((present table).map Prod.fst).Sublist (table.map Prod.fst) := by
  induction table with
  | nil => exact List.Sublist.slnil
  | cons row table ih =>
    obtain ⟨t, v⟩ := row
    cases v with
    | none => exact ih.cons t
    | some v => exact ih.cons_cons t

/-- The values that the present rows have under a key. -/
def valuesAt (table : List (ℕ × Option β)) (t : ℕ) : List β :=
  ((present table).filter fun row => row.1 = t).map Prod.snd

theorem valuesAt_cons (row : ℕ × Option β) (table : List (ℕ × Option β)) (t : ℕ) :
    valuesAt (row :: table) t = (if row.1 = t then row.2.toList else []) ++ valuesAt table t := by
  obtain ⟨t', v⟩ := row
  unfold valuesAt present
  cases v with
  | none =>
    simp only [Option.toList_none, ite_self, List.nil_append]
    rfl
  | some v =>
    simp only [List.filterMap_cons, Option.map_some, List.filter_cons, decide_eq_true_eq]
    by_cases ht : t' = t
    · simp [ht]
    · simp [ht]

theorem valuesAt_of_not_mem {table : List (ℕ × Option β)} {t : ℕ} (h : t ∉ table.map Prod.fst) :
    valuesAt table t = [] := by
  induction table with
  | nil => rfl
  | cons row table ih =>
    simp only [List.map_cons, List.mem_cons, not_or] at h
    rw [valuesAt_cons, if_neg fun heq => h.1 heq.symm, ih h.2, List.nil_append]

theorem valuesAt_of_mem {table : List (ℕ × Option β)} {t : ℕ} {o : Option β}
    (hnodup : (table.map Prod.fst).Nodup) (h : (t, o) ∈ table) : valuesAt table t = o.toList := by
  induction table with
  | nil => simp at h
  | cons row table ih =>
    obtain ⟨hnot, hrest⟩ := List.nodup_cons.1 (List.map_cons ▸ hnodup)
    rw [valuesAt_cons]
    rcases List.mem_cons.1 h with rfl | hmem
    · rw [if_pos rfl, valuesAt_of_not_mem hnot, List.append_nil]
    · have hne : row.1 ≠ t := by
        rintro rfl
        exact hnot (List.mem_map.2 ⟨_, hmem, rfl⟩)
      rw [if_neg hne, List.nil_append]
      exact ih hrest hmem

end Lib
