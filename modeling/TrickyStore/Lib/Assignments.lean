import TrickyStore.Lib.HashMap

/-!
# The last assignment of a key

A file of settings is read from top to bottom into a map, where a later assignment of a key replaces an
earlier one.  What the map holds in the end is the last assignment of every key, and nothing at a key
that is never assigned.
-/

namespace Lib

variable {K V : Type*} [DecidableEq K]

/-- What the last of the assignments of `k` assigns. -/
def lastOf (k : K) : List (K × V) → Option V
  | [] => none
  | (k', v) :: rest => (lastOf k rest).or (if k' = k then some v else none)

/-- The map after the assignments. -/
def assignAll (m : HashMap K V) (l : List (K × V)) : HashMap K V :=
  l.foldl (fun m e => m.insert e.1 e.2) m

variable {k : K} {v : V} {l l' : List (K × V)}

@[simp] theorem lastOf_nil : lastOf k ([] : List (K × V)) = none := rfl

theorem lastOf_cons (e : K × V) :
    lastOf k (e :: l) = (lastOf k l).or (if e.1 = k then some e.2 else none) := rfl

theorem lastOf_eq_none_iff : lastOf k l = none ↔ ∀ v, (k, v) ∉ l := by
  induction l with
  | nil => simp
  | cons e l ih =>
    rw [lastOf_cons, Option.or_eq_none_iff, ih]
    constructor
    · rintro ⟨hrest, he⟩ v hv
      rcases List.mem_cons.1 hv with rfl | hv
      · simp at he
      · exact hrest v hv
    · intro h
      refine ⟨fun v hv => h v (List.mem_cons_of_mem e hv), if_neg ?_⟩
      rintro rfl
      exact h e.2 List.mem_cons_self

theorem mem_of_lastOf (h : lastOf k l = some v) : (k, v) ∈ l := by
  induction l with
  | nil => cases h
  | cons e l ih =>
    rw [lastOf_cons, Option.or_eq_some_iff] at h
    rcases h with h | ⟨-, h⟩
    · exact List.mem_cons_of_mem e (ih h)
    · split_ifs at h with hk
      obtain ⟨k', v'⟩ := e
      cases h
      cases hk
      exact List.mem_cons_self

/-- Renaming the keys, no two to one name, renames nothing else. -/
theorem lastOf_map {K' V' : Type*} [DecidableEq K'] {f : K → K'} (hf : Function.Injective f) (g : V → V') :
    lastOf (f k) (l.map fun e => (f e.1, g e.2)) = (lastOf k l).map g := by
  induction l with
  | nil => rfl
  | cons e l ih =>
    rw [List.map_cons, lastOf_cons, lastOf_cons, ih, Option.map_or]
    congr 1
    by_cases h : e.1 = k
    · simp [h]
    · rw [if_neg fun heq => h (hf heq), if_neg h]
      rfl

/-- The entries of a map are assignments of different keys. -/
theorem lastOf_entries {W : Type*} (m : HashMap K V) (f : V → Option W) :
    lastOf k (m.entries.filterMap fun e => (f e.2).map fun w => (e.1, w)) = (m.lookup k).bind f := by
  have hlist {es : List (Sigma fun _ : K => V)} (hnodup : es.NodupKeys) :
      lastOf k (es.filterMap fun e => (f e.2).map fun w => (e.1, w)) = (es.dlookup k).bind f := by
    induction es with
    | nil => rfl
    | cons e es ih =>
      obtain ⟨hfresh, hnodup⟩ := List.nodupKeys_cons.1 hnodup
      have hhead : lastOf k ((e :: es).filterMap fun e => (f e.2).map fun w => (e.1, w)) =
          (lastOf k (es.filterMap fun e => (f e.2).map fun w => (e.1, w))).or
            (if e.1 = k then f e.2 else none) := by
        cases hf : f e.2 with
        | none =>
          rw [List.filterMap_cons_none (by rw [hf]; rfl), ite_self, Option.or_none]
        | some w =>
          rw [List.filterMap_cons_some (by rw [hf]; rfl), lastOf_cons]
      rw [hhead, ih hnodup]
      by_cases h : e.1 = k
      · subst h
        rw [if_pos rfl, List.dlookup_eq_none.2 hfresh, List.dlookup_cons_eq]
        rfl
      · rw [if_neg h, Option.or_none, List.dlookup_cons_ne _ _ (Ne.symm h)]
  exact hlist m.nodupKeys

theorem lookup_assignAll (m : HashMap K V) :
    (assignAll m l).lookup k = (lastOf k l).or (m.lookup k) := by
  induction l generalizing m with
  | nil => simp [assignAll]
  | cons e l ih =>
    have hstep : assignAll m (e :: l) = assignAll (m.insert e.1 e.2) l := rfl
    rw [hstep, ih, lastOf_cons, Option.or_assoc, HashMap.lookup_insert_ite]
    congr 1
    by_cases h : e.1 = k
    · simp [h]
    · rw [if_neg h, if_neg (Ne.symm h)]
      rfl

/-- What is read from top to bottom into an empty map. -/
theorem lookup_assignAll_empty : (assignAll (∅ : HashMap K V) l).lookup k = lastOf k l := by
  rw [lookup_assignAll, AList.lookup_empty, Option.or_none]

end Lib
