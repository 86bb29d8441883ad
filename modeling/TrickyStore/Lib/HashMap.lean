import Mathlib.Data.List.AList

/-!
# Finite maps with bulk removal

A finite map is a Mathlib association list without duplicate keys.  This file adds what a mutable
hash map of a program offers beyond lookup, insertion and erasure: the membership test, the removal
of every entry that satisfies a predicate, and the first entry that satisfies one.  Every operation
is characterised by what `lookup` returns afterwards, so that no later proof looks at the list.
-/

namespace Lib

/-- A finite map from `K` to `V`; its entries are listed in some order, each key once. -/
abbrev HashMap (K V : Type*) := AList fun _ : K => V

namespace HashMap

variable {K V : Type*}

/-- Removes the entries that satisfy `p`. -/
def removeIf (m : HashMap K V) (p : K → V → Bool) : HashMap K V :=
  ⟨m.entries.filter fun e => !p e.1 e.2,
    m.nodupKeys.sublist List.filter_sublist⟩

/-- The first entry, in the order of the map, that satisfies `p`. -/
def firstEntry (m : HashMap K V) (p : K → V → Bool) : Option (K × V) :=
  (m.entries.find? fun e => p e.1 e.2).map fun e => (e.1, e.2)

variable [DecidableEq K]

/-- Whether the map has an entry at `k`. -/
def containsKey (m : HashMap K V) (k : K) : Bool := (m.lookup k).isSome

theorem lookup_eq_some_iff {m : HashMap K V} {k : K} {v : V} :
    m.lookup k = some v ↔ (⟨k, v⟩ : Sigma fun _ : K => V) ∈ m.entries :=
  AList.mem_lookup_iff

/-- What can be checked of every entry holds of those that `lookup` finds. -/
theorem of_entries_all {m : HashMap K V} {p : K → V → Bool}
    (h : (m.entries.all fun e => p e.1 e.2) = true) {k : K} {v : V} (hk : m.lookup k = some v) :
    p k v = true :=
  List.all_eq_true.1 h ⟨k, v⟩ (lookup_eq_some_iff.1 hk)

@[simp] theorem containsKey_eq_true {m : HashMap K V} {k : K} :
    containsKey m k = true ↔ ∃ v, m.lookup k = some v :=
  Option.isSome_iff_exists

@[simp] theorem containsKey_eq_false {m : HashMap K V} {k : K} :
    containsKey m k = false ↔ m.lookup k = none := by
  simp [containsKey]

theorem lookup_insert_ite (m : HashMap K V) (k k' : K) (v : V) :
    (AList.insert k v m).lookup k' = if k' = k then some v else m.lookup k' := by
  split_ifs with h
  · subst h
    exact AList.lookup_insert m
  · exact AList.lookup_insert_ne h

theorem lookup_erase_ite (m : HashMap K V) (k k' : K) :
    (AList.erase k m).lookup k' = if k' = k then none else m.lookup k' := by
  split_ifs with h
  · subst h
    exact AList.lookup_erase _ m
  · exact AList.lookup_erase_ne h

theorem lookup_erase_eq_some {m : HashMap K V} {k k' : K} {v : V} :
    (AList.erase k m).lookup k' = some v ↔ k' ≠ k ∧ m.lookup k' = some v := by
  rw [lookup_erase_ite]
  split_ifs with h <;> simp [h]

theorem lookup_insert_eq_some {m : HashMap K V} {k k' : K} {v w : V} :
    (AList.insert k v m).lookup k' = some w ↔ k' = k ∧ v = w ∨ k' ≠ k ∧ m.lookup k' = some w := by
  rw [lookup_insert_ite]
  split_ifs with h <;> simp [h]

theorem containsKey_insert (m : HashMap K V) (k k' : K) (v : V) :
    containsKey (AList.insert k v m) k' = if k' = k then true else containsKey m k' := by
  unfold containsKey
  rw [lookup_insert_ite]
  split_ifs <;> rfl

theorem containsKey_erase (m : HashMap K V) (k k' : K) :
    containsKey (AList.erase k m) k' = if k' = k then false else containsKey m k' := by
  unfold containsKey
  rw [lookup_erase_ite]
  split_ifs <;> rfl

theorem lookup_removeIf_eq_some {m : HashMap K V} {p : K → V → Bool} {k : K} {v : V} :
    (removeIf m p).lookup k = some v ↔ m.lookup k = some v ∧ p k v = false := by
  rw [lookup_eq_some_iff, lookup_eq_some_iff, removeIf, List.mem_filter]
  simp

theorem lookup_removeIf (m : HashMap K V) (p : K → V → Bool) (k : K) :
    (removeIf m p).lookup k = (m.lookup k).filter fun v => !p k v := by
  ext v
  rw [lookup_removeIf_eq_some, Option.filter_eq_some_iff]
  simp

theorem lookup_removeIf_of_kept {m : HashMap K V} {p : K → V → Bool} {k : K}
    (h : ∀ v, m.lookup k = some v → p k v = false) : (removeIf m p).lookup k = m.lookup k := by
  ext v
  rw [lookup_removeIf_eq_some]
  exact and_iff_left_of_imp (h v)

theorem firstEntry_eq_some {m : HashMap K V} {p : K → V → Bool} {k : K} {v : V}
    (h : firstEntry m p = some (k, v)) : m.lookup k = some v ∧ p k v = true := by
  simp only [firstEntry, Option.map_eq_some_iff] at h
  obtain ⟨e, he, hkv⟩ := h
  obtain ⟨rfl, rfl⟩ := Prod.mk.inj hkv
  have hp := List.find?_some he
  exact ⟨lookup_eq_some_iff.2 (List.mem_of_find?_eq_some he), by simpa using hp⟩

theorem firstEntry_eq_none {m : HashMap K V} {p : K → V → Bool} (h : firstEntry m p = none) {k : K}
    {v : V} (hk : m.lookup k = some v) : p k v = false := by
  have hall := List.find?_eq_none.1 (Option.map_eq_none_iff.1 h) ⟨k, v⟩ (lookup_eq_some_iff.1 hk)
  simpa using hall

/-- What is made of the entries, restricted to what belongs to one key. -/
theorem filter_filterMap_entries {R : Type*} (m : HashMap K V) (f : K → V → Option R) (p : R → Bool) (k : K)
    (h : ∀ k' v r, m.lookup k' = some v → f k' v = some r → (p r = true ↔ k' = k)) :
    (m.entries.filterMap fun e => f e.1 e.2).filter p = ((m.lookup k).bind (f k)).toList := by
  have hlookup (k' : K) (v : V) (hmem : (⟨k', v⟩ : Sigma fun _ : K => V) ∈ m.entries) : m.lookup k' = some v :=
    lookup_eq_some_iff.2 hmem
  replace h := fun k' v r hmem => h k' v r (hlookup k' v hmem)
  clear hlookup
  obtain ⟨entries, hnodup⟩ := m
  show _ = ((List.dlookup k entries).bind (f k)).toList
  dsimp only at h ⊢
  induction entries with
  | nil => rfl
  | cons e entries ih =>
    obtain ⟨hfresh, hnodup⟩ := List.nodupKeys_cons.1 hnodup
    have ih := ih hnodup fun k' v r hmem => h k' v r (List.mem_cons_of_mem _ hmem)
    obtain ⟨k', v⟩ := e
    rw [List.filterMap_cons]
    by_cases hk : k = k'
    · subst hk
      have hrest : List.dlookup k entries = none := List.dlookup_eq_none.2 hfresh
      have hfirst : List.dlookup k (⟨k, v⟩ :: entries) = some v := List.dlookup_cons_eq _ _ _
      rw [hrest] at ih
      rw [hfirst, Option.bind_some]
      cases hf : f k v with
      | none => exact ih
      | some r => exact (List.filter_cons_of_pos ((h k v r List.mem_cons_self hf).2 rfl)).trans (congrArg _ ih)
    · have hother : List.dlookup k (⟨k', v⟩ :: entries) = List.dlookup k entries :=
        List.dlookup_cons_ne _ _ hk
      rw [hother, ← ih]
      cases hf : f k' v with
      | none => rfl
      | some r =>
        exact List.filter_cons_of_neg fun hp => hk ((h k' v r List.mem_cons_self hf).1 hp).symm

end HashMap

end Lib
