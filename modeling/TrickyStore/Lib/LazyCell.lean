import Mathlib.Logic.Function.Basic
import TrickyStore.Lib.Machine

/-!
# A cell that is filled under a lock

Threads that need a value read the cell, take the lock when they do not see one there, read the cell again and
fill it if it is still empty.  The value may fail to come, and the next thread then tries again.  A thread that
reads without the lock may miss a value that is there.
-/

namespace Lib

/-- Where a thread stands: before or at the lock, and in what it does while it holds it. -/
inductive LazyCell.Position (α : Type*) where
  | outside
  | waiting
  | checking
  | filling
  | storing (value : α)
  | leaving (result : Option α)
deriving DecidableEq

/-- The cell and its threads.  `fills` counts the values that were asked for, `failures` those that did not
come, and `returned` holds what the threads have left with. -/
structure LazyCell (Thread α : Type*) where
  cell : Option α := none
  owner : Option Thread := none
  position : Thread → LazyCell.Position α := fun _ => .outside
  fills : ℕ := 0
  failures : ℕ := 0
  returned : List α := []

namespace LazyCell

variable {Thread α : Type*}

/-- The step of one thread. -/
inductive Event (Thread α : Type*) where
  /-- It reads the cell without the lock, and goes for the lock unless it sees a value. -/
  | enter (thread : Thread) (sees : Bool)
  | acquire (thread : Thread)
  | check (thread : Thread)
  /-- The value comes, or it does not. -/
  | fill (thread : Thread) (value : Option α)
  | store (thread : Thread)
  | leave (thread : Thread)

/-- The thread holds the lock. -/
def Position.Inside : Position α → Prop
  | .outside | .waiting => False
  | _ => True

/-- The value has been asked for and is not stored. -/
def Position.Busy : Position α → Prop
  | .filling | .storing _ => True
  | _ => False

variable [DecidableEq Thread] (s : LazyCell Thread α)

/-- The thread goes to the position. -/
def goTo (thread : Thread) (position : Position α) : LazyCell Thread α :=
  { s with position := Function.update s.position thread position }

def enter (thread : Thread) (sees : Bool) : LazyCell Thread α :=
  match s.position thread, s.cell with
  | .outside, some a => if sees then { s with returned := a :: s.returned } else s.goTo thread .waiting
  | .outside, none => s.goTo thread .waiting
  | _, _ => s

def acquire (thread : Thread) : LazyCell Thread α :=
  match s.position thread, s.owner with
  | .waiting, none => { s with owner := some thread }.goTo thread .checking
  | _, _ => s

def check (thread : Thread) : LazyCell Thread α :=
  match s.position thread, s.cell with
  | .checking, some a => s.goTo thread (.leaving (some a))
  | .checking, none => { s with fills := s.fills + 1 }.goTo thread .filling
  | _, _ => s

def fill (thread : Thread) (value : Option α) : LazyCell Thread α :=
  match s.position thread, value with
  | .filling, some a => s.goTo thread (.storing a)
  | .filling, none => { s with failures := s.failures + 1 }.goTo thread (.leaving none)
  | _, _ => s

def store (thread : Thread) : LazyCell Thread α :=
  match s.position thread with
  | .storing a => { s with cell := some a }.goTo thread (.leaving (some a))
  | _ => s

def leave (thread : Thread) : LazyCell Thread α :=
  match s.position thread with
  | .leaving result =>
    { s with owner := none, returned := result.toList ++ s.returned }.goTo thread .outside
  | _ => s

def next : Event Thread α → LazyCell Thread α
  | .enter thread sees => s.enter thread sees
  | .acquire thread => s.acquire thread
  | .check thread => s.check thread
  | .fill thread value => s.fill thread value
  | .store thread => s.store thread
  | .leave thread => s.leave thread

/-! ## The steps -/

section

variable {s} {t : Thread} {a : α}

theorem next_enter_sees (hpos : s.position t = .outside) (hcell : s.cell = some a) :
    s.next (.enter t true) = { s with returned := a :: s.returned } := by
  simp [next, enter, hpos, hcell]

theorem next_enter_misses (hpos : s.position t = .outside) : s.next (.enter t false) = s.goTo t .waiting := by
  cases hcell : s.cell <;> simp [next, enter, hpos, hcell]

theorem next_acquire (hpos : s.position t = .waiting) (howner : s.owner = none) :
    s.next (.acquire t) = { s with owner := some t }.goTo t .checking := by
  simp [next, acquire, hpos, howner]

theorem next_check_filled (hpos : s.position t = .checking) (hcell : s.cell = some a) :
    s.next (.check t) = s.goTo t (.leaving (some a)) := by
  simp [next, check, hpos, hcell]

theorem next_check_empty (hpos : s.position t = .checking) (hcell : s.cell = none) :
    s.next (.check t) = { s with fills := s.fills + 1 }.goTo t .filling := by
  simp [next, check, hpos, hcell]

theorem next_fill_some (hpos : s.position t = .filling) :
    s.next (.fill t (some a)) = s.goTo t (.storing a) := by
  simp [next, fill, hpos]

theorem next_fill_none (hpos : s.position t = .filling) :
    s.next (.fill t none) = { s with failures := s.failures + 1 }.goTo t (.leaving none) := by
  simp [next, fill, hpos]

theorem next_store (hpos : s.position t = .storing a) :
    s.next (.store t) = { s with cell := some a }.goTo t (.leaving (some a)) := by
  simp [next, store, hpos]

theorem next_leave {result : Option α} (hpos : s.position t = .leaving result) :
    s.next (.leave t) = { s with owner := none, returned := result.toList ++ s.returned }.goTo t .outside := by
  simp [next, leave, hpos]

end

/-! ## One value -/

/-- What holds whatever the threads do. -/
structure Sound (s : LazyCell Thread α) : Prop where
  /-- One thread is inside, and holds the lock. -/
  inside : ∀ thread, (s.position thread).Inside ↔ s.owner = some thread
  empty : ∀ thread, (s.position thread).Busy → s.cell = none
  leaving : ∀ thread a, s.position thread = .leaving (some a) → s.cell = some a
  returned : ∀ a ∈ s.returned, s.cell = some a
  /-- No value was asked for in vain but those that failed. -/
  fills : (∃ thread, (s.position thread).Busy) ∧ s.fills = s.failures + 1 ∨
    (∀ thread, ¬ (s.position thread).Busy) ∧ s.fills = s.failures + s.cell.toList.length

/-- All that the threads have left with is what the cell holds, no two threads ask for a value at a time, and
none does once one has come. -/
structure OneValue (s : LazyCell Thread α) : Prop where
  alone : ∀ t t', (s.position t).Busy → (s.position t').Busy → t = t'
  agree : ∀ a ∈ s.returned, s.cell = some a
  fills : s.fills ≤ s.failures + 1
  filled : ∀ a, s.cell = some a → s.fills = s.failures + 1 ∧ ∀ t, ¬ (s.position t).Busy

variable {s} {t t' : Thread} {p : Position α}

@[simp] theorem goTo_position_self (s : LazyCell Thread α) : (s.goTo t p).position t = p := Function.update_self ..

@[simp] theorem goTo_owner (s : LazyCell Thread α) : (s.goTo t p).owner = s.owner := rfl

@[simp] theorem goTo_cell (s : LazyCell Thread α) : (s.goTo t p).cell = s.cell := rfl

@[simp] theorem goTo_counts (s : LazyCell Thread α) :
    (s.goTo t p).fills = s.fills ∧ (s.goTo t p).failures = s.failures := ⟨rfl, rfl⟩

theorem goTo_position_of_ne (s : LazyCell Thread α) (h : t' ≠ t) : (s.goTo t p).position t' = s.position t' :=
  Function.update_of_ne h ..

section

omit [DecidableEq Thread]

theorem sound_initial : Sound ({} : LazyCell Thread α) where
  inside _ := ⟨False.elim, fun h => by cases h⟩
  empty _ h := h.elim
  leaving _ _ h := by cases h
  returned _ h := by cases h
  fills := .inr ⟨fun _ => id, rfl⟩

theorem Position.Busy.inside (h : p.Busy) : p.Inside := by
  cases p with
  | filling | storing => trivial
  | _ => exact h.elim

/-- Who holds the lock is alone with it. -/
theorem Sound.not_inside (h : s.Sound) (ht : (s.position t).Inside) (hne : t' ≠ t) :
    ¬ (s.position t').Inside := by
  intro ht'
  exact hne (Option.some.inj (((h.inside t').1 ht').symm.trans ((h.inside t).1 ht)))

theorem Sound.oneValue (h : s.Sound) : s.OneValue where
  alone t t' ht ht' := by
    by_contra hne
    exact h.not_inside ht.inside (Ne.symm hne) ht'.inside
  agree := h.returned
  fills := by
    rcases h.fills with ⟨-, hfills⟩ | ⟨-, hfills⟩
    · omega
    · have hlength : s.cell.toList.length ≤ 1 := by cases s.cell <;> simp
      omega
  filled a ha := by
    have hidle (t : Thread) (hbusy : (s.position t).Busy) : False := by
      rw [h.empty t hbusy] at ha
      cases ha
    rcases h.fills with ⟨⟨t, hbusy⟩, -⟩ | ⟨-, hfills⟩
    · exact (hidle t hbusy).elim
    · rw [ha] at hfills
      exact ⟨hfills, hidle⟩

/-- The step of one thread that is inside, or touches no cell. -/
theorem Sound.moves {s' : LazyCell Thread α} (h : s.Sound) (t : Thread)
    (hothers : ∀ t', t' ≠ t → s'.position t' = s.position t')
    (howner : ∀ t', t' ≠ t → (s'.owner = some t' ↔ s.owner = some t'))
    (hcell : s'.cell = s.cell ∨ (s.position t).Inside)
    (hinside : (s'.position t).Inside ↔ s'.owner = some t)
    (hempty : (s'.position t).Busy → s'.cell = none)
    (hleaving : ∀ a, s'.position t = .leaving (some a) → s'.cell = some a)
    (hreturned : ∀ a ∈ s'.returned, s'.cell = some a)
    (hfills : (s'.position t).Busy ∧ s'.fills = s'.failures + 1 ∨
      ¬ (s'.position t).Busy ∧ ((s.position t).Inside ∧ s'.fills = s'.failures + s'.cell.toList.length ∨
        ¬ (s.position t).Busy ∧ s'.fills = s.fills ∧ s'.failures = s.failures ∧ s'.cell = s.cell)) : s'.Sound where
  inside t' := by
    by_cases ht : t' = t
    · rw [ht]
      exact hinside
    · rw [hothers t' ht, howner t' ht]
      exact h.inside t'
  empty t' hbusy := by
    by_cases ht : t' = t
    · rw [ht] at hbusy
      exact hempty hbusy
    · rw [hothers t' ht] at hbusy
      rcases hcell with hcell | hin
      · exact hcell.trans (h.empty t' hbusy)
      · exact absurd hbusy.inside (h.not_inside hin ht)
  leaving t' a hpos := by
    by_cases ht : t' = t
    · rw [ht] at hpos
      exact hleaving a hpos
    · rw [hothers t' ht] at hpos
      rcases hcell with hcell | hin
      · exact hcell.trans (h.leaving t' a hpos)
      · refine absurd ?_ (h.not_inside hin ht)
        rw [hpos]
        trivial
  returned := hreturned
  fills := by
    rcases hfills with ⟨hbusy, hcount⟩ | ⟨hidle, ⟨hin, hcount⟩ | ⟨hwas, hcount, hfailures, hsame⟩⟩
    · exact .inl ⟨⟨t, hbusy⟩, hcount⟩
    · refine .inr ⟨fun t' hbusy => ?_, hcount⟩
      by_cases ht : t' = t
      · exact hidle (ht ▸ hbusy)
      · rw [hothers t' ht] at hbusy
        exact h.not_inside hin ht hbusy.inside
    · rw [hcount, hfailures, hsame]
      refine h.fills.imp (And.imp_left ?_) (And.imp_left ?_)
      · rintro ⟨t', hbusy⟩
        have ht : t' ≠ t := fun ht => hwas (ht ▸ hbusy)
        exact ⟨t', (hothers t' ht).symm ▸ hbusy⟩
      · intro hnone t' hbusy
        by_cases ht : t' = t
        · exact hidle (ht ▸ hbusy)
        · rw [hothers t' ht] at hbusy
          exact hnone t' hbusy

end

theorem Sound.enter (h : s.Sound) (sees : Bool) : (s.enter t sees).Sound := by
  have hwaits (hpos : s.position t = .outside) : (s.goTo t .waiting).Sound := by
    refine h.moves t (fun t' => goTo_position_of_ne s) (fun _ _ => Iff.rfl) (.inl rfl) ?_ ?_ ?_ h.returned ?_
    · have hout : s.owner ≠ some t := fun howner => by simpa [hpos, Position.Inside] using (h.inside t).2 howner
      simpa [Position.Inside] using hout
    · simp [Position.Busy]
    · simp
    · exact .inr ⟨by simp [Position.Busy], .inr ⟨by simp [hpos, Position.Busy], rfl, rfl, rfl⟩⟩
  unfold LazyCell.enter
  split
  · next a hpos hcell =>
    split
    · refine ⟨h.inside, h.empty, h.leaving, ?_, h.fills⟩
      rintro b (_ | ⟨_, hb⟩)
      · exact hcell
      · exact h.returned b hb
    · exact hwaits hpos
  · next hpos _ => exact hwaits hpos
  · exact h

theorem Sound.acquire (h : s.Sound) : (s.acquire t).Sound := by
  unfold LazyCell.acquire
  split
  · next hpos hfree =>
    refine h.moves t (fun t' => goTo_position_of_ne _) (fun t' ht => ?_) (.inl rfl) ?_ ?_ ?_ h.returned ?_
    · simp [goTo, hfree, Ne.symm ht]
    · simp [goTo, Position.Inside]
    · simp [Position.Busy]
    · simp
    · exact .inr ⟨by simp [Position.Busy], .inr ⟨by simp [hpos, Position.Busy], rfl, rfl, rfl⟩⟩
  · exact h

theorem Sound.check (h : s.Sound) : (s.check t).Sound := by
  unfold LazyCell.check
  split
  · next a hpos hcell =>
    have hin : (s.position t).Inside := by
      rw [hpos]
      trivial
    refine h.moves t (fun t' => goTo_position_of_ne s) (fun _ _ => Iff.rfl) (.inl rfl) ?_ ?_ ?_ h.returned ?_
    · simpa [Position.Inside] using (h.inside t).1 hin
    · simp [Position.Busy]
    · simpa using hcell
    · exact .inr ⟨by simp [Position.Busy], .inr ⟨by simp [hpos, Position.Busy], rfl, rfl, rfl⟩⟩
  · next hpos hcell =>
    have hin : (s.position t).Inside := by
      rw [hpos]
      trivial
    refine h.moves t (fun t' => goTo_position_of_ne _) (fun _ _ => Iff.rfl) (.inl rfl) ?_ ?_ ?_ h.returned ?_
    · simpa [Position.Inside] using (h.inside t).1 hin
    · exact fun _ => hcell
    · simp
    · refine .inl ⟨by simp [Position.Busy], ?_⟩
      rcases h.fills with ⟨⟨t', hbusy⟩, -⟩ | ⟨-, hcount⟩
      · by_cases ht : t' = t
        · rw [ht, hpos] at hbusy
          exact hbusy.elim
        · exact absurd hbusy.inside (h.not_inside hin ht)
      · rw [hcell] at hcount
        exact congrArg (· + 1) hcount
  · exact h

omit [DecidableEq Thread] in
/-- The value that a thread inside is busy with has been counted. -/
theorem Sound.fills_of_busy (h : s.Sound) (hbusy : (s.position t).Busy) : s.fills = s.failures + 1 := by
  rcases h.fills with ⟨-, hcount⟩ | ⟨hnone, -⟩
  · exact hcount
  · exact absurd hbusy (hnone t)

theorem Sound.fill (h : s.Sound) (value : Option α) : (s.fill t value).Sound := by
  unfold LazyCell.fill
  split
  · next a hpos =>
    have hbusy : (s.position t).Busy := by
      rw [hpos]
      trivial
    refine h.moves t (fun t' => goTo_position_of_ne s) (fun _ _ => Iff.rfl) (.inl rfl) ?_ ?_ ?_ h.returned ?_
    · simpa [Position.Inside] using (h.inside t).1 hbusy.inside
    · exact fun _ => h.empty t hbusy
    · simp
    · exact .inl ⟨by simp [Position.Busy], h.fills_of_busy hbusy⟩
  · next hpos =>
    have hbusy : (s.position t).Busy := by
      rw [hpos]
      trivial
    refine h.moves t (fun t' => goTo_position_of_ne _) (fun _ _ => Iff.rfl) (.inl rfl) ?_ ?_ ?_ h.returned ?_
    · simpa [Position.Inside] using (h.inside t).1 hbusy.inside
    · simp [Position.Busy]
    · simp
    · refine .inr ⟨by simp [Position.Busy], .inl ⟨hbusy.inside, ?_⟩⟩
      simpa [h.empty t hbusy] using h.fills_of_busy hbusy
  · exact h

theorem Sound.store (h : s.Sound) : (s.store t).Sound := by
  unfold LazyCell.store
  split
  · next a hpos =>
    have hbusy : (s.position t).Busy := by
      rw [hpos]
      trivial
    refine h.moves t (fun t' => goTo_position_of_ne _) (fun _ _ => Iff.rfl) (.inr hbusy.inside) ?_ ?_ ?_ ?_ ?_
    · simpa [Position.Inside] using (h.inside t).1 hbusy.inside
    · simp [Position.Busy]
    · rintro b hb
      simpa [goTo] using hb
    · intro b hb
      have hnone := h.empty t hbusy
      rw [h.returned b hb] at hnone
      cases hnone
    · refine .inr ⟨by simp [Position.Busy], .inl ⟨hbusy.inside, ?_⟩⟩
      exact h.fills_of_busy hbusy
  · exact h

theorem Sound.leave (h : s.Sound) : (s.leave t).Sound := by
  unfold LazyCell.leave
  split
  · next result hpos =>
    have hin : (s.position t).Inside := by
      rw [hpos]
      trivial
    refine h.moves t (fun t' => goTo_position_of_ne _) (fun t' ht => ?_) (.inl rfl) ?_ ?_ ?_ ?_ ?_
    · have howner := (h.inside t).1 hin
      simp [goTo, howner, Ne.symm ht]
    · simp [goTo, Position.Inside]
    · simp [Position.Busy]
    · simp
    · intro a ha
      rcases List.mem_append.1 ha with ha | ha
      · obtain rfl := Option.mem_toList.1 ha
        exact h.leaving t a hpos
      · exact h.returned a ha
    · exact .inr ⟨by simp [Position.Busy], .inr ⟨by simp [hpos, Position.Busy], rfl, rfl, rfl⟩⟩
  · exact h

theorem Sound.next (h : s.Sound) (e : Event Thread α) : (s.next e).Sound := by
  cases e with
  | enter t sees => exact h.enter sees
  | acquire t => exact h.acquire
  | check t => exact h.check
  | fill t value => exact h.fill value
  | store t => exact h.store
  | leave t => exact h.leave

end LazyCell

end Lib
