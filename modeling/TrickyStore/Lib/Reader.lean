import Mathlib.Data.List.Basic
import Mathlib.Tactic.Common

/-!
# Readers that recognise what a writer wrote

A reader takes items off the front of its input and may fail.  It reads a value from a word if it
takes exactly the word off every input that starts with it, and fails on every proper prefix of the
word.  Both parts compose along a sequence of steps, so that a format without lengths or checksums is
read back, and its truncations are refused, as soon as the steps of the writer and of the reader agree
one by one.
-/

namespace Lib

/-- A program that takes items off the front of a list; `none` is a failure. -/
abbrev Reader (β α : Type) := StateT (List β) Option α

namespace Reader

variable {β α γ : Type}

/-- Takes the first `n` items. -/
def take (n : ℕ) : Reader β (List β) := fun input =>
  if n ≤ input.length then some (input.take n, input.drop n) else none

/-- A check or a conversion that takes nothing from the input. -/
def lift (o : Option α) : Reader β α := fun input => o.map fun a => (a, input)

/-- The reader `n` times. -/
def times (r : Reader β α) : ℕ → Reader β (List α)
  | 0 => pure []
  | n + 1 => do
    let a ← r
    let as ← times r n
    return a :: as

/-- The reader takes exactly the word, and never gets by with less. -/
structure Reads (r : Reader β α) (word : List β) (a : α) : Prop where
  front (rest : List β) : r (word ++ rest) = some (a, rest)
  short {input : List β} (h : input <+: word) (hne : input ≠ word) : r input = none

variable {r : Reader β α} {f : α → Reader β γ} {word word' : List β} {a : α} {b : γ}

/-- The reader reads the whole word. -/
theorem Reads.whole (h : Reads r word a) : r word = some (a, []) := by
  simpa using h.front []

theorem reads_pure (a : α) : Reads (pure a : Reader β α) [] a :=
  ⟨fun _ => rfl, fun h hne => absurd (List.prefix_nil.1 h) hne⟩

theorem reads_lift {o : Option α} (h : o = some a) : Reads (lift o : Reader β α) [] a := by
  subst h
  exact reads_pure a

/-- A proper prefix of two words ends within the first, or within the second. -/
theorem prefix_append_cases {input : List β} (h : input <+: word ++ word') (hne : input ≠ word ++ word') :
    (input <+: word ∧ input ≠ word) ∨ ∃ tail, input = word ++ tail ∧ tail <+: word' ∧ tail ≠ word' := by
  rcases List.prefix_or_prefix_of_prefix h (List.prefix_append word word') with hin | ⟨tail, rfl⟩
  · by_cases heq : input = word
    · subst heq
      refine .inr ⟨[], (List.append_nil _).symm, List.nil_prefix, fun hnil => hne ?_⟩
      rw [← hnil, List.append_nil]
    · exact .inl ⟨hin, heq⟩
  · exact .inr ⟨tail, rfl, (List.prefix_append_right_inj word).1 h, fun heq => hne (by rw [heq])⟩

theorem Reads.bind (h : Reads r word a) (h' : Reads (f a) word' b) :
    Reads (r >>= f) (word ++ word') b := by
  have hbind (input : List β) : (r >>= f) input = (r input).bind fun p => f p.1 p.2 := rfl
  constructor
  · intro rest
    rw [hbind, List.append_assoc, h.front]
    exact h'.front rest
  · intro input hp hne
    rw [hbind]
    rcases prefix_append_cases hp hne with ⟨hin, hne⟩ | ⟨tail, rfl, htail, hne⟩
    · rw [h.short hin hne]
      rfl
    · rw [h.front]
      exact h'.short htail hne

/-- The last step of a sequence writes nothing behind it. -/
theorem Reads.then (h : Reads r word a) (h' : Reads (f a) [] b) : Reads (r >>= f) word b := by
  simpa using h.bind h'

/-- A step that takes nothing from the input. -/
theorem reads_lift_bind {o : Option α} (h : o = some a) (h' : Reads (f a) word' b) :
    Reads (lift o >>= f) word' b :=
  (reads_lift h).bind h'

theorem Reads.map {g : α → γ} (h : Reads r word a) : Reads (g <$> r) word (g a) := by
  rw [map_eq_pure_bind]
  exact h.then (reads_pure (g a))

theorem reads_take {n : ℕ} (h : word.length = n) : Reads (take n) word word := by
  subst h
  constructor
  · intro rest
    simp [take]
  · intro input hp hne
    have hlt : input.length < word.length :=
      Nat.lt_of_le_of_ne hp.length_le fun heq => hne (hp.eq_of_length heq)
    exact if_neg (Nat.not_le_of_lt hlt)

end Reader

/-! ## Writers -/

/-- A program that appends items to what has been written; `none` is a failure. -/
abbrev Writer (β α : Type) := StateT (List β) Option α

namespace Writer

open Reader

variable {β α γ δ : Type}

def emit (word : List β) : Writer β Unit := fun written => some ((), written ++ word)

/-- A check that writes nothing. -/
def ensure (p : Prop) [Decidable p] : Writer β Unit := fun written =>
  if p then some ((), written) else none

/-- The writer for every item of the list. -/
def each (w : α → Writer β Unit) : List α → Writer β Unit
  | [] => pure ()
  | a :: as => do
    w a
    each w as

/-- The reader gets the value back from what the writer writes. -/
def Agree (w : Writer β Unit) (r : Reader β α) (a : α) : Prop :=
  ∃ word, (∀ written, w written = some ((), written ++ word)) ∧ Reads r word a

variable {w w' : Writer β Unit} {r : Reader β α} {f : α → Reader β γ} {a : α} {b : γ} {word : List β}

theorem agree_emit (h : Reads r word a) : Agree (emit word) r a := ⟨word, fun _ => rfl, h⟩

theorem agree_pure (a : α) : Agree (pure () : Writer β Unit) (pure a) a :=
  ⟨[], fun _ => by rw [List.append_nil]; rfl, reads_pure a⟩

theorem Agree.bind (h : Agree w r a) (h' : Agree w' (f a) b) :
    Agree (do w; w') (r >>= f) b := by
  obtain ⟨word, hw, hr⟩ := h
  obtain ⟨word', hw', hr'⟩ := h'
  refine ⟨word ++ word', fun written => ?_, hr.bind hr'⟩
  show (w written).bind (fun p => w' p.2) = _
  rw [hw, Option.bind_some, hw', List.append_assoc]

/-- The reader goes on when the writer has finished. -/
theorem Agree.then (h : Agree w r a) (h' : Reads (f a) [] b) : Agree w (r >>= f) b := by
  obtain ⟨word, hw, hr⟩ := h
  exact ⟨word, hw, hr.then h'⟩

theorem Agree.map {g : α → γ} (h : Agree w r a) : Agree w (g <$> r) (g a) := by
  obtain ⟨word, hw, hr⟩ := h
  exact ⟨word, hw, hr.map⟩

theorem Agree.ensure {p : Prop} [Decidable p] (hp : p) (h : Agree w r a) :
    Agree (do Writer.ensure p; w) r a := by
  obtain ⟨word, hw, hr⟩ := h
  refine ⟨word, fun written => ?_, hr⟩
  show (Writer.ensure p written).bind (fun q => w q.2) = _
  rw [Writer.ensure, if_pos hp, Option.bind_some, hw]

theorem agree_each {w : α → Writer β Unit} {as : List α} (h : ∀ a ∈ as, Agree (w a) r a) :
    Agree (each w as) (times r as.length) as := by
  induction as with
  | nil => exact agree_pure []
  | cons a as ih =>
    have hrest := ih fun a' ha' => h a' (List.mem_cons_of_mem _ ha')
    exact (h a List.mem_cons_self).bind (hrest.then (reads_pure _))

/-- What a successful writer wrote is read back to its end, and no proper prefix of it is read. -/
theorem Agree.spec (h : Agree w r a) :
    ∃ word, w [] = some ((), word) ∧ r word = some (a, []) ∧
      ∀ input, input <+: word → input ≠ word → r input = none := by
  obtain ⟨word, hw, hr⟩ := h
  exact ⟨word, hw [], hr.whole, fun _ hp hne => hr.short hp hne⟩

/-- A sequence fails with any of its steps. -/
theorem fails_left (h : ∀ written, w written = none) (written : List β) :
    (do w; w' : Writer β Unit) written = none := by
  show (w written).bind (fun p => w' p.2) = none
  rw [h, Option.bind_none]

theorem fails_right (h : ∀ written, w' written = none) (written : List β) :
    (do w; w' : Writer β Unit) written = none := by
  show (w written).bind (fun p => w' p.2) = none
  cases w written with
  | none => rfl
  | some p => exact h p.2

end Writer

end Lib
