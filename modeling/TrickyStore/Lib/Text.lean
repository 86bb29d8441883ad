import Mathlib.Data.List.DropRight
import Mathlib.Tactic.Common

/-!
# Lines and the space around them

A text is a list of characters.  `readLines` cuts it behind every line feed, every carriage return and
every pair of the two; `trim` takes the space off both ends of a line.  A word is what trimming does not
change: trimming a padded word gives the word back.
-/

namespace Lib

/-! ## Trimming -/

section Trim

variable {α : Type*} (p : α → Bool)

/-- The list without what satisfies `p` at its two ends. -/
def trim (l : List α) : List α := (l.dropWhile p).rdropWhile p

/-- A list that neither starts nor ends with what satisfies `p`. -/
def Trimmed (l : List α) : Prop := (∀ a ∈ l.head?, p a = false) ∧ ∀ a ∈ l.getLast?, p a = false

variable {p} {l u v : List α} {a : α}

theorem dropWhile_pad (hu : ∀ a ∈ u, p a = true) : (u ++ l).dropWhile p = l.dropWhile p := by
  rw [List.dropWhile_append, List.dropWhile_eq_nil_iff.2 hu]
  rfl

theorem rdropWhile_pad (hv : ∀ a ∈ v, p a = true) : (l ++ v).rdropWhile p = l.rdropWhile p := by
  have hrev : ∀ a ∈ v.reverse, p a = true := fun a ha => hv a (List.mem_reverse.1 ha)
  rw [List.rdropWhile, List.reverse_append, dropWhile_pad hrev]
  rfl

theorem Trimmed.dropWhile (h : Trimmed p l) : l.dropWhile p = l := by
  cases l with
  | nil => rfl
  | cons a l =>
    apply List.dropWhile_cons_of_neg
    rw [h.1 a rfl]
    exact Bool.false_ne_true

theorem Trimmed.rdropWhile (h : Trimmed p l) : l.rdropWhile p = l := by
  rw [List.rdropWhile_eq_self_iff]
  intro hl
  rw [h.2 _ (List.getLast?_eq_some_getLast hl)]
  exact Bool.false_ne_true

theorem Trimmed.trim (h : Trimmed p l) : trim p l = l := by
  rw [Lib.trim, h.dropWhile, h.rdropWhile]

theorem trim_of_all (h : ∀ a ∈ l, p a = true) : trim p l = [] := by
  rw [trim, List.dropWhile_eq_nil_iff.2 h]
  rfl

/-- Trimming takes the padding off a word. -/
theorem Trimmed.trim_pad (h : Trimmed p l) (hu : ∀ a ∈ u, p a = true) (hv : ∀ a ∈ v, p a = true) :
    Lib.trim p (u ++ l ++ v) = l := by
  rw [Lib.trim, List.append_assoc, dropWhile_pad hu]
  by_cases hl : l = []
  · subst hl
    rw [List.nil_append, List.dropWhile_eq_nil_iff.2 hv]
    rfl
  · obtain ⟨a, l', rfl⟩ := List.exists_cons_of_ne_nil hl
    have hdrop : (a :: l' ++ v).dropWhile p = a :: l' ++ v := by
      apply List.dropWhile_cons_of_neg
      rw [h.1 a rfl]
      exact Bool.false_ne_true
    rw [hdrop, rdropWhile_pad hv, h.rdropWhile]

theorem Trimmed.trim_left (h : Trimmed p l) (hu : ∀ a ∈ u, p a = true) : Lib.trim p (u ++ l) = l := by
  have hpad : Lib.trim p (u ++ l ++ []) = l := h.trim_pad hu fun _ ha => nomatch ha
  rwa [List.append_nil] at hpad

theorem Trimmed.trim_right (h : Trimmed p l) (hv : ∀ a ∈ v, p a = true) : Lib.trim p (l ++ v) = l :=
  h.trim_pad (u := []) (fun _ ha => nomatch ha) hv

theorem mem_dropWhile (h : a ∈ l) (ha : p a = false) : a ∈ l.dropWhile p := by
  rw [← List.takeWhile_append_dropWhile (p := p) (l := l), List.mem_append] at h
  rcases h with h | h
  · rw [List.mem_takeWhile_imp h] at ha
    exact absurd ha (by decide)
  · exact h

/-- Trimming keeps every element that is not space. -/
theorem mem_trim (h : a ∈ l) (ha : p a = false) : a ∈ trim p l := by
  rw [trim, List.rdropWhile, List.mem_reverse]
  exact mem_dropWhile (List.mem_reverse.2 (mem_dropWhile h ha)) ha

/-- The first element that is not space comes to the front. -/
theorem head?_trim (hu : ∀ a ∈ u, p a = true) (ha : p a = false) :
    (trim p (u ++ a :: l)).head? = some a := by
  have hmem : a ∈ trim p (a :: l) := mem_trim List.mem_cons_self ha
  have hdrop : (a :: l).dropWhile p = a :: l := List.dropWhile_cons_of_neg (by simp [ha])
  unfold trim at hmem ⊢
  rw [dropWhile_pad hu]
  rw [hdrop] at hmem ⊢
  obtain ⟨v, hv⟩ := List.rdropWhile_prefix p (l := a :: l)
  obtain ⟨b, w, hb⟩ := List.exists_cons_of_ne_nil (List.ne_nil_of_mem hmem)
  rw [hb, List.cons_append, List.cons.injEq] at hv
  rw [hb, hv.1]
  rfl

end Trim

/-! ## Lines -/

def isTerminator (c : Char) : Bool := c = '\n' || c = '\r'

/-- The lines behind the part of a line that was read last, in the order in which it is put together. -/
def readLinesFrom : List Char → List Char → List (List Char)
  | line, [] => if line = [] then [] else [line.reverse]
  | line, '\r' :: '\n' :: rest => line.reverse :: readLinesFrom [] rest
  | line, c :: rest =>
    if isTerminator c then line.reverse :: readLinesFrom [] rest else readLinesFrom (c :: line) rest

/-- The lines of a text; the last one need not be terminated. -/
def readLines (text : List Char) : List (List Char) := readLinesFrom [] text

variable {line rest : List Char} {lines : List (List Char)}

theorem readLinesFrom_line {start : List Char} (h : ∀ c ∈ line, isTerminator c = false) :
    readLinesFrom start (line ++ '\n' :: rest) = (start.reverse ++ line) :: readLines rest := by
  induction line generalizing start with
  | nil => simp [readLinesFrom, isTerminator, readLines]
  | cons c line ih =>
    have hc : isTerminator c = false := h c List.mem_cons_self
    have hcr : c ≠ '\r' := by
      rintro rfl
      exact absurd hc (by decide)
    rw [List.cons_append, readLinesFrom.eq_3 _ _ _ (by simp [hcr]), if_neg (by simp [hc]),
      ih fun d hd => h d (List.mem_cons_of_mem c hd)]
    simp

/-- A text that is written line by line is read back. -/
theorem readLines_unlines (h : ∀ line ∈ lines, ∀ c ∈ line, isTerminator c = false) :
    readLines (lines.flatMap fun line => line ++ ['\n']) = lines := by
  induction lines with
  | nil => rfl
  | cons line lines ih =>
    rw [List.flatMap_cons, List.append_assoc, List.singleton_append, readLines,
      readLinesFrom_line (h line List.mem_cons_self), ih fun l hl => h l (List.mem_cons_of_mem line hl)]
    rfl

end Lib
