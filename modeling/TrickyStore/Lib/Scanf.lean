import Mathlib.Data.List.DropRight
import TrickyStore.Lib.Hex

/-!
# Formatted input

The conversions of `sscanf` on a list of characters: each gives what it reads and what is left, or fails.  A
number is read as `strtoumax` reads it and cut to the width of its type.
-/

namespace Lib

namespace Scanf

/-- `isspace` in the C locale. -/
def isSpace (c : Char) : Bool :=
  c = ' ' || c = '\t' || c = '\n' || c = '\x0b' || c = '\x0c' || c = '\r'

/-- A blank of the format: any amount of space. -/
def skipSpace (cs : List Char) : List Char := cs.dropWhile isSpace

/-- A character of the format. -/
def literal (c : Char) : List Char → Option (List Char)
  | [] => none
  | d :: cs => if d = c then some cs else none

/-- `%ns`: at most `n` characters that are no space. -/
def scanString (n : ℕ) (cs : List Char) : Option (List Char × List Char) :=
  let word := ((skipSpace cs).take n).takeWhile fun c => !isSpace c
  if word = [] then none else some (word, (skipSpace cs).drop word.length)

def isDigit (base : ℕ) (c : Char) : Bool := (hexValue c).any (· < base)

/-- The number that the digits write. -/
def number (base : ℕ) (digits : List Char) : ℕ :=
  digits.foldl (fun n c => base * n + (hexValue c).getD 0) 0

/-- The number with its sign, as `uintmax_t` holds it: the greatest one where it does not fit. -/
def toUintmax (negative : Bool) (n : ℕ) : ℕ :=
  if 2 ^ 64 ≤ n then 2 ^ 64 - 1 else if negative then (2 ^ 64 - n) % 2 ^ 64 else n

def sign : List Char → Bool × List Char
  | '-' :: cs => (true, cs)
  | '+' :: cs => (false, cs)
  | cs => (false, cs)

/-- The text behind a `0x` that a hexadecimal digit follows. -/
def skipPrefix (base : ℕ) (cs : List Char) : List Char :=
  match cs with
  | '0' :: x :: d :: rest => if base = 16 ∧ (x = 'x' ∨ x = 'X') ∧ isDigit 16 d then d :: rest else cs
  | _ => cs

/-- `%x` and `%u` into a type of `w` bits. -/
def scanNumber (base w : ℕ) (cs : List Char) : Option (ℕ × List Char) :=
  let (negative, cs) := sign (skipSpace cs)
  let digits := (skipPrefix base cs).takeWhile (isDigit base)
  if digits = [] then none
  else some (toUintmax negative (number base digits) % 2 ^ w, (skipPrefix base cs).dropWhile (isDigit base))

/-! ## Reading what is written -/

/-- The text does not go on with a digit or with what makes a prefix. -/
def Ends (cs : List Char) : Prop := ∀ c ∈ cs.head?, hexValue c = none ∧ c ≠ 'x' ∧ c ≠ 'X'

/-- The digits write the number. -/
structure Writes (base : ℕ) (digits : List Char) (n : ℕ) : Prop where
  ne_nil : digits ≠ []
  isDigit : ∀ c ∈ digits, isDigit base c = true
  number : number base digits = n

instance (base : ℕ) (digits : List Char) (n : ℕ) : Decidable (Writes base digits n) :=
  decidable_of_iff (digits ≠ [] ∧ digits.all (isDigit base) = true ∧ Scanf.number base digits = n)
    ⟨fun h => ⟨h.1, List.all_eq_true.1 h.2.1, h.2.2⟩, fun h => ⟨h.ne_nil, List.all_eq_true.2 h.isDigit, h.number⟩⟩

variable {base w n : ℕ} {blank digits word rest : List Char} {c : Char}

theorem hexValue_ne_none_of_isDigit (h : isDigit base c = true) : hexValue c ≠ none := by
  intro hnone
  rw [isDigit, hnone] at h
  cases h

theorem Writes.notMem (h : Writes base digits n) (hc : hexValue c = none) : c ∉ digits :=
  fun hmem => hexValue_ne_none_of_isDigit (h.isDigit c hmem) hc

theorem isSpace_hexValue (h : isSpace c = true) : hexValue c = none ∧ c ≠ 'x' ∧ c ≠ 'X' := by
  unfold isSpace at h
  simp only [Bool.or_eq_true, decide_eq_true_eq] at h
  rcases h with ((((rfl | rfl) | rfl) | rfl) | rfl) | rfl <;> decide

theorem not_isSpace_of_isDigit (h : isDigit base c = true) : isSpace c = false := by
  by_contra hspace
  exact hexValue_ne_none_of_isDigit h (isSpace_hexValue (by simpa using hspace)).1

@[simp] theorem literal_cons (c : Char) (cs : List Char) : literal c (c :: cs) = some cs := if_pos rfl

theorem skipSpace_blank (hblank : ∀ c ∈ blank, isSpace c = true) (hrest : ∀ c ∈ rest.head?, isSpace c = false) :
    skipSpace (blank ++ rest) = rest := by
  unfold skipSpace
  rw [List.dropWhile_append, List.dropWhile_eq_nil_iff.2 hblank, List.isEmpty_nil, if_pos rfl]
  cases rest with
  | nil => rfl
  | cons c rest => exact List.dropWhile_cons_of_neg (by simpa using hrest c rfl)

theorem scanString_word (hblank : ∀ c ∈ blank, isSpace c = true) (hword : ∀ c ∈ word, isSpace c = false)
    (hne : word ≠ []) (hlength : word.length = n) :
    scanString n (blank ++ (word ++ rest)) = some (word, rest) := by
  have hskip : skipSpace (blank ++ (word ++ rest)) = word ++ rest := by
    refine skipSpace_blank hblank fun c hc => ?_
    obtain ⟨d, word', rfl⟩ := List.exists_cons_of_ne_nil hne
    exact hword c (by simp_all)
  have htake : (word ++ rest).take n = word := by rw [← hlength, List.take_left]
  have hall : word.takeWhile (fun c => !isSpace c) = word :=
    List.takeWhile_eq_self_iff.2 fun c hc => by simp [hword c hc]
  simp only [scanString, hskip, htake, hall, if_neg hne, List.drop_left]

theorem takeWhile_digits (hdigits : ∀ c ∈ digits, isDigit base c = true) (hends : Ends rest) :
    (digits ++ rest).takeWhile (isDigit base) = digits ∧ (digits ++ rest).dropWhile (isDigit base) = rest := by
  have hstop : rest.takeWhile (isDigit base) = [] ∧ rest.dropWhile (isDigit base) = rest := by
    cases rest with
    | nil => exact ⟨rfl, rfl⟩
    | cons c rest =>
      have hc : ¬ isDigit base c = true := fun h => hexValue_ne_none_of_isDigit h (hends c rfl).1
      exact ⟨List.takeWhile_cons_of_neg hc, List.dropWhile_cons_of_neg hc⟩
  refine ⟨?_, ?_⟩
  · rw [List.takeWhile_append_of_pos hdigits, hstop.1, List.append_nil]
  · rw [List.dropWhile_append_of_pos hdigits, hstop.2]

theorem sign_digits (hne : digits ≠ []) (hdigits : ∀ c ∈ digits, isDigit base c = true) :
    sign (digits ++ rest) = (false, digits ++ rest) := by
  obtain ⟨c, digits, rfl⟩ := List.exists_cons_of_ne_nil hne
  have hc := hexValue_ne_none_of_isDigit (hdigits c List.mem_cons_self)
  unfold sign
  split
  · next heq =>
    obtain ⟨rfl, -⟩ := List.cons.inj heq
    exact absurd (by decide) hc
  · next heq =>
    obtain ⟨rfl, -⟩ := List.cons.inj heq
    exact absurd (by decide) hc
  · rfl

theorem skipPrefix_digits (hne : digits ≠ []) (hdigits : ∀ c ∈ digits, isDigit base c = true) (hends : Ends rest) :
    skipPrefix base (digits ++ rest) = digits ++ rest := by
  unfold skipPrefix
  split
  · next x d rest' heq =>
    refine if_neg ?_
    rintro ⟨-, hx, -⟩
    have hnone : hexValue x = none := by rcases hx with rfl | rfl <;> decide
    obtain ⟨c, digits, rfl⟩ := List.exists_cons_of_ne_nil hne
    cases digits with
    | nil =>
      obtain ⟨-, rfl⟩ := List.cons.inj heq
      obtain ⟨-, hlower, hupper⟩ := hends x rfl
      exact hx.elim hlower hupper
    | cons c' digits =>
      obtain ⟨-, heq⟩ := List.cons.inj heq
      obtain ⟨rfl, -⟩ := List.cons.inj heq
      exact hexValue_ne_none_of_isDigit (hdigits c' (by simp)) hnone
  · rfl

/-- A number behind space that fits its type is read back. -/
theorem scanNumber_written (hblank : ∀ c ∈ blank, isSpace c = true) (h : Writes base digits n) (hends : Ends rest)
    (hw : w ≤ 64) (hn : n < 2 ^ w) : scanNumber base w (blank ++ (digits ++ rest)) = some (n, rest) := by
  have hskip : skipSpace (blank ++ (digits ++ rest)) = digits ++ rest := by
    refine skipSpace_blank hblank fun c hc => ?_
    obtain ⟨d, digits', hdigits⟩ := List.exists_cons_of_ne_nil h.ne_nil
    rw [hdigits, List.cons_append, List.head?_cons, Option.mem_some_iff] at hc
    exact not_isSpace_of_isDigit (h.isDigit c (by rw [hdigits, ← hc]; exact List.mem_cons_self))
  have hfits : ¬ 2 ^ 64 ≤ n := by
    have hle : 2 ^ w ≤ 2 ^ 64 := Nat.pow_le_pow_right (by omega) hw
    omega
  obtain ⟨htake, hdrop⟩ := takeWhile_digits h.isDigit hends
  simp only [scanNumber, hskip, sign_digits h.ne_nil h.isDigit, skipPrefix_digits h.ne_nil h.isDigit hends, htake,
    hdrop, if_neg h.ne_nil, h.number, toUintmax, if_neg hfits, Bool.false_eq_true, if_false, Nat.mod_eq_of_lt hn]

theorem scanNumber_digits (h : Writes base digits n) (hends : Ends rest) (hw : w ≤ 64) (hn : n < 2 ^ w) :
    scanNumber base w (digits ++ rest) = some (n, rest) :=
  scanNumber_written (List.forall_mem_nil fun c => isSpace c = true) h hends hw hn

theorem scanNumber_space (h : Writes base digits n) (hends : Ends rest) (hw : w ≤ 64) (hn : n < 2 ^ w) :
    scanNumber base w (' ' :: (digits ++ rest)) = some (n, rest) :=
  scanNumber_written (List.forall_mem_singleton.2 (by decide) : ∀ c ∈ [' '], isSpace c = true) h hends hw hn

theorem scanString_space (hword : ∀ c ∈ word, isSpace c = false) (hne : word ≠ []) (hlength : word.length = n) :
    scanString n (' ' :: (word ++ rest)) = some (word, rest) :=
  scanString_word (List.forall_mem_singleton.2 (by decide) : ∀ c ∈ [' '], isSpace c = true) hword hne hlength

theorem ends_cons (h : hexValue c = none ∧ c ≠ 'x' ∧ c ≠ 'X') : Ends (c :: rest) := by
  intro d hd
  rw [List.head?_cons, Option.mem_some_iff] at hd
  exact hd ▸ h

end Scanf

end Lib
