import Mathlib.Data.Nat.Digits.Lemmas

/-!
# Decimal numbers of a fixed width

A number below `10 ^ w` is written with exactly `w` digits, zeros in front; reading the digits from left to
right gives the number back, whatever the width.
-/

namespace Lib

/-- The decimal digits of `n`, with zeros in front up to the width `w`. -/
def padded (w n : ℕ) : List ℕ := (Nat.digitsAppend 10 w n).reverse

/-- The number that the digits write. -/
def readDigits (ds : List ℕ) : ℕ := ds.foldl (fun n d => 10 * n + d) 0

variable {w n d : ℕ}

theorem readDigits_padded : readDigits (padded w n) = n := by
  have hfold (ds : List ℕ) : ds.foldr (fun d n => 10 * n + d) 0 = Nat.ofDigits 10 ds := by
    rw [Nat.ofDigits_eq_foldr]
    congr 1
    funext d n
    rw [Nat.cast_id, add_comm]
  unfold readDigits padded
  rw [List.foldl_reverse, hfold, Nat.digitsAppend, Nat.ofDigits_append_replicate_zero, Nat.ofDigits_digits]

theorem length_padded (h : n < 10 ^ w) : (padded w n).length = w := by
  rw [padded, List.length_reverse]
  exact Nat.length_digitsAppend (by omega) w h

theorem lt_of_mem_padded (h : d ∈ padded w n) : d < 10 :=
  Nat.lt_of_mem_digitsAppend (by omega) w d (List.mem_reverse.1 h)

end Lib
