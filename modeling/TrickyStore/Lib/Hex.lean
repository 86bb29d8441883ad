import Mathlib.Data.Nat.Digits.Lemmas
import Mathlib.Tactic.IntervalCases

/-!
# Bytes as hexadecimal digits

Two lower-case digits for each byte; digits of either case are read back.
-/

namespace Lib

def toHex (bytes : List UInt8) : List Char :=
  bytes.flatMap fun b => [Nat.digitChar (b.toNat / 16), Nat.digitChar (b.toNat % 16)]

def hexValue (c : Char) : Option ℕ :=
  if '0' ≤ c ∧ c ≤ '9' then some (c.toNat - '0'.toNat)
  else if 'a' ≤ c ∧ c ≤ 'f' then some (c.toNat - 'a'.toNat + 10)
  else if 'A' ≤ c ∧ c ≤ 'F' then some (c.toNat - 'A'.toNat + 10)
  else none

/-- Reads two digits for each byte, and fails at anything else. -/
def ofHex : List Char → Option (List UInt8)
  | [] => some []
  | [_] => none
  | a :: b :: text => do
    let high ← hexValue a
    let low ← hexValue b
    let bytes ← ofHex text
    return UInt8.ofNat (16 * high + low) :: bytes

theorem hexValue_digitChar {n : ℕ} (h : n < 16) : hexValue (Nat.digitChar n) = some n := by
  interval_cases n <;> decide

theorem ofHex_toHex (bytes : List UInt8) : ofHex (toHex bytes) = some bytes := by
  induction bytes with
  | nil => rfl
  | cons b bytes ih =>
    have hb : b.toNat < 256 := b.toNat_lt
    have hbyte : UInt8.ofNat (16 * (b.toNat / 16) + b.toNat % 16) = b := by
      rw [Nat.div_add_mod]
      exact UInt8.ofNat_toNat
    show ofHex (_ :: _ :: toHex bytes) = _
    rw [ofHex, hexValue_digitChar (by omega), hexValue_digitChar (by omega), ih]
    simp only [Option.bind_eq_bind, Option.bind_some, hbyte]
    rfl

theorem toHex_injective : Function.Injective toHex := by
  intro bytes bytes' h
  have hread := congrArg ofHex h
  rw [ofHex_toHex, ofHex_toHex] at hread
  exact Option.some.inj hread

theorem length_toHex (bytes : List UInt8) : (toHex bytes).length = 2 * bytes.length := by
  induction bytes with
  | nil => rfl
  | cons b bytes ih =>
    rw [toHex, List.flatMap_cons, List.length_append, ← toHex, ih, List.length_cons]
    simp only [List.length_cons, List.length_nil]
    omega

theorem length_of_ofHex {text : List Char} {bytes : List UInt8} (h : ofHex text = some bytes) :
    text.length = 2 * bytes.length := by
  induction text using ofHex.induct generalizing bytes with
  | case1 =>
    obtain rfl := Option.some.inj h
    rfl
  | case2 => cases h
  | case3 a b text ih =>
    rw [ofHex] at h
    obtain ⟨high, -, h⟩ := Option.bind_eq_some_iff.1 h
    obtain ⟨low, -, h⟩ := Option.bind_eq_some_iff.1 h
    obtain ⟨rest, hrest, h⟩ := Option.bind_eq_some_iff.1 h
    obtain rfl := Option.some.inj h
    rw [List.length_cons, List.length_cons, List.length_cons, ih hrest]
    omega

/-- The beginning of a text in hexadecimal digits is the beginning of its bytes, or no bytes at all. -/
theorem ofHex_of_front {text : List Char} {bytes read : List UInt8} (h : text <+: toHex bytes)
    (hread : ofHex text = some read) : read <+: bytes := by
  obtain ⟨rest, happend⟩ := h
  have heven := length_of_ofHex hread
  have hfront : toHex (bytes.take read.length) = text := by
    have hsplit : toHex (bytes.take read.length) ++ toHex (bytes.drop read.length) = text ++ rest := by
      rw [happend, toHex, toHex, ← List.flatMap_append, List.take_append_drop, ← toHex]
    have hle : read.length ≤ bytes.length := by
      have hlength := congrArg List.length happend
      rw [List.length_append, length_toHex] at hlength
      omega
    refine (List.append_inj hsplit ?_).1
    rw [length_toHex, List.length_take, heven]
    omega
  have hsame : read = bytes.take read.length := by
    rw [← hfront, ofHex_toHex] at hread
    exact (Option.some.inj hread).symm
  exact hsame ▸ List.take_prefix _ _

/-- Every digit that is written satisfies what the sixteen digits satisfy. -/
theorem forall_mem_toHex {P : Char → Prop} (h : ∀ n < 16, P (Nat.digitChar n)) (bytes : List UInt8) :
    ∀ c ∈ toHex bytes, P c := by
  intro c hc
  obtain ⟨b, -, hc⟩ := List.mem_flatMap.1 hc
  have hb : b.toNat < 256 := b.toNat_lt
  rcases List.mem_cons.1 hc with rfl | hc
  · exact h _ (by omega)
  · obtain rfl := List.mem_singleton.1 hc
    exact h _ (by omega)

end Lib
