import Mathlib.Algebra.Order.Ring.Int
import Mathlib.Data.Nat.Size
import Mathlib.Tactic.Positivity
import Mathlib.Tactic.Ring
import TrickyStore.Lib.Reader

/-!
# Integers as bytes

A number is written as a fixed count of bytes, the least significant one first or last, and an integer
as its two's complement.  Nothing is lost when the number fits into so many bytes.
-/

namespace Lib

/-- The low `n` bytes of a number, the least significant first. -/
def littleEndian : ℕ → ℕ → List UInt8
  | 0, _ => []
  | n + 1, v => UInt8.ofNat v :: littleEndian n (v / 256)

def ofLittleEndian (bytes : List UInt8) : ℕ := bytes.foldr (fun b v => b.toNat + 256 * v) 0

def bigEndian (n v : ℕ) : List UInt8 := (littleEndian n v).reverse

def ofBigEndian (bytes : List UInt8) : ℕ := ofLittleEndian bytes.reverse

@[simp] theorem length_littleEndian (n v : ℕ) : (littleEndian n v).length = n := by
  induction n generalizing v with
  | zero => rfl
  | succ n ih => rw [littleEndian, List.length_cons, ih]

@[simp] theorem length_bigEndian (n v : ℕ) : (bigEndian n v).length = n := by
  rw [bigEndian, List.length_reverse, length_littleEndian]

theorem ofLittleEndian_littleEndian {n v : ℕ} (h : v < 256 ^ n) :
    ofLittleEndian (littleEndian n v) = v := by
  induction n generalizing v with
  | zero =>
    rw [pow_zero, Nat.lt_one_iff] at h
    subst h
    rfl
  | succ n ih =>
    have hquot : v / 256 < 256 ^ n := by
      rw [pow_succ] at h
      exact Nat.div_lt_of_lt_mul (by rwa [mul_comm])
    have hlow : (UInt8.ofNat v).toNat = v % 256 := UInt8.toNat_ofNat'
    show (UInt8.ofNat v).toNat + 256 * ofLittleEndian (littleEndian n (v / 256)) = v
    rw [ih hquot, hlow]
    exact Nat.mod_add_div v 256

theorem ofLittleEndian_lt (bytes : List UInt8) : ofLittleEndian bytes < 256 ^ bytes.length := by
  induction bytes with
  | nil => exact Nat.one_pos
  | cons b bytes ih =>
    have hb : b.toNat < 256 := b.toNat_lt
    show b.toNat + 256 * ofLittleEndian bytes < 256 ^ (bytes.length + 1)
    rw [pow_succ]
    omega

/-- Bytes are written from the number that they are read as. -/
theorem littleEndian_ofLittleEndian (bytes : List UInt8) :
    littleEndian bytes.length (ofLittleEndian bytes) = bytes := by
  induction bytes with
  | nil => rfl
  | cons b bytes ih =>
    have hb : b.toNat < 256 := b.toNat_lt
    have hlow : UInt8.ofNat (b.toNat + 256 * ofLittleEndian bytes) = b := by
      rw [← UInt8.toNat_inj, UInt8.toNat_ofNat']
      omega
    have hquot : (b.toNat + 256 * ofLittleEndian bytes) / 256 = ofLittleEndian bytes := by omega
    show UInt8.ofNat (b.toNat + 256 * ofLittleEndian bytes) ::
      littleEndian bytes.length ((b.toNat + 256 * ofLittleEndian bytes) / 256) = b :: bytes
    rw [hlow, hquot, ih]

theorem ofBigEndian_bigEndian {n v : ℕ} (h : v < 256 ^ n) : ofBigEndian (bigEndian n v) = v := by
  rw [ofBigEndian, bigEndian, List.reverse_reverse, ofLittleEndian_littleEndian h]

/-! ## Two's complement -/

/-- The integer fits into `n` bytes. -/
def FitsBytes (n : ℕ) (v : Int) : Prop := -(256 ^ n) ≤ 2 * v ∧ 2 * v < 256 ^ n

instance (n : ℕ) (v : Int) : Decidable (FitsBytes n v) := inferInstanceAs (Decidable (_ ∧ _))

/-- The number whose bytes are the two's complement of the integer. -/
def twosComplement (n : ℕ) (v : Int) : ℕ := (v % 256 ^ n).toNat

/-- The integer whose two's complement in `n` bytes is the number. -/
def ofTwosComplement (n : ℕ) (v : ℕ) : Int := if 2 * v < 256 ^ n then v else (v : Int) - 256 ^ n

theorem twosComplement_lt (n : ℕ) (v : Int) : twosComplement n v < 256 ^ n := by
  have hpos : (0 : Int) < 256 ^ n := by positivity
  rw [twosComplement, Int.toNat_lt (Int.emod_nonneg _ hpos.ne')]
  exact_mod_cast Int.emod_lt_of_pos v hpos

theorem ofTwosComplement_twosComplement {n : ℕ} {v : Int} (h : FitsBytes n v) :
    ofTwosComplement n (twosComplement n v) = v := by
  obtain ⟨hlow, hhigh⟩ := h
  have hpos : (0 : Int) < 256 ^ n := by positivity
  have hcast : ((256 ^ n : ℕ) : Int) = 256 ^ n := by push_cast; rfl
  have hnat : ((twosComplement n v : ℕ) : Int) = v % 256 ^ n :=
    Int.toNat_of_nonneg (Int.emod_nonneg _ hpos.ne')
  unfold ofTwosComplement
  rcases lt_or_ge v 0 with hneg | hnonneg
  · have hmod : v % 256 ^ n = v + 256 ^ n := by
      rw [← Int.add_emod_right, Int.emod_eq_of_lt (by omega) (by omega)]
    rw [if_neg (by omega), hnat, hmod]
    ring
  · have hmod : v % 256 ^ n = v := Int.emod_eq_of_lt hnonneg (by omega)
    rw [if_pos (by omega), hnat, hmod]

end Lib
