import TrickyStore.Lib.Bytes

/-!
# A byte buffer with checked accesses

A program may touch the first bytes of a buffer, up to a limit.  An access that goes beyond it fails, so a
program that does not fail has stayed within the limit.
-/

namespace Lib

/-- The number in `n` bytes at the address. -/
def load (limit : ℕ) (buffer : List UInt8) (address n : ℕ) : Option ℕ :=
  if address + n ≤ limit then some (ofLittleEndian ((buffer.drop address).take n)) else none

/-- Writes the number to `n` bytes at the address. -/
def store (limit : ℕ) (buffer : List UInt8) (address n v : ℕ) : Option (List UInt8) :=
  if address + n ≤ limit then some (buffer.take address ++ littleEndian n v ++ buffer.drop (address + n))
  else none

/-- The buffers have the same length and differ from the address on, on `n` bytes at most. -/
structure SameOutside (buffer buffer' : List UInt8) (address n : ℕ) : Prop where
  length : buffer'.length = buffer.length
  outside : ∀ i, i < address ∨ address + n ≤ i → buffer'[i]? = buffer[i]?

variable {limit address n v : ℕ} {buffer buffer' buffer'' : List UInt8}

theorem load_of_le (h : address + n ≤ limit) :
    load limit buffer address n = some (ofLittleEndian ((buffer.drop address).take n)) := if_pos h

/-- A write changes nothing but what it writes to. -/
theorem store_of_le (h : address + n ≤ limit) (hlimit : limit ≤ buffer.length) (v : ℕ) :
    ∃ buffer', store limit buffer address n v = some buffer' ∧ SameOutside buffer buffer' address n := by
  refine ⟨_, if_pos h, ?_, ?_⟩
  · simp only [List.length_append, List.length_take, length_littleEndian, List.length_drop]
    omega
  · have hfront : (buffer.take address).length = address := by
      rw [List.length_take]
      omega
    have hwritten : (buffer.take address ++ littleEndian n v).length = address + n := by
      rw [List.length_append, hfront, length_littleEndian]
    intro i hi
    by_cases hlt : i < address
    · rw [List.append_assoc, List.getElem?_append_left (by omega), List.getElem?_take_of_lt hlt]
    · rw [List.getElem?_append_right (by omega), hwritten, List.getElem?_drop]
      congr 1
      omega

namespace SameOutside

theorem refl (buffer : List UInt8) (address n : ℕ) : SameOutside buffer buffer address n :=
  ⟨rfl, fun _ _ => rfl⟩

theorem trans (h : SameOutside buffer buffer' address n) (h' : SameOutside buffer' buffer'' address n) :
    SameOutside buffer buffer'' address n :=
  ⟨h'.length.trans h.length, fun i hi => (h'.outside i hi).trans (h.outside i hi)⟩

theorem mono {address' n' : ℕ} (h : SameOutside buffer buffer' address n) (haddress : address' ≤ address)
    (hend : address + n ≤ address' + n') : SameOutside buffer buffer' address' n' :=
  ⟨h.length, fun i hi => h.outside i (by omega)⟩

theorem drop_eq {k : ℕ} (h : SameOutside buffer buffer' address n) (hk : address + n ≤ k) :
    buffer'.drop k = buffer.drop k := by
  apply List.ext_getElem?
  intro i
  rw [List.getElem?_drop, List.getElem?_drop]
  exact h.outside (k + i) (by omega)

end SameOutside

end Lib
