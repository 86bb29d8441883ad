import Mathlib.Data.Finset.Sort
import Mathlib.Data.List.Lex
import Mathlib.Data.List.Sort
import Mathlib.Data.Nat.Size
import TrickyStore.Lib.Bytes

/-!
# Distinguished encodings

A value is encoded as a tag, the octets of its length and its contents.  An encoding can be split off the
front of a sequence of octets in one way only, and a longer content has a longer encoding.  The elements of
a set are encoded in the order of their encodings, so that the octets depend on the elements alone; they
are those of a set of values exactly when no element was put in twice.
-/

namespace Lib

namespace Der

/-- How many octets the length of a content takes in the long form. -/
def octetCount (n : ℕ) : ℕ := (n.size + 7) / 8

/-- The octets of a length: itself below 128, else its octets behind their count. -/
def lengthOctets (n : ℕ) : List UInt8 :=
  if n < 128 then [UInt8.ofNat n] else UInt8.ofNat (128 + octetCount n) :: bigEndian (octetCount n) n

def encode (tag : UInt8) (content : List UInt8) : List UInt8 :=
  tag :: (lengthOctets content.length ++ content)

section Encodings

variable {n n' : ℕ} {tag tag' : UInt8} {c c' r r' : List UInt8}

theorem lt_octetCount (n : ℕ) : n < 256 ^ octetCount n := by
  have hsize : n.size ≤ 8 * octetCount n := by
    unfold octetCount
    omega
  calc n < 2 ^ n.size := Nat.lt_size_self n
    _ ≤ 2 ^ (8 * octetCount n) := Nat.pow_le_pow_right (by omega) hsize
    _ = 256 ^ octetCount n := by
      rw [pow_mul]
      norm_num

theorem octetCount_mono (h : n ≤ n') : octetCount n ≤ octetCount n' := by
  have hsize : n.size ≤ n'.size := Nat.size_le_size h
  unfold octetCount
  omega

/-- Lengths that fit into an `Int` have at most four octets. -/
theorem octetCount_le (h : n < 2 ^ 31) : octetCount n ≤ 4 := by
  have hsize : n.size ≤ 31 := Nat.size_le.2 h
  unfold octetCount
  omega

theorem length_lengthOctets_mono (h : n ≤ n') : (lengthOctets n).length ≤ (lengthOctets n').length := by
  have hcount := octetCount_mono h
  unfold lengthOctets
  split_ifs
  · exact le_refl _
  · simp
  · omega
  · simpa using hcount

theorem length_encode_lt (h : c.length < c'.length) : (encode tag c).length < (encode tag' c').length := by
  have hmono := length_lengthOctets_mono h.le
  simp only [encode, List.length_cons, List.length_append]
  omega

theorem encode_ne_nil : encode tag c ≠ [] := List.cons_ne_nil _ _

/-- The octets of a length are read off the front in one way. -/
theorem lengthOctets_append_inj (hn : n < 2 ^ 31) (hn' : n' < 2 ^ 31)
    (h : lengthOctets n ++ r = lengthOctets n' ++ r') : n = n' ∧ r = r' := by
  have hshort {m : ℕ} (hm : m < 128) : (UInt8.ofNat m).toNat = m := by
    rw [UInt8.toNat_ofNat']
    omega
  have hlong {m : ℕ} (hm : octetCount m ≤ 4) :
      (UInt8.ofNat (128 + octetCount m)).toNat = 128 + octetCount m := by
    rw [UInt8.toNat_ofNat']
    omega
  have hcount := octetCount_le hn
  have hcount' := octetCount_le hn'
  unfold lengthOctets at h
  split_ifs at h with hlt hlt' hlt'
  · rw [List.cons_append, List.cons_append, List.cons.injEq] at h
    have hnat := congrArg UInt8.toNat h.1
    rw [hshort hlt, hshort hlt'] at hnat
    exact ⟨hnat, h.2⟩
  · rw [List.cons_append, List.cons_append, List.cons.injEq] at h
    have hnat := congrArg UInt8.toNat h.1
    rw [hshort hlt, hlong hcount'] at hnat
    omega
  · rw [List.cons_append, List.cons_append, List.cons.injEq] at h
    have hnat := congrArg UInt8.toNat h.1
    rw [hlong hcount, hshort hlt'] at hnat
    omega
  · rw [List.cons_append, List.cons_append, List.cons.injEq] at h
    have hnat := congrArg UInt8.toNat h.1
    rw [hlong hcount, hlong hcount'] at hnat
    have heq : octetCount n = octetCount n' := by omega
    obtain ⟨hbytes, hrest⟩ := List.append_inj h.2 (by simp [heq])
    have hread := congrArg ofBigEndian hbytes
    rw [ofBigEndian_bigEndian (lt_octetCount n), ofBigEndian_bigEndian (lt_octetCount n')] at hread
    exact ⟨hread, hrest⟩

/-- An encoding is split off the front in one way. -/
theorem encode_append_inj (hc : c.length < 2 ^ 31) (hc' : c'.length < 2 ^ 31)
    (h : encode tag c ++ r = encode tag' c' ++ r') : c = c' ∧ r = r' := by
  rw [encode, encode, List.cons_append, List.cons_append, List.cons.injEq, List.append_assoc,
    List.append_assoc] at h
  obtain ⟨hlen, hrest⟩ := lengthOctets_append_inj hc hc' h.2
  exact List.append_inj hrest hlen

theorem encode_inj (h : encode tag c = encode tag c') : c = c' := by
  have hlen : c.length = c'.length := by
    rcases lt_trichotomy c.length c'.length with hlt | heq | hlt
    · exact absurd (congrArg List.length h) (length_encode_lt hlt).ne
    · exact heq
    · exact absurd (congrArg List.length h) (length_encode_lt hlt).ne'
  rw [encode, encode, List.cons.injEq, hlen] at h
  exact List.append_cancel_left h.2

end Encodings

/-! ## Sets -/

/-- The order of the encodings. -/
def Le (a b : List UInt8) : Prop := a.map UInt8.toNat ≤ b.map UInt8.toNat

instance : DecidableRel Le := fun a b => inferInstanceAs (Decidable (a.map UInt8.toNat ≤ b.map UInt8.toNat))

instance : IsTrans (List UInt8) Le := ⟨fun _ _ _ => le_trans⟩

instance : Std.Total Le := ⟨fun a b => le_total (a.map UInt8.toNat) (b.map UInt8.toNat)⟩

instance : Std.Antisymm Le :=
  ⟨fun _ _ h h' => List.map_injective_iff.2 (fun _ _ => UInt8.toNat_inj.1) (le_antisymm h h')⟩

/-- The encodings of the elements of a set, in their order. -/
def sorted (elements : List (List UInt8)) : List (List UInt8) := elements.insertionSort Le

section Sets

variable {l l' : List (List UInt8)}

theorem sorted_perm (l : List (List UInt8)) : (sorted l).Perm l := List.perm_insertionSort _ l

/-- Only the elements count, not their order. -/
theorem sorted_eq_of_perm (h : l.Perm l') : sorted l = sorted l' := by
  have hperm : (sorted l).Perm (sorted l') := (sorted_perm l).trans (h.trans (sorted_perm l').symm)
  apply hperm.eq_of_pairwise _ (List.pairwise_insertionSort Le l) (List.pairwise_insertionSort Le l')
  intro a b _ _ hab hba
  exact Std.Antisymm.antisymm a b hab hba

/-- Without repetitions the elements are sorted like the set that they form. -/
theorem sorted_eq_sort (h : l.Nodup) : sorted l = l.toFinset.sort Le := by
  have hperm : (sorted l).Perm (l.toFinset.sort Le) :=
    (sorted_perm l).trans ((Finset.sort_perm_toList _ _).trans (List.toFinset_toList h)).symm
  apply hperm.eq_of_pairwise _ (List.pairwise_insertionSort Le l) (Finset.pairwise_sort _ _)
  intro a b _ _ hab hba
  exact Std.Antisymm.antisymm a b hab hba

theorem sort_perm_dedup (l : List (List UInt8)) : (l.toFinset.sort Le).Perm l.dedup := by
  have hset : l.toFinset = l.dedup.toFinset := by
    ext a
    simp
  rw [hset]
  exact (Finset.sort_perm_toList _ _).trans (List.toFinset_toList (List.nodup_dedup l))

/-- The elements are those of their set and the repetitions. -/
theorem exists_repetitions (l : List (List UInt8)) :
    ∃ repetitions, (sorted l).Perm (l.toFinset.sort Le ++ repetitions) ∧ (repetitions = [] → l.Nodup) := by
  obtain ⟨repetitions, hperm⟩ := (List.dedup_sublist l).exists_perm_append
  refine ⟨repetitions, ?_, ?_⟩
  · exact (sorted_perm l).trans (hperm.trans ((sort_perm_dedup l).symm.append_right repetitions))
  · rintro rfl
    rw [List.append_nil] at hperm
    exact hperm.nodup_iff.2 (List.nodup_dedup l)

theorem length_sort_le (l : List (List UInt8)) :
    (l.toFinset.sort Le).flatten.length ≤ (sorted l).flatten.length := by
  obtain ⟨repetitions, hperm, -⟩ := exists_repetitions l
  rw [hperm.flatten.length_eq, List.flatten_append, List.length_append]
  omega

/-- Repetitions make the set longer. -/
theorem length_sort_lt (hl : ¬ l.Nodup) (hne : ∀ a ∈ l, a ≠ []) :
    (l.toFinset.sort Le).flatten.length < (sorted l).flatten.length := by
  obtain ⟨repetitions, hperm, hnodup⟩ := exists_repetitions l
  obtain ⟨a, ha⟩ := List.exists_mem_of_ne_nil repetitions fun hnil => hl (hnodup hnil)
  have hmem : a ∈ l :=
    (sorted_perm l).mem_iff.1 (hperm.mem_iff.2 (List.mem_append_right _ ha))
  have hpos : 0 < repetitions.flatten.length := by
    obtain ⟨b, hb⟩ := List.exists_mem_of_ne_nil a (hne a hmem)
    exact List.length_pos_of_mem (List.mem_flatten.2 ⟨a, ha, hb⟩)
  rw [hperm.flatten.length_eq, List.flatten_append, List.length_append]
  omega

end Sets

end Der

end Lib
