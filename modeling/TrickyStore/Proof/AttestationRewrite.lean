import TrickyStore.Model.AttestationExtension
import TrickyStore.Model.World

/-!
# Rewriting an attestation extension

`hackLeaf` takes the enforced list apart, `hackAttestExtension` strips some tags, adds its own and sorts.
The result is determined by its members: what was kept and what the table of added rows has.
-/

open Lib

namespace TrickyStore

namespace CertificateHack

/-- The root of trust that a list holds. -/
def rootOfTrustIn (objects : List TaggedObject) : Option Asn1 :=
  (objects.filter fun o => o.tagNo = 704).getLast?.map TaggedObject.base

/-- A key description as keymasters write it. -/
structure KeyDescription (encodables : List Asn1) : Prop where
  length : encodables.length = 8
  lists : ∀ i ∈ [6, 7], ∃ objects : List TaggedObject,
    encodables[i]? = some (.sequence (objects.map TaggedObject.toAsn1)) ∧ (objects.map TaggedObject.tagNo).Nodup

/-- A verified boot hash is at hand: a root of trust of four elements has one, or the property. -/
def BootHashAvailable (data : AttestationData) (encodables : List Asn1) : Prop :=
  (∃ a b c octets, rootOfTrustIn (listAt encodables (teeIndexOf encodables)) =
    some (.sequence [a, b, c, .octetString octets])) ∨ data.getBootHashFromProp ≠ none

/-- The overrides of a uid, with the tags that they are for. -/
def overrides (env : Env) (uid : Int) : List (ℕ × Option Int) :=
  [(706, env.patchLevelOverride uid), (718, env.vendorPatchLevelOverride uid),
    (719, env.bootPatchLevelOverride uid)]

/-- What stands under a patch level tag afterwards: what stood there, nothing, or the override. -/
def overridden (original : List TaggedObject) (t : ℕ) : Option Int → List TaggedObject
  | none => original.filter fun o => o.tagNo = t
  | some v => if v = DO_NOT_REPORT then [] else [taggedObject (t, .integer v)]

/-- The key description `hacked` differs from `encodables` as little as it may. -/
structure ChangesOnlyWhatItMust (P : Platform) (env : Env) (data : AttestationData) (uid : Int)
    (encodables hacked : List Asn1) : Prop where
  length : hacked.length = 8
  others : ∀ j, j ≠ teeIndexOf encodables → hacked[j]? = encodables[j]?
  list : hacked[teeIndexOf encodables]? =
    some (.sequence ((listAt hacked (teeIndexOf encodables)).map TaggedObject.toAsn1))
  ascending : Ascending TaggedObject.tagNo (listAt hacked (teeIndexOf encodables))
  kept : ∀ t, t ∉ [704, 705, 706, 718, 719] →
    (listAt hacked (teeIndexOf encodables)).filter (fun o => o.tagNo = t) =
      (listAt encodables (teeIndexOf encodables)).filter fun o => o.tagNo = t
  rootOfTrust : ∃ hash,
    (listAt hacked (teeIndexOf encodables)).filter (fun o => o.tagNo = 704) =
      [taggedObject (704, TrickyStore.rootOfTrust data.bootKey hash)] ∧
    ∀ original, originalBootHash (rootOfTrustIn (listAt encodables (teeIndexOf encodables))) = some original →
      hash = original
  osVersion : (listAt hacked (teeIndexOf encodables)).filter (fun o => o.tagNo = 705) =
    [taggedObject (705, .integer P.osVersion)]
  patchLevels : ∀ row ∈ overrides env uid,
    (listAt hacked (teeIndexOf encodables)).filter (fun o => o.tagNo = row.1) =
      overridden (listAt encodables (teeIndexOf encodables)) row.1 row.2

section Rebuilt

variable {P : Platform} {env : Env} {data : AttestationData} {uid : Int} {vector : List TaggedObject}
  {hash : Bytes} {o : TaggedObject} {t : ℕ}

/-! ## The rebuilt list -/

theorem mem_rebuilt : o ∈ rebuilt P env data uid vector hash ↔
    o ∈ vector ∧ isStripped env uid o.tagNo = false ∨
      ∃ row ∈ present (rebuiltTable P env data uid hash), taggedObject row = o := by
  unfold rebuilt
  rw [mem_sortBy, List.mem_append, List.mem_filter, List.mem_map, Bool.not_eq_true']

theorem rebuiltTable_keys :
    (rebuiltTable P env data uid hash).map Prod.fst = [705, 706, 718, 719, 704] := rfl

/-- What is added stands under a tag that was stripped. -/
theorem isStripped_of_mem {row : ℕ × Asn1} (h : row ∈ present (rebuiltTable P env data uid hash)) :
    isStripped env uid row.1 = true := by
  obtain ⟨t, v⟩ := row
  have hrow := mem_present.1 h
  simp only [rebuiltTable, List.mem_cons, List.not_mem_nil, or_false, Prod.mk.injEq] at hrow
  have hsome : ∀ {o : Option Int}, some v = overrideRow o → o.isSome = true := by
    intro o ho
    cases o with
    | none => simp [overrideRow] at ho
    | some w => rfl
  rcases hrow with ⟨rfl, -⟩ | ⟨rfl, hv⟩ | ⟨rfl, hv⟩ | ⟨rfl, hv⟩ | ⟨rfl, -⟩
  · rfl
  · simp [isStripped, hsome hv]
  · simp [isStripped, hsome hv]
  · simp [isStripped, hsome hv]
  · rfl

theorem ascending_rebuilt (hnodup : (vector.map TaggedObject.tagNo).Nodup) :
    Ascending TaggedObject.tagNo (rebuilt P env data uid vector hash) := by
  apply ascending_sortBy
  rw [List.map_append, List.map_map]
  refine List.Nodup.append (hnodup.sublist (List.filter_sublist.map _)) ?_ ?_
  · have hkeys : ((rebuiltTable P env data uid hash).map Prod.fst).Nodup := by
      rw [rebuiltTable_keys]
      decide
    exact hkeys.sublist (present_keys_sublist _)
  · intro t hkept hadded
    obtain ⟨o, ho, rfl⟩ := List.mem_map.1 hkept
    obtain ⟨row, hrow, hkey⟩ := List.mem_map.1 hadded
    have hstripped := isStripped_of_mem hrow
    have hnot : isStripped env uid o.tagNo = false := by simpa using (List.mem_filter.1 ho).2
    rw [← hkey] at hnot
    rw [show (TaggedObject.tagNo ∘ taggedObject) row = row.1 from rfl, hstripped] at hnot
    simp at hnot

/-- Under a tag that is not stripped stands what stood there before. -/
theorem filter_rebuilt_kept (hnodup : (vector.map TaggedObject.tagNo).Nodup)
    (ht : isStripped env uid t = false) :
    (rebuilt P env data uid vector hash).filter (fun o => o.tagNo = t) =
      vector.filter fun o => o.tagNo = t := by
  apply Ascending.ext ((ascending_rebuilt hnodup).filter _) (ascending_filter hnodup t)
  intro o
  rw [List.mem_filter, List.mem_filter, mem_rebuilt]
  constructor
  · rintro ⟨⟨ho, -⟩ | ⟨row, hrow, rfl⟩, hkey⟩
    · exact ⟨ho, hkey⟩
    · have hrowkey : row.1 = t := of_decide_eq_true hkey
      rw [← hrowkey, isStripped_of_mem hrow] at ht
      simp at ht
  · rintro ⟨ho, hkey⟩
    have hokey : o.tagNo = t := of_decide_eq_true hkey
    refine ⟨.inl ⟨ho, ?_⟩, hkey⟩
    rw [hokey]
    exact ht

/-- Under a stripped tag stands what the table adds there. -/
theorem filter_rebuilt_added (hnodup : (vector.map TaggedObject.tagNo).Nodup)
    (ht : isStripped env uid t = true) {v : Option Asn1} (hrow : (t, v) ∈ rebuiltTable P env data uid hash) :
    (rebuilt P env data uid vector hash).filter (fun o => o.tagNo = t) =
      (v.map fun base => taggedObject (t, base)).toList := by
  have hkeys : ((rebuiltTable P env data uid hash).map Prod.fst).Nodup := by
    rw [rebuiltTable_keys]
    decide
  have hone : Ascending TaggedObject.tagNo (v.map fun base => taggedObject (t, base)).toList := by
    cases v with
    | none => exact List.Pairwise.nil
    | some base => exact List.pairwise_singleton _ _
  apply Ascending.ext ((ascending_rebuilt hnodup).filter _) hone
  intro o
  rw [List.mem_filter, mem_rebuilt, Option.mem_toList, Option.map_eq_some_iff]
  constructor
  · rintro ⟨⟨ho, hnot⟩ | ⟨⟨t', base⟩, hpresent, rfl⟩, hkey⟩
    · have hokey : o.tagNo = t := of_decide_eq_true hkey
      rw [hokey, ht] at hnot
      simp at hnot
    · have hrowkey : t' = t := of_decide_eq_true hkey
      subst hrowkey
      have hvalue : v = some base := by
        have hmem := mem_present.1 hpresent
        have hpair := List.inj_on_of_nodup_map hkeys hrow hmem rfl
        exact (Prod.mk.inj hpair).2
      exact ⟨base, hvalue, rfl⟩
  · rintro ⟨base, rfl, rfl⟩
    exact ⟨.inr ⟨(t, base), mem_present.2 hrow, rfl⟩, by simp⟩

/-- The root of trust is one of the rows that are added. -/
theorem filter_rebuilt_rootOfTrust (hnodup : (vector.map TaggedObject.tagNo).Nodup) :
    (rebuilt P env data uid vector hash).filter (fun o => o.tagNo = 704) =
      [taggedObject (704, TrickyStore.rootOfTrust data.bootKey hash)] :=
  filter_rebuilt_added hnodup rfl (v := some (TrickyStore.rootOfTrust data.bootKey hash))
    (by simp [rebuiltTable])

theorem rootOfTrustIn_rebuilt (hnodup : (vector.map TaggedObject.tagNo).Nodup) :
    rootOfTrustIn (rebuilt P env data uid vector hash) = some (TrickyStore.rootOfTrust data.bootKey hash) := by
  rw [rootOfTrustIn, filter_rebuilt_rootOfTrust hnodup]
  rfl

theorem exists_rootOfTrust_rebuilt (hnodup : (vector.map TaggedObject.tagNo).Nodup) :
    ∃ o ∈ rebuilt P env data uid vector hash, o.tagNo = 704 := by
  have hmem : taggedObject (704, TrickyStore.rootOfTrust data.bootKey hash) ∈
      (rebuilt P env data uid vector hash).filter (fun o => o.tagNo = 704) := by
    rw [filter_rebuilt_rootOfTrust hnodup]
    exact List.mem_singleton_self _
  exact ⟨_, (List.mem_filter.1 hmem).1, rfl⟩

/-- What was rebuilt is not changed by rebuilding it. -/
theorem rebuilt_rebuilt (hnodup : (vector.map TaggedObject.tagNo).Nodup) :
    rebuilt P env data uid ((rebuilt P env data uid vector hash).filter fun o => o.tagNo ≠ 704) hash =
      rebuilt P env data uid vector hash := by
  have hagain : (((rebuilt P env data uid vector hash).filter fun o => o.tagNo ≠ 704).map
      TaggedObject.tagNo).Nodup :=
    (ascending_rebuilt hnodup).nodup.sublist (List.filter_sublist.map _)
  apply Ascending.ext (ascending_rebuilt hagain) (ascending_rebuilt hnodup)
  intro o
  rw [mem_rebuilt, List.mem_filter]
  constructor
  · rintro (⟨⟨ho, -⟩, -⟩ | hadded)
    · exact ho
    · exact mem_rebuilt.2 (.inr hadded)
  · intro ho
    obtain ⟨hmem, hnot⟩ | hadded := mem_rebuilt.1 ho
    · refine .inl ⟨⟨ho, decide_eq_true ?_⟩, hnot⟩
      intro hkey
      rw [hkey] at hnot
      simp [isStripped] at hnot
    · exact .inr hadded

end Rebuilt

/-! ## The whole key description -/

section Description

variable {P : Platform} {env : Env} {data : AttestationData} {uid : Int} {encodables hacked : List Asn1}
  {objects : List TaggedObject} {hash : Bytes}

theorem containsRootOfTrust_iff :
    containsRootOfTrust (.sequence (objects.map TaggedObject.toAsn1)) = true ↔ ∃ o ∈ objects, o.tagNo = 704 := by
  simp [containsRootOfTrust]

theorem teeIndexOf_eq (encodables : List Asn1) : teeIndexOf encodables = 6 ∨ teeIndexOf encodables = 7 := by
  unfold teeIndexOf
  split_ifs
  · exact .inl rfl
  · exact .inr rfl

theorem mapM_asTagged (objects : List TaggedObject) :
    (objects.map TaggedObject.toAsn1).mapM Asn1.asTagged = some objects := by
  induction objects with
  | nil => rfl
  | cons o objects ih =>
    rw [List.map_cons, List.mapM_cons, ih]
    rfl

/-- The rewriting of a description whose enforced list is taken apart. -/
theorem hackKeyDescription_eq (hlength : 6 < encodables.length)
    (hlist : encodables[teeIndexOf encodables]? = some (.sequence (objects.map TaggedObject.toAsn1))) :
    hackKeyDescription P env data uid encodables =
      ((originalBootHash (rootOfTrustIn objects)).or data.getBootHashFromProp).map fun hash =>
        encodables.set (teeIndexOf encodables) (.sequence
          ((rebuilt P env data uid (objects.filter fun o => o.tagNo ≠ 704) hash).map
            TaggedObject.toAsn1)) := by
  unfold hackKeyDescription
  simp only [List.getElem?_eq_getElem hlength, hlist, Option.bind_eq_bind, Option.bind_some, Asn1.asSequence,
    mapM_asTagged, hackAttestExtension, rootOfTrustIn]
  cases (originalBootHash ((objects.filter fun o => o.tagNo = 704).getLast?.map TaggedObject.base)).or
    data.getBootHashFromProp <;> rfl

theorem teeIndexOf_set (hlength : encodables.length = 8) (hroot : ∃ o ∈ objects, o.tagNo = 704) :
    teeIndexOf (encodables.set (teeIndexOf encodables) (.sequence (objects.map TaggedObject.toAsn1))) =
      teeIndexOf encodables := by
  obtain hindex | hindex := teeIndexOf_eq encodables
  · rw [hindex, teeIndexOf, List.getElem?_set_self (by omega), Option.any_some,
      containsRootOfTrust_iff.2 hroot, if_pos rfl]
  · rw [hindex, teeIndexOf, List.getElem?_set_ne (by decide), ← teeIndexOf, hindex]

variable (P env uid) in
/-- With a boot hash at hand the description is rewritten, and what was rewritten stays. -/
theorem hackKeyDescription_spec (hlength : encodables.length = 8)
    (hlist : encodables[teeIndexOf encodables]? = some (.sequence (objects.map TaggedObject.toAsn1)))
    (hnodup : (objects.map TaggedObject.tagNo).Nodup)
    (hhash : (originalBootHash (rootOfTrustIn objects)).or data.getBootHashFromProp = some hash) :
    ∃ hacked, hackKeyDescription P env data uid encodables = some hacked ∧
      hacked = encodables.set (teeIndexOf encodables) (.sequence
        ((rebuilt P env data uid (objects.filter fun o => o.tagNo ≠ 704) hash).map TaggedObject.toAsn1)) ∧
      hackKeyDescription P env data uid hacked = some hacked := by
  have hvector : ((objects.filter fun o => o.tagNo ≠ 704).map TaggedObject.tagNo).Nodup :=
    hnodup.sublist (List.filter_sublist.map _)
  have hindex : teeIndexOf encodables < 8 := by
    obtain h | h := teeIndexOf_eq encodables <;> omega
  refine ⟨_, ?_, rfl, ?_⟩
  · rw [hackKeyDescription_eq (by omega) hlist, hhash]
    rfl
  · have hroot : ∃ o ∈ rebuilt P env data uid (objects.filter fun o => o.tagNo ≠ 704) hash, o.tagNo = 704 :=
      exists_rootOfTrust_rebuilt hvector
    have hlist' := List.getElem?_set_self (l := encodables) (i := teeIndexOf encodables)
      (a := .sequence ((rebuilt P env data uid (objects.filter fun o => o.tagNo ≠ 704) hash).map
        TaggedObject.toAsn1)) (by omega)
    nth_rewrite 2 [← teeIndexOf_set hlength hroot] at hlist'
    rw [hackKeyDescription_eq (by rw [List.length_set]; omega) hlist', rootOfTrustIn_rebuilt hvector,
      teeIndexOf_set hlength hroot]
    simp only [TrickyStore.rootOfTrust, originalBootHash, List.getElem?_cons_succ, List.getElem?_cons_zero,
      Option.bind_some, Asn1.getByteArrayFromAsn1, Option.some_or, Option.map_some, rebuilt_rebuilt hvector,
      List.set_set]

theorem filter_others {t : ℕ} (ht : t ≠ 704) :
    (objects.filter fun o => o.tagNo ≠ 704).filter (fun o => o.tagNo = t) =
      objects.filter fun o => o.tagNo = t := by
  rw [List.filter_filter]
  apply List.filter_congr
  intro o _
  by_cases hkey : o.tagNo = t
  · simp [hkey, ht]
  · simp [hkey]

theorem changesOnlyWhatItMust_set (hlength : encodables.length = 8)
    (hlist : encodables[teeIndexOf encodables]? = some (.sequence (objects.map TaggedObject.toAsn1)))
    (hnodup : (objects.map TaggedObject.tagNo).Nodup)
    (hhash : (originalBootHash (rootOfTrustIn objects)).or data.getBootHashFromProp = some hash)
    (hhacked : hacked = encodables.set (teeIndexOf encodables) (.sequence
      ((rebuilt P env data uid (objects.filter fun o => o.tagNo ≠ 704) hash).map TaggedObject.toAsn1))) :
    ChangesOnlyWhatItMust P env data uid encodables hacked := by
  have hvector : ((objects.filter fun o => o.tagNo ≠ 704).map TaggedObject.tagNo).Nodup :=
    hnodup.sublist (List.filter_sublist.map _)
  have hindex : teeIndexOf encodables < 8 := by
    obtain h | h := teeIndexOf_eq encodables <;> omega
  have horiginal : listAt encodables (teeIndexOf encodables) = objects := listAt_map hlist
  have hset : hacked[teeIndexOf encodables]? = some (.sequence
      ((rebuilt P env data uid (objects.filter fun o => o.tagNo ≠ 704) hash).map TaggedObject.toAsn1)) := by
    rw [hhacked, List.getElem?_set_self (by omega)]
  have hnew := listAt_map hset
  refine ⟨?_, ?_, ?_, ?_, ?_, ?_, ?_, ?_⟩
  · rw [hhacked, List.length_set, hlength]
  · intro j hj
    rw [hhacked, List.getElem?_set_ne hj.symm]
  · rw [hnew, hset]
  · rw [hnew]
    exact ascending_rebuilt hvector
  · intro t ht
    simp only [List.mem_cons, List.not_mem_nil, or_false, not_or] at ht
    rw [hnew, horiginal, filter_rebuilt_kept hvector (by simp [isStripped, ht]), filter_others ht.1]
  · refine ⟨hash, ?_, ?_⟩
    · rw [hnew]
      exact filter_rebuilt_rootOfTrust hvector
    · intro octets hoctets
      rw [← horiginal, hoctets, Option.some_or] at hhash
      exact (Option.some.inj hhash).symm
  · rw [hnew]
    exact filter_rebuilt_added hvector rfl (v := some (.integer P.osVersion)) (by simp [rebuiltTable])
  · -- an override strips the original element, and the table adds the new one
    have hpatch : ∀ (t : ℕ) (o : Option Int), t ≠ 704 → isStripped env uid t = o.isSome →
        (t, overrideRow o) ∈ rebuiltTable P env data uid hash →
        (listAt hacked (teeIndexOf encodables)).filter (fun obj => obj.tagNo = t) =
          overridden (listAt encodables (teeIndexOf encodables)) t o := by
      intro t o ht hstripped hrow
      rw [hnew, horiginal]
      cases o with
      | none => rw [filter_rebuilt_kept hvector hstripped, filter_others ht, overridden]
      | some v =>
        rw [filter_rebuilt_added hvector hstripped hrow, overridden, overrideRow]
        by_cases hno : v = DO_NOT_REPORT
        · simp [hno]
        · simp [hno]
    intro row hrow
    simp only [overrides, List.mem_cons, List.not_mem_nil, or_false] at hrow
    rcases hrow with rfl | rfl | rfl
    · exact hpatch _ _ (by simp) (by simp [isStripped]) (by simp [rebuiltTable])
    · exact hpatch _ _ (by simp) (by simp [isStripped]) (by simp [rebuiltTable])
    · exact hpatch _ _ (by simp) (by simp [isStripped]) (by simp [rebuiltTable])

theorem boot_hash_of_available (h : BootHashAvailable data encodables) :
    ∃ hash, (originalBootHash (rootOfTrustIn (listAt encodables (teeIndexOf encodables)))).or
      data.getBootHashFromProp = some hash := by
  obtain ⟨a, b, c, octets, hroot⟩ | hprop := h
  · rw [hroot]
    exact ⟨octets, rfl⟩
  · obtain ⟨hash, hhash⟩ := Option.ne_none_iff_exists'.1 hprop
    rw [hhash]
    cases originalBootHash (rootOfTrustIn (listAt encodables (teeIndexOf encodables))) with
    | none => exact ⟨hash, rfl⟩
    | some original => exact ⟨original, rfl⟩

/-- The rewriting of an extension succeeds, changes only what it must and changes nothing the second
time.  The last hypothesis is that the library reads back what it has written. -/
theorem rewriting_changes_only_what_it_must {codec : Asn1Codec} {octets : Bytes}
    (hdescription : KeyDescription encodables) (havailable : BootHashAvailable data encodables)
    (hread : codec.getInstance octets = some encodables)
    (hcodec : ∀ hacked, hackKeyDescription P env data uid encodables = some hacked →
      codec.getInstance (codec.encoded hacked) = some hacked) :
    ∃ hacked, hackKeyDescription P env data uid encodables = some hacked ∧
      hackExtension P env data uid codec octets = some (codec.encoded hacked) ∧
      ChangesOnlyWhatItMust P env data uid encodables hacked ∧
      hackExtension P env data uid codec (codec.encoded hacked) = some (codec.encoded hacked) := by
  obtain ⟨objects, hlist, hnodup⟩ := hdescription.lists (teeIndexOf encodables) (by
    obtain h | h := teeIndexOf_eq encodables <;> simp [h])
  obtain ⟨hash, hhash⟩ := boot_hash_of_available havailable
  rw [listAt_map hlist] at hhash
  obtain ⟨hacked, hhacked, hset, hagain⟩ :=
    hackKeyDescription_spec P env uid hdescription.length hlist hnodup hhash
  refine ⟨hacked, hhacked, ?_, changesOnlyWhatItMust_set hdescription.length hlist hnodup hhash hset, ?_⟩
  · rw [hackExtension, hread, Option.bind_some, hhacked, Option.map_some]
  · rw [hackExtension, hcodec hacked hhacked, Option.bind_some, hagain, Option.map_some]

end Description

/-! ## A small attestation -/

end CertificateHack

namespace Demo

/-- A key description with this enforced list. -/
def attestation (tee : List TaggedObject) : List Asn1 :=
  [.integer 4, .enumerated 1, .integer 41, .enumerated 1, .octetString [8], .octetString [],
    .sequence ([taggedObject (701, .integer 0)].map TaggedObject.toAsn1),
    .sequence (tee.map TaggedObject.toAsn1)]

/-- The enforced list of a locked device with a patch level. -/
def originalTee : List TaggedObject :=
  [taggedObject (1, .set [.integer 2]),
    taggedObject (704, .sequence [.octetString [0x21], .boolean false, .enumerated 2, .octetString [0x22]]),
    taggedObject (706, .integer 202401)]

theorem keyDescription_attestation : CertificateHack.KeyDescription (attestation originalTee) := by
  refine ⟨rfl, ?_⟩
  intro i hi
  simp only [List.mem_cons, List.not_mem_nil, or_false] at hi
  rcases hi with rfl | rfl
  · exact ⟨[taggedObject (701, .integer 0)], rfl, by decide⟩
  · exact ⟨originalTee, rfl, by decide⟩

def rewrittenTee : List TaggedObject :=
  [taggedObject (1, .set [.integer 2]), taggedObject (704, rootOfTrust [11] [0x22]),
    taggedObject (705, .integer 160000), taggedObject (706, .integer 202512)]

def originalOctets : Bytes :=
  [0x30, 0x3e, 0x02, 0x01, 0x04, 0x0a, 0x01, 0x01, 0x02, 0x01, 0x29, 0x0a, 0x01, 0x01, 0x04, 0x01,
    0x08, 0x04, 0x00, 0x30, 0x07, 0xbf, 0x85, 0x3d, 0x03, 0x02, 0x01, 0x00, 0x30, 0x22, 0xa1, 0x05,
    0x31, 0x03, 0x02, 0x01, 0x02, 0xbf, 0x85, 0x40, 0x0e, 0x30, 0x0c, 0x04, 0x01, 0x21, 0x01, 0x01,
    0x00, 0x0a, 0x01, 0x02, 0x04, 0x01, 0x22, 0xbf, 0x85, 0x42, 0x05, 0x02, 0x03, 0x03, 0x16, 0xa1]

def rewrittenOctets : Bytes :=
  [0x30, 0x47, 0x02, 0x01, 0x04, 0x0a, 0x01, 0x01, 0x02, 0x01, 0x29, 0x0a, 0x01, 0x01, 0x04, 0x01,
    0x08, 0x04, 0x00, 0x30, 0x07, 0xbf, 0x85, 0x3d, 0x03, 0x02, 0x01, 0x00, 0x30, 0x2b, 0xa1, 0x05,
    0x31, 0x03, 0x02, 0x01, 0x02, 0xbf, 0x85, 0x40, 0x0e, 0x30, 0x0c, 0x04, 0x01, 0x0b, 0x01, 0x01,
    0xff, 0x0a, 0x01, 0x00, 0x04, 0x01, 0x22, 0xbf, 0x85, 0x41, 0x05, 0x02, 0x03, 0x02, 0x71, 0x00,
    0xbf, 0x85, 0x42, 0x05, 0x02, 0x03, 0x03, 0x17, 0x10]

/-- What the library does with these two descriptions. -/
def codec : Asn1Codec where
  getInstance := fun b =>
    if b = originalOctets then some (attestation originalTee)
    else if b = rewrittenOctets then some (attestation rewrittenTee)
    else none
  encoded := fun keyDescription =>
    if (listAt keyDescription 7).any fun o => o.tagNo = 705 then rewrittenOctets else originalOctets

/-- The uid has an override for the system patch level. -/
def patchedEnv : Env := { env 7 with patchLevelOverride := fun _ => some 202512 }

end Demo

namespace CertificateHack

open Demo in
theorem rewriting_changes_only_system_patch_level :
    ∃ hacked, hackKeyDescription platform patchedEnv attestationData owner (attestation originalTee) =
        some hacked ∧
      hackExtension platform patchedEnv attestationData owner codec originalOctets =
        some (codec.encoded hacked) ∧
      ChangesOnlyWhatItMust platform patchedEnv attestationData owner (attestation originalTee) hacked ∧
      hackExtension platform patchedEnv attestationData owner codec (codec.encoded hacked) =
        some (codec.encoded hacked) := by
  refine rewriting_changes_only_what_it_must keyDescription_attestation (.inl ⟨_, _, _, [0x22], rfl⟩) rfl ?_
  intro hacked hhacked
  obtain rfl : attestation rewrittenTee = hacked := Option.some.inj (Eq.trans rfl hhacked)
  rfl

end CertificateHack

end TrickyStore
