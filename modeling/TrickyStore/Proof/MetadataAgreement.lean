import TrickyStore.Model.AttestationExtension
import TrickyStore.Model.World

/-!
# The certificate and the metadata of a forged key

`buildResponse` and `buildAttestExtension` report the same parameters in two formats.  Both are tables of
rows with distinct tags, so they are compared row by row.  Four rows have drifted apart.
-/

open Lib

namespace TrickyStore

/-! ## What the two formats report -/

/-- The number in a value; a flag is 1 when it is set. -/
def KeyParameterValue.number : KeyParameterValue → Option Int
  | .algorithm v | .blockMode v | .paddingMode v | .digest v | .ecCurve v | .origin v | .keyPurpose v
  | .integer v | .longInteger v | .dateTime v | .other _ v => some v
  | .boolValue v => some (if v then 1 else 0)
  | .blob _ => none

/-- The numbers in an element; the presence of a flag sets it. -/
def Asn1.numbers : Asn1 → List Int
  | .integer v => [v]
  | .set elements => elements.filterMap fun e => match e with
    | .integer v => some v
    | _ => none
  | .null => [1]
  | _ => []

/-- The number of a tag in the extension: the tag without the bits of its type. -/
def attestationTag (tag : Int) : ℕ := (tag % 0x10000000).toNat

def commonTags : List Int :=
  [Tag.PURPOSE, Tag.ALGORITHM, Tag.KEY_SIZE, Tag.BLOCK_MODE, Tag.DIGEST, Tag.PADDING,
    Tag.RSA_OAEP_MGF_DIGEST, Tag.CALLER_NONCE, Tag.EC_CURVE, Tag.RSA_PUBLIC_EXPONENT, Tag.ACTIVE_DATETIME,
    Tag.ORIGINATION_EXPIRE_DATETIME, Tag.USAGE_EXPIRE_DATETIME, Tag.USAGE_COUNT_LIMIT, Tag.NO_AUTH_REQUIRED,
    Tag.UNLOCKED_DEVICE_REQUIRED, Tag.ORIGIN, Tag.OS_VERSION, Tag.OS_PATCHLEVEL, Tag.VENDOR_PATCHLEVEL,
    Tag.BOOT_PATCHLEVEL]

/-- The values that the authorizations have under a tag at a security level. -/
def reported (authorizations : List Authorization) (level tag : Int) : List KeyParameterValue :=
  (authorizations.filter fun a => a.securityLevel = level ∧ a.keyParameter.tag = tag).map
    fun a => a.keyParameter.value

/-- The elements under a tag. -/
def attested (objects : List TaggedObject) (tag : Int) : List Asn1 :=
  (objects.filter fun o => o.tagNo = attestationTag tag).map TaggedObject.base

/-- The tag is in both or in neither, with the same numbers. -/
structure Agree (values : List KeyParameterValue) (elements : List Asn1) : Prop where
  contained : values ≠ [] ↔ elements ≠ []
  numbers : ∀ n, n ∈ values.filterMap KeyParameterValue.number ↔ n ∈ elements.flatMap Asn1.numbers

structure SameStory (level : SecurityLevel) (authorizations : List Authorization)
    (keyDescription : List Asn1) : Prop where
  enforced : ∀ tag ∈ commonTags,
    Agree (reported authorizations level.toInt tag) (attested (listAt keyDescription 7) tag)
  software : ∀ tag ∈ commonTags,
    Agree (reported authorizations 0 tag) (attested (listAt keyDescription 6) tag)
  ascending : Ascending TaggedObject.tagNo (listAt keyDescription 6) ∧
    Ascending TaggedObject.tagNo (listAt keyDescription 7)

/-! ## Tables -/

/-- The calls of `tee` and `sw`, with their tag, level and values. -/
def authorizationTable (P : Platform) (env : Env) (level : SecurityLevel) (params : KeyGenParameters)
    (uid : Int) : List (Int × Int × List KeyParameterValue) :=
  [(Tag.ALGORITHM, level.toInt, [.algorithm params.algorithm]),
    (Tag.PURPOSE, level.toInt, params.purpose.map .keyPurpose),
    (Tag.BLOCK_MODE, level.toInt, params.blockMode.map .blockMode),
    (Tag.DIGEST, level.toInt, params.digest.map .digest),
    (Tag.PADDING, level.toInt, params.padding.map .paddingMode),
    (Tag.RSA_OAEP_MGF_DIGEST, level.toInt, params.mgfDigest.map .digest),
    (Tag.KEY_SIZE, level.toInt,
      if effectiveKeySize params > 0 then [.integer (effectiveKeySize params)] else []),
    (Tag.EC_CURVE, level.toInt,
      if params.algorithm = Algorithm.EC ∧ params.ecCurve ≠ 0 then [.ecCurve params.ecCurve] else []),
    (Tag.RSA_PUBLIC_EXPONENT, level.toInt,
      (params.rsaPublicExponent.map fun e => .longInteger (toLong e)).toList),
    (Tag.NO_AUTH_REQUIRED, level.toInt, if params.noAuthRequired = some true then [.boolValue true] else []),
    (Tag.ORIGIN, level.toInt, [.origin (params.origin.getD 0)]),
    (Tag.OS_VERSION, level.toInt, [.integer P.osVersion]),
    (Tag.OS_PATCHLEVEL, level.toInt,
      if env.patchLevel uid ≠ DO_NOT_REPORT then [.integer (env.patchLevel uid)] else []),
    (Tag.VENDOR_PATCHLEVEL, level.toInt,
      if env.vendorPatchLevelLong uid ≠ DO_NOT_REPORT then [.integer (env.vendorPatchLevelLong uid)] else []),
    (Tag.BOOT_PATCHLEVEL, level.toInt,
      if env.bootPatchLevelLong uid ≠ DO_NOT_REPORT then [.integer (env.bootPatchLevelLong uid)] else []),
    (Tag.CREATION_DATETIME, 0, [.dateTime env.currentTimeMillis]),
    (Tag.ACTIVE_DATETIME, 0, (params.activeDateTime.map .dateTime).toList),
    (Tag.ORIGINATION_EXPIRE_DATETIME, 0, (params.originationExpireDateTime.map .dateTime).toList),
    (Tag.USAGE_EXPIRE_DATETIME, 0, (params.usageExpireDateTime.map .dateTime).toList),
    (Tag.USAGE_COUNT_LIMIT, 0, if params.usageCountLimit > 0 then [.integer params.usageCountLimit] else []),
    (Tag.UNLOCKED_DEVICE_REQUIRED, 0, (params.unlockedDeviceRequired.map .boolValue).toList),
    (Tag.CALLER_NONCE, level.toInt, if params.callerNonce = some true then [.boolValue true] else []),
    (Tag.USER_ID, 0, [.integer (uid.tdiv 100000)])]

def authorizationsOf (table : List (Int × Int × List KeyParameterValue)) : List Authorization :=
  table.flatMap fun row => row.2.2.map fun v => ⟨⟨row.1, v⟩, row.2.1⟩

theorem buildAuthorizations_eq (P : Platform) (env : Env) (level : SecurityLevel)
    (params : KeyGenParameters) (uid : Int) :
    buildAuthorizations P env level params uid =
      authorizationsOf (authorizationTable P env level params uid) := by
  have hif : ∀ (p : Prop) [Decidable p] (tag l : Int) (v : KeyParameterValue),
      ((if p then [v] else []).map fun v => (⟨⟨tag, v⟩, l⟩ : Authorization)) =
        if p then [⟨⟨tag, v⟩, l⟩] else [] := by
    intro p _ tag l v
    split_ifs <;> rfl
  have hoption : ∀ {α : Type} (o : Option α) (f : α → KeyParameterValue) (tag l : Int),
      ((o.map f).toList.map fun v => (⟨⟨tag, v⟩, l⟩ : Authorization)) =
        (o.map fun x => (⟨⟨tag, f x⟩, l⟩ : Authorization)).toList := by
    intro α o f tag l
    cases o <;> rfl
  unfold buildAuthorizations authorizationsOf authorizationTable
  simp only [List.flatMap_cons, List.flatMap_nil, hif, hoption]
  simp only [List.map_map, List.map_cons, List.map_nil, List.append_assoc, List.cons_append,
    List.nil_append, List.append_nil, Function.comp_def]

theorem reported_append (as bs : List Authorization) (level tag : Int) :
    reported (as ++ bs) level tag = reported as level tag ++ reported bs level tag := by
  unfold reported
  rw [List.filter_append, List.map_append]

theorem reported_row (vs : List KeyParameterValue) (tag tag' level level' : Int) :
    reported (vs.map fun v => ⟨⟨tag', v⟩, level'⟩) level tag =
      if level' = level ∧ tag' = tag then vs else [] := by
  unfold reported
  rw [List.filter_map, List.map_map]
  split_ifs with h
  · obtain ⟨rfl, rfl⟩ := h
    simp [Function.comp_def]
  · have hnone : ∀ v : KeyParameterValue, ¬ (level' = level ∧ tag' = tag) := fun _ => h
    simp [Function.comp_def, h]

variable {table : List (Int × Int × List KeyParameterValue)} {tag level level' : Int}
  {vs : List KeyParameterValue}

theorem reported_of_not_mem (h : tag ∉ table.map Prod.fst) : reported (authorizationsOf table) level tag = [] := by
  induction table with
  | nil => rfl
  | cons row table ih =>
    obtain ⟨hne, hrest⟩ : row.1 ≠ tag ∧ tag ∉ table.map Prod.fst := by
      simp only [List.map_cons, List.mem_cons, not_or] at h
      exact ⟨fun heq => h.1 heq.symm, h.2⟩
    rw [authorizationsOf, List.flatMap_cons, reported_append, reported_row, if_neg fun h => hne h.2]
    exact ih hrest

theorem reported_table (hnodup : (table.map Prod.fst).Nodup) (h : (tag, level', vs) ∈ table) :
    reported (authorizationsOf table) level tag = if level' = level then vs else [] := by
  induction table with
  | nil => simp at h
  | cons row table ih =>
    obtain ⟨hnot, hrest⟩ := List.nodup_cons.1 (List.map_cons ▸ hnodup)
    rw [authorizationsOf, List.flatMap_cons, reported_append, reported_row]
    rcases List.mem_cons.1 h with rfl | hmem
    · have hnil : reported (authorizationsOf table) level tag = [] := reported_of_not_mem hnot
      rw [authorizationsOf] at hnil
      rw [hnil, List.append_nil]
      simp
    · have hne : row.1 ≠ tag := by
        rintro rfl
        exact hnot (List.mem_map.2 ⟨_, hmem, rfl⟩)
      rw [if_neg fun h => hne h.2, List.nil_append]
      exact ih hrest hmem

/-- What a sorted list has under a tag is what its table has there. -/
theorem attested_perm (rows : List (ℕ × Option Asn1)) (tag : Int) :
    (attested (CertificateGen.authorizationList rows) tag).Perm (valuesAt rows (attestationTag tag)) := by
  unfold attested CertificateGen.authorizationList valuesAt
  refine (((sortBy_perm _).filter _).map _).trans (List.Perm.of_eq ?_)
  rw [List.filter_map, List.map_map]
  rfl

theorem attested_table {rows : List (ℕ × Option Asn1)} (hnodup : (rows.map Prod.fst).Nodup)
    {o : Option Asn1} (h : (attestationTag tag, o) ∈ rows) :
    attested (CertificateGen.authorizationList rows) tag = o.toList := by
  have hperm := attested_perm rows tag
  rw [valuesAt_of_mem hnodup h] at hperm
  cases o with
  | none => exact hperm.eq_nil
  | some v => exact hperm.eq_singleton

theorem attested_of_not_mem {rows : List (ℕ × Option Asn1)} (h : attestationTag tag ∉ rows.map Prod.fst) :
    attested (CertificateGen.authorizationList rows) tag = [] := by
  have hperm := attested_perm rows tag
  rw [valuesAt_of_not_mem h] at hperm
  exact hperm.eq_nil

theorem ascending_authorizationList {rows : List (ℕ × Option Asn1)} (hnodup : (rows.map Prod.fst).Nodup) :
    Ascending TaggedObject.tagNo (CertificateGen.authorizationList rows) := by
  apply ascending_sortBy
  rw [List.map_map]
  exact hnodup.sublist (present_keys_sublist rows)

/-! ## Rows -/

theorem agree_nil : Agree [] [] := ⟨iff_of_false (by simp) (by simp), by simp⟩

theorem agree_one {v : KeyParameterValue} {e : Asn1} {n : Int} (hv : v.number = some n)
    (he : e.numbers = [n]) : Agree [v] [e] :=
  ⟨iff_of_true (by simp) (by simp), by simp [hv, he]⟩

theorem agree_rowIf {p : Prop} [Decidable p] {v : KeyParameterValue} {e : Asn1} {n : Int}
    (hv : v.number = some n) (he : e.numbers = [n]) :
    Agree (if p then [v] else []) (CertificateGen.rowIf p e).toList := by
  unfold CertificateGen.rowIf
  split_ifs
  · exact agree_one hv he
  · exact agree_nil

theorem agree_option {f : Int → KeyParameterValue} (hf : ∀ n, (f n).number = some n) (o : Option Int) :
    Agree (o.map f).toList (o.map Asn1.integer).toList := by
  cases o with
  | none => exact agree_nil
  | some n => exact agree_one (hf n) rfl

theorem agree_set {f : Int → KeyParameterValue} (hf : ∀ n, (f n).number = some n) (vs : List Int) :
    Agree (vs.map f) (CertificateGen.teeSet vs).toList := by
  unfold CertificateGen.teeSet
  by_cases hvs : vs = []
  · rw [if_pos hvs, hvs]
    exact agree_nil
  · rw [if_neg hvs]
    refine ⟨iff_of_true (by simpa using hvs) (by simp), fun n => ?_⟩
    simp [hf, Asn1.numbers, List.filterMap_map]

/-! ## The comparison -/

/-- The parameters of the rows that have drifted apart. -/
structure Undrifted (params : KeyGenParameters) (attestationVersion : Int) : Prop where
  callerNonce : params.callerNonce ≠ some true
  mgfDigest : params.mgfDigest = [] ∨ 100 ≤ attestationVersion
  rsaPublicExponent : ∀ e, params.rsaPublicExponent = some e → params.algorithm = Algorithm.RSA ∧ toLong e = e
  unlockedDeviceRequired : params.unlockedDeviceRequired ≠ some false

section Rows

variable {P : Platform} {env : Env} {data : AttestationData} {level : SecurityLevel}
  {params : KeyGenParameters} {uid : Int}

theorem agree_callerNonce :
    Agree (if params.callerNonce = some true then [.boolValue true] else []) [] ↔
      params.callerNonce ≠ some true := by
  split_ifs with h
  · exact iff_of_false (fun hagree => by simpa using hagree.contained) (fun hne => hne h)
  · exact iff_of_true agree_nil h

theorem agree_mgfDigest {attestationVersion : Int} :
    Agree (params.mgfDigest.map .digest)
        (if attestationVersion ≥ 100 then CertificateGen.teeSet params.mgfDigest else none).toList ↔
      params.mgfDigest = [] ∨ 100 ≤ attestationVersion := by
  by_cases hversion : 100 ≤ attestationVersion
  · rw [if_pos hversion]
    exact iff_of_true (agree_set (fun _ => rfl) _) (.inr hversion)
  · rw [if_neg hversion]
    by_cases hnil : params.mgfDigest = []
    · rw [hnil]
      exact iff_of_true agree_nil (.inl rfl)
    · refine iff_of_false (fun hagree => ?_) (by simp [hnil, hversion])
      simpa [hnil] using hagree.contained

theorem agree_rsaPublicExponent :
    Agree (params.rsaPublicExponent.map fun e => .longInteger (toLong e)).toList
        (if params.algorithm = Algorithm.RSA then params.rsaPublicExponent.map Asn1.integer else none).toList ↔
      ∀ e, params.rsaPublicExponent = some e → params.algorithm = Algorithm.RSA ∧ toLong e = e := by
  cases params.rsaPublicExponent with
  | none => exact iff_of_true (by simpa using agree_nil) (by simp)
  | some e =>
    by_cases hrsa : params.algorithm = Algorithm.RSA
    · rw [if_pos hrsa]
      constructor
      · intro hagree e' he'
        obtain rfl := Option.some.inj he'
        have hnumbers := hagree.numbers (toLong e)
        simp [KeyParameterValue.number, Asn1.numbers] at hnumbers
        exact ⟨hrsa, hnumbers⟩
      · intro h
        have hlong : Agree [.longInteger (toLong e)] [.integer (toLong e)] := agree_one rfl rfl
        simpa only [(h e rfl).2, Option.map_some, Option.toList_some] using hlong
    · rw [if_neg hrsa]
      refine iff_of_false (fun hagree => ?_) (fun h => hrsa (h e rfl).1)
      simpa using hagree.contained

theorem agree_unlockedDeviceRequired :
    Agree (params.unlockedDeviceRequired.map .boolValue).toList
        (CertificateGen.rowIf (params.unlockedDeviceRequired = some true) .null).toList ↔
      params.unlockedDeviceRequired ≠ some false := by
  cases params.unlockedDeviceRequired with
  | none => exact iff_of_true (by simpa [CertificateGen.rowIf] using agree_nil) (by simp)
  | some b =>
    cases b with
    | true => exact iff_of_true (agree_one rfl rfl) (by simp)
    | false =>
      refine iff_of_false (fun hagree => ?_) (by simp)
      simpa [CertificateGen.rowIf] using hagree.contained

theorem authorizationTable_keys : (authorizationTable P env level params uid).map Prod.fst =
    [Tag.ALGORITHM, Tag.PURPOSE, Tag.BLOCK_MODE, Tag.DIGEST, Tag.PADDING, Tag.RSA_OAEP_MGF_DIGEST, Tag.KEY_SIZE,
      Tag.EC_CURVE, Tag.RSA_PUBLIC_EXPONENT, Tag.NO_AUTH_REQUIRED, Tag.ORIGIN, Tag.OS_VERSION,
      Tag.OS_PATCHLEVEL, Tag.VENDOR_PATCHLEVEL, Tag.BOOT_PATCHLEVEL, Tag.CREATION_DATETIME,
      Tag.ACTIVE_DATETIME, Tag.ORIGINATION_EXPIRE_DATETIME, Tag.USAGE_EXPIRE_DATETIME,
      Tag.USAGE_COUNT_LIMIT, Tag.UNLOCKED_DEVICE_REQUIRED, Tag.CALLER_NONCE, Tag.USER_ID] := rfl

theorem teeTable_keys {attestationVersion : Int} {hash : Bytes} :
    (CertificateGen.teeTable P env data params uid attestationVersion hash).map Prod.fst =
      [1, 2, 3, 5, 503, 1005, 702, 704, 705, 706, 718, 719, 4, 6, 203, 10, 200, 710, 711, 712, 716, 717, 713,
        714, 715, 723] := rfl

theorem swTable_keys {attestationVersion : Int} {applicationId : Option Bytes} :
    (CertificateGen.swTable env data params attestationVersion applicationId).map Prod.fst =
      [701, 400, 401, 402, 405, 509, 709, 724] := rfl

/-- What the authorizations have under a tag, read off its row. -/
theorem reported_row_at {l : Int} (i : ℕ)
    (h : (authorizationTable P env level params uid)[i]? = some (tag, level', vs)) :
    reported (buildAuthorizations P env level params uid) l tag = if level' = l then vs else [] := by
  rw [buildAuthorizations_eq]
  apply reported_table _ (List.mem_of_getElem? h)
  rw [authorizationTable_keys]
  decide

/-- A row of the other level agrees with a table that does not have its tag. -/
theorem agree_absent {l : Int} (i : ℕ)
    (h : (authorizationTable P env level params uid)[i]? = some (tag, level', vs)) (hlevel : level' ≠ l)
    {rows : List (ℕ × Option Asn1)} (hrows : attestationTag tag ∉ rows.map Prod.fst) :
    Agree (reported (buildAuthorizations P env level params uid) l tag)
      (attested (CertificateGen.authorizationList rows) tag) := by
  rw [reported_row_at i h, if_neg hlevel, attested_of_not_mem hrows]
  exact agree_nil

theorem attested_tee_at {attestationVersion : Int} {hash : Bytes} {o : Option Asn1} (i : ℕ)
    (h : (CertificateGen.teeTable P env data params uid attestationVersion hash)[i]? =
      some (attestationTag tag, o)) :
    attested (CertificateGen.authorizationList
      (CertificateGen.teeTable P env data params uid attestationVersion hash)) tag = o.toList := by
  apply attested_table _ (List.mem_of_getElem? h)
  rw [teeTable_keys]
  decide

theorem attested_sw_at {attestationVersion : Int} {applicationId : Option Bytes} {o : Option Asn1} (i : ℕ)
    (h : (CertificateGen.swTable env data params attestationVersion applicationId)[i]? =
      some (attestationTag tag, o)) :
    attested (CertificateGen.authorizationList
      (CertificateGen.swTable env data params attestationVersion applicationId)) tag = o.toList := by
  apply attested_table _ (List.mem_of_getElem? h)
  rw [swTable_keys]
  decide

theorem enforced_iff {attestationVersion : Int} {hash : Bytes} :
    (∀ tag ∈ commonTags, Agree (reported (buildAuthorizations P env level params uid) level.toInt tag)
      (attested (CertificateGen.authorizationList
        (CertificateGen.teeTable P env data params uid attestationVersion hash)) tag)) ↔
      params.callerNonce ≠ some true ∧ (params.mgfDigest = [] ∨ 100 ≤ attestationVersion) ∧
        ∀ e, params.rsaPublicExponent = some e → params.algorithm = Algorithm.RSA ∧ toLong e = e := by
  have hlevel : (0 : Int) ≠ level.toInt := by
    cases level <;> decide
  constructor
  · intro h
    refine ⟨?_, ?_, ?_⟩
    · have hagree := h Tag.CALLER_NONCE (by simp [commonTags])
      rw [reported_row_at 21 rfl, if_pos rfl, attested_of_not_mem (by rw [teeTable_keys]; decide)] at hagree
      exact agree_callerNonce.1 hagree
    · have hagree := h Tag.RSA_OAEP_MGF_DIGEST (by simp [commonTags])
      rw [reported_row_at 5 rfl, if_pos rfl, attested_tee_at 14 rfl] at hagree
      exact agree_mgfDigest.1 hagree
    · have hagree := h Tag.RSA_PUBLIC_EXPONENT (by simp [commonTags])
      rw [reported_row_at 8 rfl, if_pos rfl, attested_tee_at 16 rfl] at hagree
      exact agree_rsaPublicExponent.1 hagree
  · rintro ⟨hnonce, hmgf, hrsa⟩ tag htag
    simp only [commonTags, List.mem_cons, List.not_mem_nil, or_false] at htag
    rcases htag with rfl | rfl | rfl | rfl | rfl | rfl | rfl | rfl | rfl | rfl | rfl | rfl | rfl | rfl |
      rfl | rfl | rfl | rfl | rfl | rfl | rfl
    · rw [reported_row_at 1 rfl, if_pos rfl, attested_tee_at 0 rfl]
      exact agree_set (fun _ => rfl) _
    · rw [reported_row_at 0 rfl, if_pos rfl, attested_tee_at 1 rfl]
      exact agree_one rfl rfl
    · rw [reported_row_at 6 rfl, if_pos rfl, attested_tee_at 2 rfl]
      exact agree_rowIf rfl rfl
    · rw [reported_row_at 2 rfl, if_pos rfl, attested_tee_at 12 rfl]
      exact agree_set (fun _ => rfl) _
    · rw [reported_row_at 3 rfl, if_pos rfl, attested_tee_at 3 rfl]
      exact agree_set (fun _ => rfl) _
    · rw [reported_row_at 4 rfl, if_pos rfl, attested_tee_at 13 rfl]
      exact agree_set (fun _ => rfl) _
    · rw [reported_row_at 5 rfl, if_pos rfl, attested_tee_at 14 rfl]
      exact agree_mgfDigest.2 hmgf
    · rw [reported_row_at 21 rfl, if_pos rfl, attested_of_not_mem (by rw [teeTable_keys]; decide)]
      exact agree_callerNonce.2 hnonce
    · rw [reported_row_at 7 rfl, if_pos rfl, attested_tee_at 15 rfl]
      exact agree_rowIf rfl rfl
    · rw [reported_row_at 8 rfl, if_pos rfl, attested_tee_at 16 rfl]
      exact agree_rsaPublicExponent.2 hrsa
    · exact agree_absent 16 rfl hlevel (by rw [teeTable_keys]; decide)
    · exact agree_absent 17 rfl hlevel (by rw [teeTable_keys]; decide)
    · exact agree_absent 18 rfl hlevel (by rw [teeTable_keys]; decide)
    · exact agree_absent 19 rfl hlevel (by rw [teeTable_keys]; decide)
    · rw [reported_row_at 9 rfl, if_pos rfl, attested_tee_at 4 rfl]
      exact agree_rowIf rfl rfl
    · exact agree_absent 20 rfl hlevel (by rw [teeTable_keys]; decide)
    · rw [reported_row_at 10 rfl, if_pos rfl, attested_tee_at 6 rfl]
      exact agree_one rfl rfl
    · rw [reported_row_at 11 rfl, if_pos rfl, attested_tee_at 8 rfl]
      exact agree_one rfl rfl
    · rw [reported_row_at 12 rfl, if_pos rfl, attested_tee_at 9 rfl]
      exact agree_rowIf rfl rfl
    · rw [reported_row_at 13 rfl, if_pos rfl, attested_tee_at 10 rfl]
      exact agree_rowIf rfl rfl
    · rw [reported_row_at 14 rfl, if_pos rfl, attested_tee_at 11 rfl]
      exact agree_rowIf rfl rfl

theorem software_iff {attestationVersion : Int} {applicationId : Option Bytes} :
    (∀ tag ∈ commonTags, Agree (reported (buildAuthorizations P env level params uid) 0 tag)
      (attested (CertificateGen.authorizationList
        (CertificateGen.swTable env data params attestationVersion applicationId)) tag)) ↔
      params.unlockedDeviceRequired ≠ some false := by
  have hlevel : level.toInt ≠ 0 := by
    cases level <;> decide
  constructor
  · intro h
    have hagree := h Tag.UNLOCKED_DEVICE_REQUIRED (by simp [commonTags])
    rw [reported_row_at 20 rfl, if_pos rfl, attested_sw_at 5 rfl] at hagree
    exact agree_unlockedDeviceRequired.1 hagree
  · intro h tag htag
    simp only [commonTags, List.mem_cons, List.not_mem_nil, or_false] at htag
    rcases htag with rfl | rfl | rfl | rfl | rfl | rfl | rfl | rfl | rfl | rfl | rfl | rfl | rfl | rfl |
      rfl | rfl | rfl | rfl | rfl | rfl | rfl
    · exact agree_absent 1 rfl hlevel (by rw [swTable_keys]; decide)
    · exact agree_absent 0 rfl hlevel (by rw [swTable_keys]; decide)
    · exact agree_absent 6 rfl hlevel (by rw [swTable_keys]; decide)
    · exact agree_absent 2 rfl hlevel (by rw [swTable_keys]; decide)
    · exact agree_absent 3 rfl hlevel (by rw [swTable_keys]; decide)
    · exact agree_absent 4 rfl hlevel (by rw [swTable_keys]; decide)
    · exact agree_absent 5 rfl hlevel (by rw [swTable_keys]; decide)
    · exact agree_absent 21 rfl hlevel (by rw [swTable_keys]; decide)
    · exact agree_absent 7 rfl hlevel (by rw [swTable_keys]; decide)
    · exact agree_absent 8 rfl hlevel (by rw [swTable_keys]; decide)
    · rw [reported_row_at 16 rfl, if_pos rfl, attested_sw_at 1 rfl]
      exact agree_option (fun _ => rfl) _
    · rw [reported_row_at 17 rfl, if_pos rfl, attested_sw_at 2 rfl]
      exact agree_option (fun _ => rfl) _
    · rw [reported_row_at 18 rfl, if_pos rfl, attested_sw_at 3 rfl]
      exact agree_option (fun _ => rfl) _
    · rw [reported_row_at 19 rfl, if_pos rfl, attested_sw_at 4 rfl]
      exact agree_rowIf rfl rfl
    · exact agree_absent 9 rfl hlevel (by rw [swTable_keys]; decide)
    · rw [reported_row_at 20 rfl, if_pos rfl, attested_sw_at 5 rfl]
      exact agree_unlockedDeviceRequired.2 h
    · exact agree_absent 10 rfl hlevel (by rw [swTable_keys]; decide)
    · exact agree_absent 11 rfl hlevel (by rw [swTable_keys]; decide)
    · exact agree_absent 12 rfl hlevel (by rw [swTable_keys]; decide)
    · exact agree_absent 13 rfl hlevel (by rw [swTable_keys]; decide)
    · exact agree_absent 14 rfl hlevel (by rw [swTable_keys]; decide)

end Rows

/-! ## Reported and attested authorizations agree -/

section Extension

variable {P : Platform} {env : Env} {data : AttestationData} {params : KeyGenParameters}
  {uid securityLevel : Int} {keyDescription : List Asn1}

/-- The two lists of an extension. -/
theorem listAt_extension
    (h : CertificateGen.buildAttestExtension P env data params uid securityLevel = some keyDescription) :
    ∃ hash applicationId,
      listAt keyDescription 6 = CertificateGen.authorizationList
        (CertificateGen.swTable env data params (data.attestationVersions securityLevel).1 applicationId) ∧
      listAt keyDescription 7 = CertificateGen.authorizationList
        (CertificateGen.teeTable P env data params uid (data.attestationVersions securityLevel).1 hash) := by
  simp only [CertificateGen.buildAttestExtension, Option.bind_eq_bind, Option.bind_eq_some_iff] at h
  obtain ⟨hash, -, applicationId, -, uniqueId, -, hkey⟩ := h
  obtain rfl := Option.some.inj hkey
  exact ⟨hash, applicationId, listAt_map rfl, listAt_map rfl⟩

theorem buildResponse_authorizations (P : Platform) (env : Env) (level : SecurityLevel)
    (chain : List Certificate) (params : KeyGenParameters) (nspace uid : Int) (serial : ℕ) :
    (buildResponse P env level chain params nspace uid serial).metadata.authorizations =
      some (buildAuthorizations P env level params uid) := by
  cases chain with
  | nil => rfl
  | cons leaf rest => cases rest <;> rfl

/-- The certificate and the metadata of a forged key tell the same story just when none of the four
drifted rows matters. -/
theorem same_story_iff {level : SecurityLevel} (chain : List Certificate) (nspace : Int) (serial : ℕ)
    (h : CertificateGen.buildAttestExtension P env data params uid level.toInt = some keyDescription) :
    SameStory level
        ((buildResponse P env level chain params nspace uid serial).metadata.authorizations.getD [])
        keyDescription ↔
      Undrifted params (data.attestationVersions level.toInt).1 := by
  obtain ⟨hash, applicationId, hsw, htee⟩ := listAt_extension h
  rw [buildResponse_authorizations, Option.getD_some]
  constructor
  · rintro ⟨henforced, hsoftware, -⟩
    rw [htee] at henforced
    rw [hsw] at hsoftware
    obtain ⟨hnonce, hmgf, hrsa⟩ := enforced_iff.1 henforced
    exact ⟨hnonce, hmgf, hrsa, software_iff.1 hsoftware⟩
  · intro hundrifted
    refine ⟨?_, ?_, ?_⟩
    · rw [htee]
      exact enforced_iff.2 ⟨hundrifted.callerNonce, hundrifted.mgfDigest, hundrifted.rsaPublicExponent⟩
    · rw [hsw]
      exact software_iff.2 hundrifted.unlockedDeviceRequired
    · rw [hsw, htee]
      refine ⟨ascending_authorizationList ?_, ascending_authorizationList ?_⟩
      · rw [swTable_keys]
        decide
      · rw [teeTable_keys]
        decide

end Extension

open Demo in
theorem same_story_of_signing_key : ∃ keyDescription,
    CertificateGen.buildAttestExtension platform (env 7) attestationData
      (KeyGenParameters.ofParams platform.x500Name ecParams) owner SecurityLevel.trustedEnvironment.toInt =
        some keyDescription ∧
    (SameStory .trustedEnvironment ((buildResponse platform (env 7) .trustedEnvironment [⟨[3]⟩]
      (KeyGenParameters.ofParams platform.x500Name ecParams) 7 owner 0).metadata.authorizations.getD [])
      keyDescription ↔ Undrifted (KeyGenParameters.ofParams platform.x500Name ecParams)
        (attestationData.attestationVersions SecurityLevel.trustedEnvironment.toInt).1) := by
  refine ⟨_, rfl, same_story_iff [⟨[3]⟩] 7 0 ?_⟩
  rfl

open Demo in
/-- A key with `CALLER_NONCE`: the certificate has the tag of a confirmation token in its place. -/
theorem caller_nonce_drifts : ¬ ∀ params keyDescription,
    CertificateGen.buildAttestExtension platform (env 7) attestationData params owner 1 =
      some keyDescription →
    SameStory .trustedEnvironment ((buildResponse platform (env 7) .trustedEnvironment [⟨[3]⟩] params 7
      owner 0).metadata.authorizations.getD []) keyDescription := by
  intro h
  let params : KeyGenParameters :=
    { algorithm := Algorithm.AES, keySize := 256, purpose := [KeyPurpose.ENCRYPT], callerNonce := some true }
  have hstory := (h params _ rfl).enforced Tag.CALLER_NONCE (by simp [commonTags])
  rw [buildResponse_authorizations, Option.getD_some, listAt_map rfl,
    reported_row_at 21 rfl, if_pos rfl, attested_of_not_mem (by rw [teeTable_keys]; decide)] at hstory
  exact agree_callerNonce.1 hstory rfl

end TrickyStore
