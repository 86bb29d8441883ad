import TrickyStore.Model.AttestData
import TrickyStore.Proof.AttestationRewrite
import TrickyStore.Proof.MetadataAgreement

/-!
# Reading attestations back

The daemon's own reader sees of a forged attestation what it was built with, and of a re-signed one what
was changed, if the enforced list stands where the reader looks for it.
-/

open Lib

namespace TrickyStore

namespace AttestUtils

/-! ## The elements that matter -/

theorem foldlM_filter {α β : Type*} {f : β → α → Option β} {p : α → Bool}
    (h : ∀ b a, p a = false → f b a = some b) (l : List α) (b : β) :
    l.foldlM f b = (l.filter p).foldlM f b := by
  induction l generalizing b with
  | nil => rfl
  | cons a l ih =>
    rw [List.foldlM_cons, List.filter_cons]
    cases hp : p a with
    | true =>
      rw [if_pos rfl, List.foldlM_cons]
      exact congrArg _ (funext ih)
    | false =>
      rw [h b a hp, if_neg Bool.false_ne_true]
      exact ih b

section Elements

variable {objects : List TaggedObject} {bootKey hash : Bytes} {v : Int}

theorem foldlM_teeElement (vars : TeeVariables) :
    (objects.map TaggedObject.toAsn1).foldlM teeElement vars =
      (objects.filter fun o => o.tagNo = 704 || o.tagNo = 705).foldlM (fun vars o => teeElement vars o.toAsn1)
        vars := by
  rw [List.foldlM_map]
  refine foldlM_filter (fun vars o h => ?_) objects vars
  rw [Bool.or_eq_false_iff, decide_eq_false_iff_not, decide_eq_false_iff_not] at h
  simp [teeElement, h.1, h.2]

theorem foldlM_swElement (moduleHash : Option Bytes) :
    (objects.map TaggedObject.toAsn1).foldlM swElement moduleHash =
      (objects.filter fun o => o.tagNo = 724).foldlM (fun hash o => swElement hash o.toAsn1) moduleHash := by
  rw [List.foldlM_map]
  refine foldlM_filter (fun hash o h => ?_) objects moduleHash
  rw [decide_eq_false_iff_not] at h
  simp [swElement, h]

/-- An ascending list with one root of trust and one version is read as these. -/
theorem foldlM_teeElement_eq (hascending : Ascending TaggedObject.tagNo objects)
    (hroot : objects.filter (fun o => o.tagNo = 704) = [taggedObject (704, rootOfTrust bootKey hash)])
    (hversion : objects.filter (fun o => o.tagNo = 705) = [taggedObject (705, .integer v)]) :
    (objects.map TaggedObject.toAsn1).foldlM teeElement {} =
      some ⟨some bootKey, some hash, some (toInt v)⟩ := by
  have hboth : (objects.filter fun o => o.tagNo = 704 || o.tagNo = 705) =
      [taggedObject (704, rootOfTrust bootKey hash), taggedObject (705, .integer v)] := by
    apply Ascending.ext (hascending.filter _)
    · apply List.pairwise_pair.2
      show 704 < 705
      decide
    · intro o
      have hone := congrArg (o ∈ ·) hroot
      have htwo := congrArg (o ∈ ·) hversion
      simp only [List.mem_filter, List.mem_singleton, decide_eq_true_eq, eq_iff_iff] at hone htwo
      rw [List.mem_filter, Bool.or_eq_true, decide_eq_true_eq, decide_eq_true_eq, and_or_left, hone, htwo]
      simp
  rw [foldlM_teeElement, hboth]
  rfl

end Elements

/-! ## Forged attestations -/

section Forged

variable {P : Platform} {env : Env} {data : TrickyStore.AttestationData} {params : KeyGenParameters}
  {uid securityLevel : Int} {keyDescription : List Asn1}

theorem filter_authorizationList {rows : List (ℕ × Option Asn1)} (hnodup : (rows.map Prod.fst).Nodup) {t : ℕ}
    {o : Option Asn1} (h : (t, o) ∈ rows) :
    (CertificateGen.authorizationList rows).filter (fun object => object.tagNo = t) =
      (o.map fun base => taggedObject (t, base)).toList := by
  have hpresent : ((present rows).filter fun row => row.1 = t) = (o.map fun base => (t, base)).toList := by
    have hvalues := valuesAt_of_mem hnodup h
    have hkeys : ∀ row ∈ (present rows).filter (fun row => row.1 = t), row = (t, row.2) := by
      intro row hrow
      rw [← of_decide_eq_true (List.mem_filter.1 hrow).2]
    calc ((present rows).filter fun row => row.1 = t)
        = ((present rows).filter fun row => row.1 = t).map fun row => (t, row.2) :=
          (List.map_id' _).symm.trans (List.map_congr_left hkeys)
      _ = (valuesAt rows t).map fun base => (t, base) := by
          rw [valuesAt, List.map_map]
          rfl
      _ = (o.map fun base => (t, base)).toList := by
          rw [hvalues]
          cases o <;> rfl
  have hperm : ((CertificateGen.authorizationList rows).filter (fun object => object.tagNo = t)).Perm
      (((present rows).filter fun row => row.1 = t).map taggedObject) := by
    refine ((sortBy_perm _).filter _).trans (List.Perm.of_eq ?_)
    rw [List.filter_map]
    rfl
  rw [hpresent] at hperm
  cases o with
  | none => exact hperm.eq_nil
  | some base => exact hperm.eq_singleton

/-- Whatever was asked for and whatever the device is, the reader finds in a forged attestation the boot
key, the boot hash, the versions and the module hash that it was built with, in 32 bits. -/
theorem parse_forged (h : CertificateGen.buildAttestExtension P env data params uid securityLevel =
    some keyDescription) :
    parseKeyDescription keyDescription = some {
      verifiedBootKey := some data.bootKey
      verifiedBootHash := data.getBootHashFromProp
      attestVersion := some (toInt (data.attestationVersions securityLevel).1)
      keymasterVersion := some (toInt (data.attestationVersions securityLevel).2)
      osVersion := some (toInt P.osVersion)
      moduleHash := if (data.attestationVersions securityLevel).1 ≥ 400 then some data.moduleHash else none } := by
  simp only [CertificateGen.buildAttestExtension, Option.bind_eq_bind, Option.bind_eq_some_iff] at h
  obtain ⟨hash, hhash, applicationId, -, uniqueId, -, hkey⟩ := h
  obtain rfl := Option.some.inj hkey
  set version := (data.attestationVersions securityLevel).1
  have htee : ((CertificateGen.teeTable P env data params uid version hash).map Prod.fst).Nodup := by
    rw [teeTable_keys]
    decide
  have hsw : ((CertificateGen.swTable env data params version applicationId).map Prod.fst).Nodup := by
    rw [swTable_keys]
    decide
  have hvars := foldlM_teeElement_eq (ascending_authorizationList htee)
    (filter_authorizationList htee (List.mem_of_getElem? (i := 7) rfl))
    (filter_authorizationList htee (List.mem_of_getElem? (i := 8) rfl))
  have hmodule := filter_authorizationList hsw (List.mem_of_getElem? (i := 7) rfl)
  have hfound : ((CertificateGen.authorizationList
      (CertificateGen.swTable env data params version applicationId)).map TaggedObject.toAsn1).foldlM swElement
        none = some (if version ≥ 400 then some data.moduleHash else none) := by
    rw [foldlM_swElement, hmodule, CertificateGen.rowIf]
    split_ifs <;> rfl
  simp only [parseKeyDescription, List.getElem?_cons_zero, List.getElem?_cons_succ, Option.bind_eq_bind,
    Option.bind_some, Asn1.asInteger, Asn1.asSequence, hvars, Option.getD_some, hfound, hhash]
  rfl

end Forged

open Demo in
theorem parse_forged_signing_key : ∃ keyDescription,
    CertificateGen.buildAttestExtension platform (env 7) attestationData
      (KeyGenParameters.ofParams platform.x500Name ecParams) owner 1 = some keyDescription ∧
    parseKeyDescription keyDescription = some {
      verifiedBootKey := some attestationData.bootKey
      verifiedBootHash := attestationData.getBootHashFromProp
      attestVersion := some (toInt (attestationData.attestationVersions 1).1)
      keymasterVersion := some (toInt (attestationData.attestationVersions 1).2)
      osVersion := some (toInt platform.osVersion)
      moduleHash :=
        if (attestationData.attestationVersions 1).1 ≥ 400 then some attestationData.moduleHash else none } := by
  have hbuilt : CertificateGen.buildAttestExtension platform (env 7) attestationData
      (KeyGenParameters.ofParams platform.x500Name ecParams) owner 1 = some _ := rfl
  exact ⟨_, hbuilt, parse_forged hbuilt⟩

/-! ## Re-signed attestations -/

section Resigned

variable {P : Platform} {env : Env} {data : TrickyStore.AttestationData} {uid : Int}
  {encodables hacked : List Asn1} {objects : List TaggedObject} {vars : TeeVariables} {d : AttestationData}

theorem asOctetString_eq (o : Asn1) : o.asOctetString = o.getByteArrayFromAsn1 := by
  cases o <;> rfl

/-- A root of trust with four elements gives its hash, another element none. -/
theorem teeElement_bootHash {o : TaggedObject} {vars vars' : TeeVariables}
    (h : teeElement vars o.toAsn1 = some vars') :
    vars'.attestVerifiedBootHash =
      if o.tagNo = 704 then (CertificateHack.originalBootHash (some o.base)).or vars.attestVerifiedBootHash
      else vars.attestVerifiedBootHash := by
  simp only [teeElement, TaggedObject.asTagged_toAsn1, Option.bind_eq_bind, Option.bind_some] at h
  by_cases hroot : o.tagNo = 704
  · rw [if_pos hroot] at h ⊢
    cases hbase : o.base with
    | sequence elements =>
      simp only [rootOfTrustElement, hbase, Asn1.asSequence, Option.bind_eq_bind, Option.bind_some] at h
      rw [CertificateHack.originalBootHash]
      split_ifs at h with hlength
      · obtain ⟨key, -, h⟩ := Option.bind_eq_some_iff.1 h
        obtain ⟨hash, hhash, h⟩ := Option.bind_eq_some_iff.1 h
        obtain rfl := Option.some.inj h
        rw [funext asOctetString_eq] at hhash
        rw [hhash, Option.some_or]
      · obtain rfl := Option.some.inj h
        rw [List.getElem?_eq_none (by omega)]
        rfl
    | _ =>
      rw [rootOfTrustElement, hbase] at h
      cases h
  · rw [if_neg hroot] at h ⊢
    split_ifs at h
    · obtain ⟨v, -, h⟩ := Option.bind_eq_some_iff.1 h
      obtain rfl := Option.some.inj h
      rfl
    · obtain rfl := Option.some.inj h
      rfl

/-- The last root of trust with a hash is the one that counts. -/
theorem foldlM_bootHash {vars' : TeeVariables}
    (h : (objects.map TaggedObject.toAsn1).foldlM teeElement vars = some vars') :
    vars'.attestVerifiedBootHash =
      (((objects.filter fun o => o.tagNo = 704).filterMap fun o =>
        CertificateHack.originalBootHash (some o.base)).getLast?).or vars.attestVerifiedBootHash := by
  induction objects generalizing vars with
  | nil =>
    obtain rfl := Option.some.inj h
    rfl
  | cons o objects ih =>
    rw [List.map_cons, List.foldlM_cons] at h
    obtain ⟨next, hnext, h⟩ := Option.bind_eq_some_iff.1 h
    rw [ih h, teeElement_bootHash hnext, List.filter_cons]
    by_cases hroot : o.tagNo = 704
    · rw [if_pos hroot, if_pos (decide_eq_true hroot), List.filterMap_cons]
      cases CertificateHack.originalBootHash (some o.base) with
      | none => rfl
      | some hash =>
        rw [List.getLast?_cons, Option.some_or]
        cases (List.filterMap _ _).getLast? <;> rfl
    · rw [if_neg hroot, if_neg (by simp [hroot])]

/-- The hash that a list without repetitions is read with is that of its root of trust. -/
theorem bootHash_of_parsed (hnodup : (objects.map TaggedObject.tagNo).Nodup)
    (h : (objects.map TaggedObject.toAsn1).foldlM teeElement {} = some vars) :
    vars.attestVerifiedBootHash = CertificateHack.originalBootHash (CertificateHack.rootOfTrustIn objects) := by
  have hascending := ascending_filter hnodup 704
  have htag : ∀ o ∈ objects.filter (fun o => o.tagNo = 704), o.tagNo = 704 := fun o ho =>
    of_decide_eq_true (List.mem_filter.1 ho).2
  rw [foldlM_bootHash h, CertificateHack.rootOfTrustIn]
  generalize objects.filter (fun o => o.tagNo = 704) = roots at *
  rcases roots with _ | ⟨o, _ | ⟨o', roots⟩⟩
  · rfl
  · have hlast : [o].getLast?.map TaggedObject.base = some o.base := rfl
    rw [hlast, List.filterMap_cons]
    cases CertificateHack.originalBootHash (some o.base) <;> rfl
  · have hlt := (List.pairwise_cons.1 hascending).1 o' List.mem_cons_self
    rw [htag o List.mem_cons_self, htag o' (List.mem_cons_of_mem _ List.mem_cons_self)] at hlt
    omega

/-- The reader finds in a re-signed attestation the boot key and the OS version that it was rewritten
with, its own boot hash if it had one, and all else as it was; but if the two lists were swapped it finds
what it found before. -/
theorem parse_resigned (hdescription : CertificateHack.KeyDescription encodables)
    (hparse : parseKeyDescription encodables = some d)
    (hhacked : CertificateHack.hackKeyDescription P env data uid encodables = some hacked) :
    parseKeyDescription hacked = some (
      if CertificateHack.teeIndexOf encodables = 7 then
        { d with
          verifiedBootKey := some data.bootKey
          verifiedBootHash := d.verifiedBootHash.or data.getBootHashFromProp
          osVersion := some (toInt P.osVersion) }
      else d) := by
  have hlength := hdescription.length
  obtain ⟨tee, htee, hteeNodup⟩ := hdescription.lists 7 (by decide)
  obtain ⟨sw, hsw, hswNodup⟩ := hdescription.lists 6 (by decide)
  have hothers (l : List TaggedObject) (hl : (l.map TaggedObject.tagNo).Nodup) :
      ((l.filter fun o => o.tagNo ≠ 704).map TaggedObject.tagNo).Nodup :=
    hl.sublist (List.filter_sublist.map _)
  simp only [parseKeyDescription, htee, hsw, Option.bind_eq_bind, Option.bind_some, Asn1.asSequence,
    Option.getD_some, Option.bind_eq_some_iff] at hparse
  obtain ⟨version, ⟨e₀, he₀, hversion⟩, keymaster, ⟨e₂, he₂, hkeymaster⟩, vars, hvars, moduleHash, hmodule, hd⟩ :=
    hparse
  obtain rfl := Option.some.inj hd
  obtain hindex | hindex := CertificateHack.teeIndexOf_eq encodables
  · -- what was rewritten is the list that is only searched for a module hash
    rw [CertificateHack.hackKeyDescription_eq (by omega) (hindex ▸ hsw), hindex] at hhacked
    obtain ⟨hash, -, rfl⟩ := Option.map_eq_some_iff.1 hhacked
    have hsame : ((CertificateHack.rebuilt P env data uid (sw.filter fun o => o.tagNo ≠ 704) hash).map
        TaggedObject.toAsn1).foldlM swElement none = some moduleHash := by
      rw [foldlM_swElement,
        CertificateHack.filter_rebuilt_kept (hothers sw hswNodup) (by simp [CertificateHack.isStripped]),
        CertificateHack.filter_others (by decide), ← foldlM_swElement, hmodule]
    rw [if_neg (by omega)]
    simp only [parseKeyDescription, List.getElem?_set_ne (show 6 ≠ 0 by decide),
      List.getElem?_set_ne (show 6 ≠ 2 by decide), List.getElem?_set_ne (show 6 ≠ 7 by decide),
      List.getElem?_set_self (show 6 < encodables.length by omega), he₀, he₂, htee, hversion, hkeymaster,
      Option.bind_eq_bind, Option.bind_some, Asn1.asSequence, Option.getD_some, hvars, hsame]
    rfl
  · rw [CertificateHack.hackKeyDescription_eq (by omega) (hindex ▸ htee), hindex] at hhacked
    obtain ⟨hash, hhash, rfl⟩ := Option.map_eq_some_iff.1 hhacked
    have hascending : Ascending TaggedObject.tagNo
        (CertificateHack.rebuilt P env data uid (tee.filter fun o => o.tagNo ≠ 704) hash) :=
      CertificateHack.ascending_rebuilt (hothers tee hteeNodup)
    have hrebuilt := foldlM_teeElement_eq hascending
      (CertificateHack.filter_rebuilt_rootOfTrust (hothers tee hteeNodup))
      (CertificateHack.filter_rebuilt_added (hothers tee hteeNodup) rfl
        (v := some (.integer P.osVersion)) (by simp [CertificateHack.rebuiltTable]))
    rw [if_pos hindex, bootHash_of_parsed hteeNodup hvars, hhash]
    simp only [parseKeyDescription, List.getElem?_set_ne (show 7 ≠ 0 by decide),
      List.getElem?_set_ne (show 7 ≠ 2 by decide), List.getElem?_set_ne (show 7 ≠ 6 by decide),
      List.getElem?_set_self (show 7 < encodables.length by omega), he₀, he₂, hsw, hversion, hkeymaster,
      Option.bind_eq_bind, Option.bind_some, Asn1.asSequence, Option.getD_some, hrebuilt, hmodule]
    rfl

end Resigned

open Demo in
theorem parse_resigned_locked_device : ∃ d hacked,
    parseKeyDescription (attestation originalTee) = some d ∧
    CertificateHack.hackKeyDescription platform patchedEnv attestationData owner (attestation originalTee) =
      some hacked ∧
    parseKeyDescription hacked = some (
      if CertificateHack.teeIndexOf (attestation originalTee) = 7 then
        { d with
          verifiedBootKey := some attestationData.bootKey
          verifiedBootHash := d.verifiedBootHash.or attestationData.getBootHashFromProp
          osVersion := some (toInt platform.osVersion) }
      else d) := by
  have hhacked : CertificateHack.hackKeyDescription platform patchedEnv attestationData owner
      (attestation originalTee) = some (attestation rewrittenTee) := rfl
  exact ⟨_, _, rfl, hhacked, parse_resigned keyDescription_attestation rfl hhacked⟩

end AttestUtils

end TrickyStore
