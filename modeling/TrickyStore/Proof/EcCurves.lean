import TrickyStore.Proof.MetadataAgreement

/-!
# The curve of a forged EC key

A request names its curve by `EC_CURVE`, by `KEY_SIZE` or by both.  The key pair generator is a library:
it returns pairs on the curve it is asked for, and knows the NIST curves but not `CURVE_25519`.
-/

open Lib

namespace TrickyStore

/-- The key pair generators, for a curve name and for a modulus size with an exponent, and the curve that
a pair lies on.  `none` stands for an exception. -/
structure KeyPairGenerator where
  ec : String → Option KeyPair
  rsa : Int → Int → Option KeyPair
  curveName : KeyPair → String

def NIST_CURVES : List EcCurveInfo := EC_CURVES.filter fun c => c.name ≠ "CURVE_25519"

structure KeyPairGenerator.Lawful (gen : KeyPairGenerator) : Prop where
  onCurve : ∀ name pair, gen.ec name = some pair → gen.curveName pair = name
  supports : ∀ c ∈ NIST_CURVES, gen.ec c.name ≠ none
  refuses : gen.ec "CURVE_25519" = none

namespace CertificateGen

def generateKeyPair (gen : KeyPairGenerator) (params : KeyGenParameters) : Option KeyPair :=
  if params.algorithm = Algorithm.EC then gen.ec (params.ecCurveName.getD "secp256r1")
  else if params.algorithm = Algorithm.RSA then gen.rsa params.keySize (params.rsaPublicExponent.getD 65537)
  else none

end CertificateGen

/-! ## What a request asks for -/

/-- The value of the last parameter with the tag that the getter accepts. -/
def requested (tag : Int) (getter : KeyParameterValue → Option Int) (ps : List KeyParameter) : Option Int :=
  (ps.filterMap fun p => if p.tag = tag then getter p.value else none).getLast?

def requestedAlgorithm (ps : List KeyParameter) : Option Int :=
  requested Tag.ALGORITHM KeyParameterValue.getAlgorithm ps

def requestedKeySize (ps : List KeyParameter) : Option Int :=
  requested Tag.KEY_SIZE KeyParameterValue.getInteger ps

def requestedEcCurve (ps : List KeyParameter) : Option Int :=
  requested Tag.EC_CURVE KeyParameterValue.getEcCurve ps

/-- The size of the NIST curve that is named, if one is named, and the size that is given otherwise. -/
def requestedCurveSize (ps : List KeyParameter) : Option Int :=
  match requestedEcCurve ps with
  | some curve => (NIST_CURVES.find? fun c => c.curve = curve).map EcCurveInfo.size
  | none => requestedKeySize ps

structure EcRequest (ps : List KeyParameter) : Prop where
  algorithm : requestedAlgorithm ps = some Algorithm.EC
  given : requestedEcCurve ps ≠ none ∨ requestedKeySize ps ≠ none
  consistent : ∀ curve size, requestedEcCurve ps = some curve → requestedKeySize ps = some size →
    ∃ c ∈ EC_CURVES, c.curve = curve ∧ c.size = size

/-- The pair lies on a NIST curve whose size is the effective and the requested one and which the metadata
and every certificate report. -/
def OnReportedCurve (gen : KeyPairGenerator) (P : Platform) (env : Env) (data : AttestationData)
    (level : SecurityLevel) (uid : Int) (ps : List KeyParameter) (pair : KeyPair) : Prop :=
  let params := KeyGenParameters.ofParams P.x500Name ps
  let authorizations := buildAuthorizations P env level params uid
  ∃ c ∈ NIST_CURVES, gen.curveName pair = c.name ∧ c.size = effectiveKeySize params ∧
    requestedCurveSize ps = some c.size ∧
    reported authorizations level.toInt Tag.KEY_SIZE = [.integer c.size] ∧
    (∀ v ∈ reported authorizations level.toInt Tag.EC_CURVE, v = .ecCurve c.curve) ∧
    ∀ keyDescription,
      CertificateGen.buildAttestExtension P env data params uid level.toInt = some keyDescription →
        attested (listAt keyDescription 7) Tag.KEY_SIZE = [.integer c.size] ∧
          ∀ e ∈ attested (listAt keyDescription 7) Tag.EC_CURVE, e = .integer c.curve

/-! ## The loop over the parameters -/

section Loop

variable {α β σ : Type} {step : σ → β → σ} {f : σ → α} {r : β → Option α}

/-- A field that a loop overwrites ends up with the last value that it read. -/
theorem foldl_last (hstep : ∀ s b, f (step s b) = (r b).getD (f s)) (bs : List β) (s : σ) :
    f (bs.foldl step s) = (bs.filterMap r).getLast?.getD (f s) := by
  induction bs generalizing s with
  | nil => rfl
  | cons b bs ih =>
    rw [List.foldl_cons, ih, hstep]
    cases hread : r b with
    | none => rw [List.filterMap_cons_none hread, Option.getD_none]
    | some a =>
      rw [List.filterMap_cons_some hread, Option.getD_some, List.getLast?_cons]
      rfl

end Loop

namespace KeyGenParameters

variable {x500Name : Bytes → Option String} {k : KeyGenParameters} {p : KeyParameter}

/-- The fields that the curve depends on. -/
def curveFields (k : KeyGenParameters) : Int × Int × Int × Option String :=
  (k.keySize, k.algorithm, k.ecCurve, k.ecCurveName)

/-- A round of the loop that does not touch these fields. -/
def Keeps (k : KeyGenParameters) (o : Option KeyGenParameters) : Prop :=
  curveFields (o.getD k) = curveFields k

theorem keeps_map {α : Type} {o : Option α} {f : α → KeyGenParameters}
    (h : ∀ x, curveFields (f x) = curveFields k) : Keeps k (o.map f) := by
  cases o with
  | none => rfl
  | some x => exact h x

theorem keeps_ite {c : Prop} [Decidable c] {o o' : Option KeyGenParameters} (h : c → Keeps k o)
    (h' : Keeps k o') : Keeps k (if c then o else o') := by
  by_cases hc : c
  · rw [if_pos hc]
    exact h hc
  · rw [if_neg hc]
    exact h'

/-- A parameter of another tag changes nothing of the curve. -/
theorem assign_other (hsize : p.tag ≠ Tag.KEY_SIZE) (halgorithm : p.tag ≠ Tag.ALGORITHM)
    (hcurve : p.tag ≠ Tag.EC_CURVE) : Keeps k (k.assign x500Name p) := by
  unfold assign
  refine keeps_ite (fun h => absurd h hsize) (keeps_ite (fun h => absurd h halgorithm) ?_)
  iterate 5 refine keeps_ite (fun _ => keeps_map fun _ => rfl) ?_
  refine keeps_ite (fun h => absurd h hcurve) ?_
  iterate 6 refine keeps_ite (fun _ => keeps_map fun _ => rfl) ?_
  refine keeps_ite (fun _ => keeps_ite (fun _ => keeps_map fun _ => rfl) rfl) ?_
  iterate 18 refine keeps_ite (fun _ => keeps_map fun _ => rfl) ?_
  rfl

theorem assign_keySize_tag (h : p.tag = Tag.KEY_SIZE) :
    k.assign x500Name p = p.value.getInteger.map fun x => { k with keySize := x } := by
  dsimp only [assign]
  rw [if_pos h]

theorem assign_algorithm_tag (h : p.tag = Tag.ALGORITHM) :
    k.assign x500Name p = p.value.getAlgorithm.map fun x => { k with algorithm := x } := by
  dsimp only [assign]
  rw [if_neg (by rw [h]; decide), if_pos h]

theorem assign_ecCurve_tag (h : p.tag = Tag.EC_CURVE) :
    k.assign x500Name p = p.value.getEcCurve.map fun x =>
      { k with ecCurve := x, ecCurveName := some (resolveEcCurveName x 0) } := by
  have hne : ∀ {t : Int}, Tag.EC_CURVE ≠ t → p.tag ≠ t := fun hne heq => hne (h.symm.trans heq)
  dsimp only [assign]
  rw [if_neg (hne (by decide)), if_neg (hne (by decide)), if_neg (hne (by decide)), if_neg (hne (by decide)),
    if_neg (hne (by decide)), if_neg (hne (by decide)), if_neg (hne (by decide)), if_pos h]

theorem assign_keySize : ((k.assign x500Name p).getD k).keySize =
    (if p.tag = Tag.KEY_SIZE then p.value.getInteger else none).getD k.keySize := by
  by_cases hsize : p.tag = Tag.KEY_SIZE
  · rw [if_pos hsize, assign_keySize_tag hsize]
    cases p.value.getInteger <;> rfl
  · rw [if_neg hsize, Option.getD_none]
    by_cases halgorithm : p.tag = Tag.ALGORITHM
    · rw [assign_algorithm_tag halgorithm]
      cases p.value.getAlgorithm <;> rfl
    · by_cases hcurve : p.tag = Tag.EC_CURVE
      · rw [assign_ecCurve_tag hcurve]
        cases p.value.getEcCurve <;> rfl
      · exact congrArg (fun f => f.1) (assign_other hsize halgorithm hcurve)

theorem assign_algorithm : ((k.assign x500Name p).getD k).algorithm =
    (if p.tag = Tag.ALGORITHM then p.value.getAlgorithm else none).getD k.algorithm := by
  by_cases halgorithm : p.tag = Tag.ALGORITHM
  · rw [if_pos halgorithm, assign_algorithm_tag halgorithm]
    cases p.value.getAlgorithm <;> rfl
  · rw [if_neg halgorithm, Option.getD_none]
    by_cases hsize : p.tag = Tag.KEY_SIZE
    · rw [assign_keySize_tag hsize]
      cases p.value.getInteger <;> rfl
    · by_cases hcurve : p.tag = Tag.EC_CURVE
      · rw [assign_ecCurve_tag hcurve]
        cases p.value.getEcCurve <;> rfl
      · exact congrArg (fun f => f.2.1) (assign_other hsize halgorithm hcurve)

/-- The curve and its name are assigned together. -/
theorem assign_ecCurve :
    (((k.assign x500Name p).getD k).ecCurve, ((k.assign x500Name p).getD k).ecCurveName) =
      ((if p.tag = Tag.EC_CURVE then p.value.getEcCurve else none).map fun c =>
        (c, some (resolveEcCurveName c 0))).getD (k.ecCurve, k.ecCurveName) := by
  by_cases hcurve : p.tag = Tag.EC_CURVE
  · rw [if_pos hcurve, assign_ecCurve_tag hcurve]
    cases p.value.getEcCurve <;> rfl
  · rw [if_neg hcurve, Option.map_none, Option.getD_none]
    by_cases hsize : p.tag = Tag.KEY_SIZE
    · rw [assign_keySize_tag hsize]
      cases p.value.getInteger <;> rfl
    · by_cases halgorithm : p.tag = Tag.ALGORITHM
      · rw [assign_algorithm_tag halgorithm]
        cases p.value.getAlgorithm <;> rfl
      · exact congrArg (fun f => f.2.2) (assign_other hsize halgorithm hcurve)

/-! ## The finished parameters -/

variable {ps : List KeyParameter}

/-- The parameters after the loop. -/
def afterLoop (x500Name : Bytes → Option String) (ps : List KeyParameter) : KeyGenParameters :=
  ps.foldl (fun k p => (k.assign x500Name p).getD k) {}

theorem afterLoop_keySize : (afterLoop x500Name ps).keySize = (requestedKeySize ps).getD 0 :=
  foldl_last (f := KeyGenParameters.keySize) (fun k p => @assign_keySize x500Name k p) ps {}

theorem afterLoop_algorithm : (afterLoop x500Name ps).algorithm = (requestedAlgorithm ps).getD 0 :=
  foldl_last (f := KeyGenParameters.algorithm) (fun k p => @assign_algorithm x500Name k p) ps {}

theorem afterLoop_ecCurve : ((afterLoop x500Name ps).ecCurve, (afterLoop x500Name ps).ecCurveName) =
    ((requestedEcCurve ps).map fun c => (c, some (resolveEcCurveName c 0))).getD (0, none) := by
  have hloop := foldl_last (f := fun k : KeyGenParameters => (k.ecCurve, k.ecCurveName))
    (fun k p => @assign_ecCurve x500Name k p) ps {}
  unfold afterLoop requestedEcCurve requested
  rw [← List.getLast?_map, List.map_filterMap]
  exact hloop

theorem ofParams_eq : ofParams x500Name ps =
    if (afterLoop x500Name ps).ecCurveName = none ∧ (afterLoop x500Name ps).keySize ≠ 0 then
      { afterLoop x500Name ps with
        ecCurveName := some (resolveEcCurveName 0 (afterLoop x500Name ps).keySize) }
    else afterLoop x500Name ps := rfl

theorem ofParams_keySize : (ofParams x500Name ps).keySize = (requestedKeySize ps).getD 0 := by
  rw [ofParams_eq, ← afterLoop_keySize]
  split_ifs <;> rfl

theorem ofParams_algorithm : (ofParams x500Name ps).algorithm = (requestedAlgorithm ps).getD 0 := by
  rw [ofParams_eq, ← afterLoop_algorithm]
  split_ifs <;> rfl

theorem ofParams_ecCurve : (ofParams x500Name ps).ecCurve = (requestedEcCurve ps).getD 0 := by
  have hcurve := congrArg Prod.fst (@afterLoop_ecCurve x500Name ps)
  have hfst : (afterLoop x500Name ps).ecCurve = (requestedEcCurve ps).getD 0 := by
    cases hrequested : requestedEcCurve ps <;> simpa [hrequested] using hcurve
  rw [ofParams_eq, ← hfst]
  split_ifs <;> rfl

/-- The name that the generator is asked for. -/
def curveNameFor (curve keySize : Option Int) : Option String :=
  match curve with
  | some c => some (resolveEcCurveName c 0)
  | none => if keySize.getD 0 ≠ 0 then some (resolveEcCurveName 0 (keySize.getD 0)) else none

theorem ofParams_ecCurveName :
    (ofParams x500Name ps).ecCurveName = curveNameFor (requestedEcCurve ps) (requestedKeySize ps) := by
  have hname := congrArg Prod.snd (@afterLoop_ecCurve x500Name ps)
  rw [ofParams_eq, afterLoop_keySize]
  cases hcurve : requestedEcCurve ps with
  | some c =>
    have hsome : (afterLoop x500Name ps).ecCurveName = some (resolveEcCurveName c 0) := by
      simpa [hcurve] using hname
    rw [if_neg (by simp [hsome])]
    exact hsome
  | none =>
    have hnone : (afterLoop x500Name ps).ecCurveName = none := by
      simpa [hcurve] using hname
    unfold curveNameFor
    by_cases hsize : (requestedKeySize ps).getD 0 ≠ 0
    · rw [if_pos ⟨hnone, hsize⟩]
      simp only [if_pos hsize]
    · rw [if_neg fun h => hsize h.2]
      simp only [if_neg hsize, hnone]

end KeyGenParameters

/-! ## The curve table -/

/-- Every size falls on the first curve of the table, whose number is the default 0. -/
theorem resolveEcCurveName_zero (keySize : Int) : resolveEcCurveName 0 keySize = "secp224r1" := rfl

theorem resolveEcCurveName_curve {c : EcCurveInfo} (h : c ∈ EC_CURVES) (keySize : Int) :
    resolveEcCurveName c.curve keySize = c.name := by
  simp only [EC_CURVES, List.mem_cons, List.not_mem_nil, or_false] at h
  rcases h with rfl | rfl | rfl | rfl | rfl <;> rfl

theorem resolveEcCurveName_unknown {curve : Int} (h : ∀ c ∈ EC_CURVES, c.curve ≠ curve) :
    resolveEcCurveName curve 0 = "secp256r1" := by
  have hcurve : (EC_CURVES.find? fun c => c.curve = curve) = none := by
    rw [List.find?_eq_none]
    intro c hc
    simpa using h c hc
  unfold resolveEcCurveName
  rw [hcurve]
  rfl

theorem size_of_name {c : EcCurveInfo} (h : c ∈ EC_CURVES) :
    ((EC_CURVES.find? fun c' => some c'.name = some c.name).map EcCurveInfo.size).getD 256 = c.size := by
  simp only [EC_CURVES, List.mem_cons, List.not_mem_nil, or_false] at h
  rcases h with rfl | rfl | rfl | rfl | rfl <;> decide

theorem nist_of_name {c : EcCurveInfo} (h : c ∈ EC_CURVES) (hname : c.name ≠ "CURVE_25519") :
    c ∈ NIST_CURVES :=
  List.mem_filter.2 ⟨h, by simpa using hname⟩

theorem mem_of_nist {c : EcCurveInfo} (h : c ∈ NIST_CURVES) : c ∈ EC_CURVES := (List.mem_filter.1 h).1

theorem nist_cases {c : EcCurveInfo} (h : c ∈ NIST_CURVES) :
    c = ⟨0, "secp224r1", 224⟩ ∨ c = ⟨1, "secp256r1", 256⟩ ∨ c = ⟨2, "secp384r1", 384⟩ ∨
      c = ⟨3, "secp521r1", 521⟩ := by
  simpa [NIST_CURVES, EC_CURVES] using h

theorem nist_size_pos {c : EcCurveInfo} (h : c ∈ NIST_CURVES) : c.size > 0 := by
  rcases nist_cases h with rfl | rfl | rfl | rfl <;> decide

theorem nist_find {c : EcCurveInfo} (h : c ∈ NIST_CURVES) :
    (NIST_CURVES.find? fun c' => c'.curve = c.curve).map EcCurveInfo.size = some c.size := by
  rcases nist_cases h with rfl | rfl | rfl | rfl <;> decide

theorem nist_find_unknown {curve : Int} (h : ∀ c ∈ EC_CURVES, c.curve ≠ curve) :
    (NIST_CURVES.find? fun c => c.curve = curve) = none := by
  rw [List.find?_eq_none]
  intro c hc
  simpa using h c (mem_of_nist hc)

/-! ## Curve and size of the metadata are those of the key -/

section Curve

variable {gen : KeyPairGenerator} {P : Platform} {env : Env} {data : AttestationData} {level : SecurityLevel}
  {uid : Int} {ps : List KeyParameter} {pair : KeyPair}

/-- A pair on the curve `c` is reported as what it is, if the parameters have the size and number of `c`. -/
theorem onReportedCurve_of {c : EcCurveInfo} (hc : c ∈ NIST_CURVES) (hpair : gen.curveName pair = c.name)
    (heffective : effectiveKeySize (KeyGenParameters.ofParams P.x500Name ps) = c.size)
    (hsize : requestedCurveSize ps = some c.size)
    (hcurve : (requestedEcCurve ps).getD 0 = c.curve) :
    OnReportedCurve gen P env data level uid ps pair := by
  have hpos := nist_size_pos hc
  refine ⟨c, hc, hpair, heffective.symm, hsize, ?_, ?_, ?_⟩
  · rw [reported_row_at 6 rfl, if_pos rfl, heffective, if_pos hpos]
  · intro v hv
    rw [reported_row_at 7 rfl, if_pos rfl, KeyGenParameters.ofParams_ecCurve, hcurve] at hv
    split_ifs at hv
    · exact List.mem_singleton.1 hv
    · simp at hv
  · intro keyDescription hkey
    obtain ⟨hash, applicationId, -, htee⟩ := listAt_extension hkey
    rw [htee]
    constructor
    · rw [attested_tee_at 2 rfl, CertificateGen.rowIf, heffective, if_pos hpos]
      rfl
    · intro e he
      rw [attested_tee_at 15 rfl, CertificateGen.rowIf, KeyGenParameters.ofParams_ecCurve, hcurve] at he
      split_ifs at he
      · exact List.mem_singleton.1 he
      · simp at he

variable (P) in
theorem generateKeyPair_ec (hreq : EcRequest ps) :
    CertificateGen.generateKeyPair gen (KeyGenParameters.ofParams P.x500Name ps) =
      gen.ec ((KeyGenParameters.curveNameFor (requestedEcCurve ps) (requestedKeySize ps)).getD "secp256r1") := by
  have hec : (KeyGenParameters.ofParams P.x500Name ps).algorithm = Algorithm.EC := by
    rw [KeyGenParameters.ofParams_algorithm, hreq.algorithm]
    rfl
  rw [CertificateGen.generateKeyPair, if_pos hec, KeyGenParameters.ofParams_ecCurveName]

variable (P) in
theorem effectiveKeySize_ec (hreq : EcRequest ps) :
    effectiveKeySize (KeyGenParameters.ofParams P.x500Name ps) =
      if (requestedKeySize ps).getD 0 > 0 then (requestedKeySize ps).getD 0
      else ((EC_CURVES.find? fun c => some c.name =
        KeyGenParameters.curveNameFor (requestedEcCurve ps) (requestedKeySize ps)).map
          EcCurveInfo.size).getD 256 := by
  have hec : ¬ (KeyGenParameters.ofParams P.x500Name ps).algorithm ≠ Algorithm.EC := by
    rw [KeyGenParameters.ofParams_algorithm, hreq.algorithm]
    simp
  rw [effectiveKeySize, if_neg hec, KeyGenParameters.ofParams_keySize, KeyGenParameters.ofParams_ecCurveName]

/-- A requested curve that is unknown falls back to P-256 and is reported with no size. -/
theorem exists_curve_of_onReportedCurve (hgen : gen.Lawful) {curve : Int} (hcurve : requestedEcCurve ps = some curve)
    (h : ∀ pair, gen.ec ((KeyGenParameters.curveNameFor (requestedEcCurve ps) (requestedKeySize ps)).getD
      "secp256r1") = some pair → OnReportedCurve gen P env data level uid ps pair) :
    ∃ c ∈ EC_CURVES, curve = c.curve := by
  by_contra hunknown
  have hne : ∀ c ∈ EC_CURVES, c.curve ≠ curve := fun c hc heq => hunknown ⟨c, hc, heq.symm⟩
  obtain ⟨pair, hpair⟩ := Option.ne_none_iff_exists'.1 (hgen.supports ⟨1, "secp256r1", 256⟩ (by decide))
  have hname : (KeyGenParameters.curveNameFor (requestedEcCurve ps) (requestedKeySize ps)).getD
      "secp256r1" = "secp256r1" := by
    rw [hcurve, KeyGenParameters.curveNameFor, resolveEcCurveName_unknown hne]
    rfl
  rw [hname] at h
  obtain ⟨c, -, -, -, hsize, -⟩ := h pair hpair
  rw [requestedCurveSize, hcurve] at hsize
  simp [nist_find_unknown hne] at hsize

/-- Without a curve, the number of no curve resolves to P-224. -/
theorem size_of_onReportedCurve (hgen : gen.Lawful) (hreq : EcRequest ps) (hcurve : requestedEcCurve ps = none)
    (h : ∀ pair, gen.ec ((KeyGenParameters.curveNameFor (requestedEcCurve ps) (requestedKeySize ps)).getD
      "secp256r1") = some pair → OnReportedCurve gen P env data level uid ps pair) :
    requestedKeySize ps = some 224 := by
  obtain ⟨size, hsize⟩ := Option.ne_none_iff_exists'.1 (hreq.given.resolve_left fun hne => hne hcurve)
  by_cases hzero : size = 0
  · -- without a size the default is P-256
    obtain ⟨pair, hpair⟩ := Option.ne_none_iff_exists'.1 (hgen.supports ⟨1, "secp256r1", 256⟩ (by decide))
    have hname : (KeyGenParameters.curveNameFor (requestedEcCurve ps) (requestedKeySize ps)).getD
        "secp256r1" = "secp256r1" := by
      rw [hcurve, hsize, hzero]
      rfl
    rw [hname] at h
    obtain ⟨c, hc, -, -, hrequested, -⟩ := h pair hpair
    rw [requestedCurveSize, hcurve, hsize, hzero] at hrequested
    exact absurd (Option.some.inj hrequested).symm (nist_size_pos hc).ne'
  · obtain ⟨pair, hpair⟩ := Option.ne_none_iff_exists'.1 (hgen.supports ⟨0, "secp224r1", 224⟩ (by decide))
    have hname : (KeyGenParameters.curveNameFor (requestedEcCurve ps) (requestedKeySize ps)).getD
        "secp256r1" = "secp224r1" := by
      rw [hcurve, hsize, KeyGenParameters.curveNameFor, Option.getD_some, if_pos hzero, resolveEcCurveName_zero]
      rfl
    rw [hname] at h
    obtain ⟨c, hc, honcurve, -, hrequested, -⟩ := h pair hpair
    rw [hgen.onCurve _ _ hpair] at honcurve
    rw [requestedCurveSize, hcurve] at hrequested
    have hnist : c.size = 224 := by
      rcases nist_cases hc with rfl | rfl | rfl | rfl <;> simp at honcurve ⊢
    rw [← hnist]
    exact hrequested

theorem curve_unique {c c' : EcCurveInfo} (hc : c ∈ EC_CURVES) (hc' : c' ∈ EC_CURVES) (h : c'.curve = c.curve) :
    c' = c := by
  simp only [EC_CURVES, List.mem_cons, List.not_mem_nil, or_false] at hc hc'
  rcases hc with rfl | rfl | rfl | rfl | rfl <;>
    rcases hc' with rfl | rfl | rfl | rfl | rfl <;> simp at h ⊢

theorem onReportedCurve_of_curve (hgen : gen.Lawful) (hreq : EcRequest ps) {c : EcCurveInfo} (hc : c ∈ EC_CURVES)
    (hcurve : requestedEcCurve ps = some c.curve)
    (hpair : gen.ec ((KeyGenParameters.curveNameFor (requestedEcCurve ps) (requestedKeySize ps)).getD
      "secp256r1") = some pair) : OnReportedCurve gen P env data level uid ps pair := by
  have hname : (KeyGenParameters.curveNameFor (requestedEcCurve ps) (requestedKeySize ps)) = some c.name := by
    rw [hcurve, KeyGenParameters.curveNameFor, resolveEcCurveName_curve hc]
  rw [hname, Option.getD_some] at hpair
  have hnist : c ∈ NIST_CURVES := by
    apply nist_of_name hc
    intro heq
    rw [heq, hgen.refuses] at hpair
    simp at hpair
  apply onReportedCurve_of hnist (hgen.onCurve _ _ hpair)
  · rw [effectiveKeySize_ec P hreq, hname, size_of_name hc]
    split_ifs with hpositive
    · cases hkeySize : requestedKeySize ps with
      | none => simp [hkeySize] at hpositive
      | some size =>
        obtain ⟨c', hc', hcurve', rfl⟩ := hreq.consistent c.curve size hcurve hkeySize
        rw [curve_unique hc hc' hcurve']
        rfl
    · rfl
  · rw [requestedCurveSize, hcurve]
    exact nist_find hnist
  · rw [hcurve]
    rfl

theorem onReportedCurve_of_size (hgen : gen.Lawful) (hreq : EcRequest ps) (hcurve : requestedEcCurve ps = none)
    (hsize : requestedKeySize ps = some 224)
    (hpair : gen.ec ((KeyGenParameters.curveNameFor (requestedEcCurve ps) (requestedKeySize ps)).getD
      "secp256r1") = some pair) : OnReportedCurve gen P env data level uid ps pair := by
  rw [hcurve, hsize] at hpair
  apply onReportedCurve_of (c := ⟨0, "secp224r1", 224⟩) (by decide) (hgen.onCurve _ _ hpair)
  · rw [effectiveKeySize_ec P hreq, hsize]
    rfl
  · rw [requestedCurveSize, hcurve]
    exact hsize
  · rw [hcurve]
    rfl

/-- A forged EC key lies on the curve it reports just when the request names a curve of the table or, by
its size, the first one. -/
theorem on_reported_curve_iff (hgen : gen.Lawful) (P : Platform) (env : Env) (data : AttestationData)
    (level : SecurityLevel) (uid : Int) (hreq : EcRequest ps) :
    (∀ pair, CertificateGen.generateKeyPair gen (KeyGenParameters.ofParams P.x500Name ps) = some pair →
        OnReportedCurve gen P env data level uid ps pair) ↔
      (∃ c ∈ EC_CURVES, requestedEcCurve ps = some c.curve) ∨
        requestedEcCurve ps = none ∧ requestedKeySize ps = some 224 := by
  rw [generateKeyPair_ec P hreq]
  constructor
  · intro h
    cases hcurve : requestedEcCurve ps with
    | some curve =>
      obtain ⟨c, hc, rfl⟩ := exists_curve_of_onReportedCurve hgen hcurve h
      exact .inl ⟨c, hc, rfl⟩
    | none => exact .inr ⟨rfl, size_of_onReportedCurve hgen hreq hcurve h⟩
  · rintro (⟨c, hc, hcurve⟩ | ⟨hcurve, hsize⟩) pair hpair
    · exact onReportedCurve_of_curve hgen hreq hc hcurve hpair
    · exact onReportedCurve_of_size hgen hreq hcurve hsize hpair

end Curve

/-! ## A generator that knows the NIST curves -/

namespace Demo

def generator : KeyPairGenerator where
  ec := fun name => (NIST_CURVES.find? fun c => c.name = name).map fun c => ⟨[UInt8.ofNat c.curve.toNat], [16]⟩
  rsa := fun _ _ => none
  curveName := fun pair =>
    ((NIST_CURVES.find? fun c => [UInt8.ofNat c.curve.toNat] = pair.publicKey).map EcCurveInfo.name).getD ""

theorem lawful_generator : generator.Lawful where
  onCurve := by
    intro name pair h
    obtain ⟨c, hfind, rfl⟩ := Option.map_eq_some_iff.1 h
    have hname : c.name = name := by simpa using List.find?_some hfind
    rw [← hname]
    rcases nist_cases (List.mem_of_find?_eq_some hfind) with rfl | rfl | rfl | rfl <;> decide
  supports := by decide
  refuses := by decide

/-- An EC key of this size. -/
def sizedParams (size : Int) : List KeyParameter :=
  [⟨Tag.ALGORITHM, .algorithm Algorithm.EC⟩, ⟨Tag.KEY_SIZE, .integer size⟩,
    ⟨Tag.PURPOSE, .keyPurpose KeyPurpose.SIGN⟩]

theorem ecRequest_sized (size : Int) : EcRequest (sizedParams size) where
  algorithm := rfl
  given := .inr (by simp [requestedKeySize, requested, sizedParams, KeyParameterValue.getInteger, Tag.KEY_SIZE,
    Tag.ALGORITHM, Tag.PURPOSE])
  consistent := by
    intro curve size' hcurve
    simp [requestedEcCurve, requested, sizedParams, Tag.EC_CURVE, Tag.KEY_SIZE, Tag.ALGORITHM,
      Tag.PURPOSE] at hcurve

end Demo

open Demo in
theorem on_reported_curve_of_p224 :
    (∀ pair, CertificateGen.generateKeyPair generator
          (KeyGenParameters.ofParams platform.x500Name (sizedParams 224)) = some pair →
        OnReportedCurve generator platform (env 7) attestationData .strongbox owner (sizedParams 224) pair) ↔
      (∃ c ∈ EC_CURVES, requestedEcCurve (sizedParams 224) = some c.curve) ∨
        requestedEcCurve (sizedParams 224) = none ∧ requestedKeySize (sizedParams 224) = some 224 :=
  on_reported_curve_iff lawful_generator platform (env 7) attestationData .strongbox owner (ecRequest_sized 224)

open Demo in
/-- A request for 256 bits gets a key on P-224. -/
theorem p256_by_size_is_p224 : ¬ ∀ gen ps pair, gen.Lawful → EcRequest ps →
    CertificateGen.generateKeyPair gen (KeyGenParameters.ofParams platform.x500Name ps) = some pair →
    OnReportedCurve gen platform (env 7) attestationData .trustedEnvironment owner ps pair := by
  intro h
  obtain ⟨c, hc, hcurve, hsize, -⟩ :=
    h generator (sizedParams 256) ⟨[0], [16]⟩ lawful_generator (ecRequest_sized 256) rfl
  rcases nist_cases hc with rfl | rfl | rfl | rfl
  · exact absurd hsize (by decide)
  · exact absurd hcurve (by decide)
  · exact absurd hcurve (by decide)
  · exact absurd hcurve (by decide)

end TrickyStore
