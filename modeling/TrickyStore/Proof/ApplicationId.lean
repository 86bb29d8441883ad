import TrickyStore.Model.ApplicationId
import TrickyStore.Proof.KeyFileRoundTrip

/-!
# The signers in the application id

The application id is meant to depend on two sets, the packages with their versions and the digests of
their certificates.  Since the sets are sorted, the order of the packages never shows; a digest that occurs
twice is encoded twice, which makes the id longer than that of its set.
-/

open Lib

namespace TrickyStore

open CertificateGen

/-! ## The application id of two sets -/

abbrev Digest := { d : Bytes // d.length = 32 }

/-- A package as the application id lists it. -/
abbrev Package := String × Int

def PackageInfo.package (info : PackageInfo) : Package := (info.packageName, info.longVersionCode)

def PackageInfo.digests (h : Digests) (info : PackageInfo) : List Digest :=
  (info.signingCertificateHistory.getD []).map h.sha256

def encodePackage (p : Package) : Bytes :=
  derSequence [derOctetString p.1.toByteArray.data.toList, asn1Integer p.2]

/-- The encodings of a set, each once and in their order. -/
def encodeSet (encodings : Finset Bytes) : Bytes := Der.encode 0x31 (encodings.sort Der.Le).flatten

/-- The application id that lists each package and each digest once. -/
def applicationIdOf (packages : Finset Package) (digests : Finset Digest) : Bytes :=
  derSequence [encodeSet (packages.image encodePackage), encodeSet (digests.image fun d => derOctetString d.1)]

def packagesOf (infos : List PackageInfo) : Finset Package := (infos.map PackageInfo.package).toFinset

def digestsOf (h : Digests) (infos : List PackageInfo) : Finset Digest :=
  (infos.flatMap (PackageInfo.digests h)).toFinset

/-! ## What is encoded -/

/-- The two lists from which `createApplicationId` makes its sets. -/
def encodedPackages (infos : List PackageInfo) : List Bytes := infos.map packageSequence

def encodedDigests (h : Digests) (infos : List PackageInfo) : List Bytes :=
  (infos.flatMap (signatures h)).map derOctetString

section Encodings

variable {h : Digests} {infos infos' : List PackageInfo} {pm : PackageInfos} {uid : Int}

theorem createApplicationId_eq (hinfos : packageInfos pm uid = some infos) :
    createApplicationId h (some pm) uid =
      some (derSequence [derSet (encodedPackages infos), derSet (encodedDigests h infos)]) := by
  unfold createApplicationId
  rw [Option.bind_eq_bind, Option.bind_some, hinfos]
  rfl

theorem encodedPackages_eq : encodedPackages infos = (infos.map PackageInfo.package).map encodePackage := by
  rw [encodedPackages, List.map_map]
  rfl

theorem encodedDigests_eq : encodedDigests h infos =
    (infos.flatMap (PackageInfo.digests h)).map fun d => derOctetString d.1 := by
  rw [encodedDigests, List.map_flatMap, List.map_flatMap]
  congr 1
  funext info
  rw [signatures, PackageInfo.digests, List.map_map, List.map_map]
  rfl

/-- Neither the name nor the version is lost. -/
theorem packageSequence_inj {info info' : PackageInfo} :
    packageSequence info = packageSequence info' ↔ info.package = info'.package := by
  constructor
  · intro heq
    have hcontent := Der.encode_inj heq
    rw [List.flatten_cons, List.flatten_cons] at hcontent
    obtain ⟨hname, hrest⟩ := Der.encode_append_inj info.name_fits info'.name_fits hcontent
    rw [List.flatten_cons] at hrest
    have hname : info.packageName = info'.packageName := by
      apply String.toByteArray_inj.1
      exact ByteArray.ext (Array.toList_inj.1 hname)
    have hversion : info.longVersionCode = info'.longVersionCode := by
      have hrest : asn1Integer info.longVersionCode ++ [] = asn1Integer info'.longVersionCode ++ [] := hrest
      rw [List.append_nil, List.append_nil] at hrest
      have hread := congrArg bigInteger (Der.encode_inj hrest)
      rw [bigInteger_toByteArray, bigInteger_toByteArray] at hread
      exact Option.some_injective _ hread
    exact Prod.ext hname hversion
  · intro heq
    have hname : info.packageName = info'.packageName := congrArg Prod.fst heq
    have hversion : info.longVersionCode = info'.longVersionCode := congrArg Prod.snd heq
    rw [packageSequence, packageSequence, hname, hversion]

theorem nodup_encodedPackages : (encodedPackages infos).Nodup ↔ (infos.map PackageInfo.package).Nodup := by
  unfold encodedPackages List.Nodup
  rw [List.pairwise_map, List.pairwise_map]
  exact List.Pairwise.iff fun info info' => not_congr packageSequence_inj

theorem nodup_encodedDigests :
    (encodedDigests h infos).Nodup ↔ (infos.flatMap (PackageInfo.digests h)).Nodup := by
  rw [encodedDigests_eq]
  exact List.nodup_map_iff fun d d' heq => Subtype.ext (Der.encode_inj heq)

theorem applicationIdOf_eq : applicationIdOf (packagesOf infos) (digestsOf h infos) =
    derSequence [encodeSet (encodedPackages infos).toFinset, encodeSet (encodedDigests h infos).toFinset] := by
  have himage {α : Type} [DecidableEq α] (f : α → Bytes) (l : List α) :
      (l.map f).toFinset = l.toFinset.image f := by
    ext a
    simp
  rw [encodedPackages_eq, encodedDigests_eq, himage, himage]
  rfl

end Encodings

/-! ## Repetitions -/

section Repetitions

variable {h : Digests} {infos infos' : List PackageInfo} {pm : PackageInfos} {uid : Int} {l l' : List Bytes}

theorem derSet_eq (hl : l.Nodup) : derSet l = encodeSet l.toFinset := by
  rw [derSet, encodeSet, Der.sorted_eq_sort hl]

theorem length_encode_le {tag : UInt8} {c c' : Bytes} (hc : c.length ≤ c'.length) :
    (Der.encode tag c).length ≤ (Der.encode tag c').length := by
  rcases hc.lt_or_eq with hlt | heq
  · exact (Der.length_encode_lt hlt).le
  · simp [Der.encode, heq]

theorem length_encodeSet_le (l : List Bytes) : (encodeSet l.toFinset).length ≤ (derSet l).length :=
  length_encode_le (Der.length_sort_le l)

/-- A set with a repetition is longer than the set of its elements. -/
theorem length_encodeSet_lt (hl : ¬ l.Nodup) (hne : ∀ a ∈ l, a ≠ []) :
    (encodeSet l.toFinset).length < (derSet l).length :=
  Der.length_encode_lt (Der.length_sort_lt hl hne)

/-- Two sets are encoded without repetitions exactly when there are none. -/
theorem derSets_eq_iff (hne : ∀ a ∈ l, a ≠ []) (hne' : ∀ a ∈ l', a ≠ []) :
    derSequence [derSet l, derSet l'] = derSequence [encodeSet l.toFinset, encodeSet l'.toFinset] ↔
      l.Nodup ∧ l'.Nodup := by
  constructor
  · intro heq
    have hlength := congrArg List.length (Der.encode_inj heq)
    simp only [List.flatten_cons, List.flatten_nil, List.length_append, List.length_nil] at hlength
    have hle := length_encodeSet_le l
    have hle' := length_encodeSet_le l'
    constructor
    · by_contra hl
      have hlt := length_encodeSet_lt hl hne
      omega
    · by_contra hl'
      have hlt := length_encodeSet_lt hl' hne'
      omega
  · rintro ⟨hl, hl'⟩
    rw [derSet_eq hl, derSet_eq hl']

theorem encodedPackages_ne_nil : ∀ a ∈ encodedPackages infos, a ≠ [] := by
  intro a ha
  obtain ⟨info, -, rfl⟩ := List.mem_map.1 ha
  exact Der.encode_ne_nil

theorem encodedDigests_ne_nil : ∀ a ∈ encodedDigests h infos, a ≠ [] := by
  intro a ha
  obtain ⟨d, -, rfl⟩ := List.mem_map.1 ha
  exact Der.encode_ne_nil

/-- The order of the packages does not show. -/
theorem createApplicationId_perm {pm' : PackageInfos} (hinfos : packageInfos pm uid = some infos)
    (hinfos' : packageInfos pm' uid = some infos') (hperm : infos'.Perm infos) :
    createApplicationId h (some pm') uid = createApplicationId h (some pm) uid := by
  have hpackages : (encodedPackages infos').Perm (encodedPackages infos) := hperm.map _
  have hdigests : (encodedDigests h infos').Perm (encodedDigests h infos) := (hperm.flatMap_right _).map _
  rw [createApplicationId_eq hinfos, createApplicationId_eq hinfos']
  simp only [derSet, Der.sorted_eq_of_perm hpackages, Der.sorted_eq_of_perm hdigests]

/-- Nor does it in the attestation extension of a forged key. -/
theorem buildAttestExtension_perm {pm' : PackageInfos} (hinfos : packageInfos pm uid = some infos)
    (hinfos' : packageInfos pm' uid = some infos') (hperm : infos'.Perm infos) (P : Platform) (env : Env)
    (data : AttestationData) (hbk : Bytes) (params : KeyGenParameters) (securityLevel : Int) :
    buildAttestExtension P env (data.withApplicationId h (some pm') hbk) params uid securityLevel =
      buildAttestExtension P env (data.withApplicationId h (some pm) hbk) params uid securityLevel := by
  have hid : applicationIdFor (data.withApplicationId h (some pm') hbk) params uid =
      applicationIdFor (data.withApplicationId h (some pm) hbk) params uid := by
    simp only [applicationIdFor, AttestationData.withApplicationId, createApplicationId_perm hinfos hinfos' hperm]
  unfold buildAttestExtension
  rw [hid]
  rfl

/-- The application id is that of its sets exactly when nothing is listed twice. -/
theorem createApplicationId_eq_iff (hinfos : packageInfos pm uid = some infos) :
    createApplicationId h (some pm) uid = some (applicationIdOf (packagesOf infos) (digestsOf h infos)) ↔
      (infos.map PackageInfo.package).Nodup ∧ (infos.flatMap (PackageInfo.digests h)).Nodup := by
  rw [createApplicationId_eq hinfos, applicationIdOf_eq, Option.some_inj,
    derSets_eq_iff encodedPackages_ne_nil encodedDigests_ne_nil, nodup_encodedPackages, nodup_encodedDigests]

end Repetitions

/-- In whatever order the packages are listed, the application id is that of the set of the packages and of
the set of the digests, and the unique id with it, exactly when no package and no digest occurs twice. -/
theorem application_id_of_sets_iff (h : Digests) (pm : PackageInfos) (uid : Int) (infos : List PackageInfo)
    (hinfos : packageInfos pm uid = some infos) :
    (∀ pm' infos', packageInfos pm' uid = some infos' → infos'.Perm infos →
      createApplicationId h (some pm') uid = some (applicationIdOf (packagesOf infos) (digestsOf h infos)) ∧
        ∀ hbk t, (createApplicationId h (some pm') uid).map (computeUniqueId h hbk t) =
          some (computeUniqueId h hbk t (applicationIdOf (packagesOf infos) (digestsOf h infos)))) ↔
      (infos.map PackageInfo.package).Nodup ∧ (infos.flatMap (PackageInfo.digests h)).Nodup := by
  constructor
  · intro hall
    exact (createApplicationId_eq_iff hinfos).1 (hall pm infos hinfos (List.Perm.refl infos)).1
  · intro hnodup pm' infos' hinfos' hperm
    have hid := (createApplicationId_eq_iff hinfos).2 hnodup
    rw [← createApplicationId_perm hinfos hinfos' hperm] at hid
    refine ⟨hid, fun hbk t => ?_⟩
    rw [hid, Option.map_some]

namespace Demo

/-- The certificates of two signers. -/
def signerCertificate : Bytes := [0x30, 0x00]

def otherCertificate : Bytes := [0x30, 0x02, 0x05, 0x00]

/-- SHA-256 on these certificates. -/
def signerDigests : Digests where
  sha256 := fun sig =>
    if sig = signerCertificate then
      ⟨[228, 246, 13, 10, 166, 215, 243, 211, 182, 166, 73, 75, 28, 134, 27, 153, 246, 73, 198, 249, 236, 81, 171,
        175, 32, 27, 32, 242, 151, 50, 124, 149], rfl⟩
    else if sig = otherCertificate then
      ⟨[200, 147, 70, 19, 148, 47, 87, 67, 15, 72, 181, 27, 1, 48, 217, 146, 60, 75, 254, 54, 230, 22, 107, 171, 205,
        219, 123, 239, 198, 70, 143, 8], rfl⟩
    else ⟨List.replicate 32 0, rfl⟩
  hmacSHA256 := fun _ _ => List.replicate 32 0

def packageInfo (packageName : String) (certificate : Bytes)
    (fits : packageName.toByteArray.data.toList.length < 2 ^ 31) : PackageInfo :=
  ⟨packageName, 1, some [certificate], fits⟩

/-- Two packages of one signer that share a uid. -/
def firstPackage : PackageInfo := packageInfo "org.app.first" signerCertificate (by decide)

def secondPackage : PackageInfo := packageInfo "org.app.second" signerCertificate (by decide)

/-- A package of another signer. -/
def otherPackage : PackageInfo := packageInfo "org.app.other" otherCertificate (by decide)

def packagesOfUid (infos : List PackageInfo) : PackageInfos where
  getPackagesForUid := fun _ => some (infos.map (·.packageName))
  getPackageInfo := fun pkg _ => infos.find? (·.packageName = pkg)

end Demo

open Demo in
/-- The signer of a shared uid is listed twice. -/
theorem application_id_of_shared_signer :
    packageInfos (packagesOfUid [firstPackage, secondPackage]) 10001 = some [firstPackage, secondPackage] ∧
      createApplicationId signerDigests (some (packagesOfUid [firstPackage, secondPackage])) 10001 ≠
        some (applicationIdOf (packagesOf [firstPackage, secondPackage])
          (digestsOf signerDigests [firstPackage, secondPackage])) := by
  have hinfos : packageInfos (packagesOfUid [firstPackage, secondPackage]) 10001 =
      some [firstPackage, secondPackage] := by rfl
  refine ⟨hinfos, fun heq => ?_⟩
  have hnodup := ((createApplicationId_eq_iff hinfos).1 heq).2
  exact absurd hnodup (by decide)

open Demo in
theorem application_id_of_sets_iff_two :
    createApplicationId signerDigests (some (packagesOfUid [firstPackage, otherPackage])) 10001 =
        some (applicationIdOf (packagesOf [firstPackage, otherPackage])
          (digestsOf signerDigests [firstPackage, otherPackage])) ∧
      createApplicationId signerDigests (some (packagesOfUid [otherPackage, firstPackage])) 10001 =
        some (applicationIdOf (packagesOf [firstPackage, otherPackage])
          (digestsOf signerDigests [firstPackage, otherPackage])) := by
  have hinfos : packageInfos (packagesOfUid [firstPackage, otherPackage]) 10001 =
      some [firstPackage, otherPackage] := by rfl
  have hinfos' : packageInfos (packagesOfUid [otherPackage, firstPackage]) 10001 =
      some [otherPackage, firstPackage] := by rfl
  have hall := (application_id_of_sets_iff signerDigests (packagesOfUid [firstPackage, otherPackage]) 10001
    [firstPackage, otherPackage] hinfos).2 ⟨by decide, by decide⟩
  exact ⟨(hall _ _ hinfos (List.Perm.refl _)).1, (hall _ _ hinfos' (List.Perm.swap ..)).1⟩

end TrickyStore
