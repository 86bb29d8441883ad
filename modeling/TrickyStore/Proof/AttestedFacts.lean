import TrickyStore.Model.AttestedFacts
import TrickyStore.Proof.StableSecrets
import TrickyStore.Proof.TeeVerdict

/-!
# What forged attestations say settles

Once a fact is known exactly it is kept, and until then one and the same value stands in for it.  So of the
attestations of one process, none of which overlap, each fact changes at most once, from the value that
stands in to the exact one, and the boot key and the module hash do not change at all.
-/

open Lib

namespace TrickyStore

namespace AttestedFacts

variable {Thread : Type*} {lib : LeafLibrary} {h : Digests} {sdk : Int} {s t u : AttestedFacts Thread}
  {digest : Option (List Char)} {d : AttestedDevice}

/-! ## What is kept -/

/-- The hash of the hardware's attestation is in the property. -/
def Refreshed (s : AttestedFacts Thread) (hash : Bytes) : Prop :=
  s.tee.state = .WORKING ∧
    (∃ data, s.cachedAttestData = some data ∧ data.verifiedBootHash = some hash) ∧ s.digest = some (toHex hash)

structure Keeps (s t : AttestedFacts Thread) : Prop where
  working : s.tee.state = .WORKING → t.tee.state = .WORKING
  cached : s.tee.state = .WORKING → Known s.cachedAttestData t.cachedAttestData
  versions : ∀ level, Known (s.resolvedVersions.lookup level) (t.resolvedVersions.lookup level)
  bootKey : Known s.secrets.bootKey t.secrets.bootKey
  moduleHash : Known s.moduleHash t.moduleHash
  refreshed : ∀ hash, s.Refreshed hash → t.digest = s.digest

theorem Keeps.refl (s : AttestedFacts Thread) : s.Keeps s :=
  ⟨id, fun _ => Known.refl _, fun _ => Known.refl _, Known.refl _, Known.refl _, fun _ _ => rfl⟩

theorem Keeps.refreshed_of (hst : s.Keeps t) {hash : Bytes} (hs : s.Refreshed hash) : t.Refreshed hash := by
  obtain ⟨hworking, ⟨data, hdata, hhash⟩, hdigest⟩ := hs
  refine ⟨hst.working hworking, ⟨data, hst.cached hworking _ hdata, hhash⟩, ?_⟩
  rw [hst.refreshed hash ⟨hworking, ⟨data, hdata, hhash⟩, hdigest⟩, hdigest]

theorem Keeps.trans (hst : s.Keeps t) (htu : t.Keeps u) : s.Keeps u where
  working hs := htu.working (hst.working hs)
  cached hs := (hst.cached hs).trans (htu.cached (hst.working hs))
  versions level := (hst.versions level).trans (htu.versions level)
  bootKey := hst.bootKey.trans htu.bootKey
  moduleHash := hst.moduleHash.trans htu.moduleHash
  refreshed hash hs := (htu.refreshed hash (hst.refreshed_of hs)).trans (hst.refreshed hash hs)

/-- A step of a thread that builds an attestation: nothing is reported yet, and neither the TEE state nor
the property changes. -/
structure Quiet (s t : AttestedFacts Thread) : Prop extends s.Keeps t where
  tee : t.tee = s.tee
  digest : t.digest = s.digest
  attested : t.attested = s.attested

theorem Quiet.refl (s : AttestedFacts Thread) : s.Quiet s := ⟨Keeps.refl s, rfl, rfl, rfl⟩

theorem Quiet.trans (hst : s.Quiet t) (htu : t.Quiet u) : s.Quiet u :=
  ⟨hst.toKeeps.trans htu.toKeeps, htu.tee.trans hst.tee, htu.digest.trans hst.digest,
    htu.attested.trans hst.attested⟩

theorem keeps_attested (s : AttestedFacts Thread) (attested : List AttestedDevice) :
    s.Keeps { s with attested := attested } :=
  ⟨id, fun _ => Known.refl _, fun _ => Known.refl _, Known.refl _, Known.refl _, fun _ _ => rfl⟩

/-! ## The facts -/

/-- What is known of the hardware's attestation. -/
def Cached (s : AttestedFacts Thread) (data : AttestUtils.AttestationData) : Prop :=
  s.tee.state = .WORKING ∧ s.cachedAttestData = some data

theorem Keeps.cached_of (hst : s.Keeps t) {data : AttestUtils.AttestationData} (hs : s.Cached data) :
    t.Cached data := ⟨hst.working hs.1, hst.cached hs.1 _ hs.2⟩

/-- At most the hardware's attestation was read, which is then kept. -/
structure Reads (s t : AttestedFacts Thread) : Prop where
  same : t = { s with entry := t.entry, cachedAttestData := t.cachedAttestData }
  cached : s.tee.state = .WORKING → Known s.cachedAttestData t.cachedAttestData

theorem Reads.refl (s : AttestedFacts Thread) : s.Reads s := ⟨rfl, fun _ => Known.refl _⟩

theorem Reads.quiet (hst : s.Reads t) : s.Quiet t := by
  obtain ⟨hsame, hcached⟩ := hst
  generalize t.cachedAttestData = cached at *
  generalize t.entry = entry at *
  subst hsame
  exact ⟨⟨id, hcached, fun _ => Known.refl _, Known.refl _, Known.refl _, fun _ _ => rfl⟩, rfl, rfl, rfl⟩

theorem CachedAttestData_spec (lib : LeafLibrary) (s : AttestedFacts Thread) (readable : Bool) :
    s.Reads (s.CachedAttestData lib readable).1 ∧
      (∀ data, (s.CachedAttestData lib readable).2 = some data →
        (s.CachedAttestData lib readable).1.Cached data) ∧
      ∀ data, s.Cached data → (s.CachedAttestData lib readable).2 = some data := by
  unfold CachedAttestData
  by_cases hworking : s.tee.state = .WORKING
  · rw [if_neg (not_not.2 hworking)]
    cases hcached : s.cachedAttestData with
    | some data =>
      refine ⟨Reads.refl s, ?_, fun data' h => hcached.symm.trans h.2⟩
      rintro data' ⟨⟩
      exact ⟨hworking, hcached⟩
    | none =>
      have hknown (data : Option AttestUtils.AttestationData) : Known s.cachedAttestData data := by
        rw [hcached]
        exact known_none _
      have hno (data : AttestUtils.AttestationData) (h : s.Cached data) : False := by
        cases hcached.symm.trans h.2
      unfold getAttestCert
      cases readable with
      | true =>
        exact ⟨⟨rfl, fun _ => hknown _⟩, fun data hdata => ⟨hworking, hdata⟩, fun data h => (hno data h).elim⟩
      | false =>
        refine ⟨⟨rfl, fun _ => hknown _⟩, ?_, fun data h => (hno data h).elim⟩
        rintro data ⟨⟩
  · rw [if_pos hworking]
    refine ⟨Reads.refl s, ?_, fun data h => absurd h.1 hworking⟩
    rintro data ⟨⟩

theorem exactVersions_reads (lib : LeafLibrary) (sdk : Int) (s : AttestedFacts Thread) (level : Int)
    (answers : PlatformAnswers) (readable : Bool) :
    s.Reads (s.exactVersions lib sdk level answers readable).1 := by
  unfold exactVersions
  split
  · exact Reads.refl s
  · unfold cachedTeeVersions
    split_ifs
    · exact Reads.refl s
    · exact (CachedAttestData_spec lib s readable).1

theorem attestationVersions_spec (lib : LeafLibrary) (sdk : Int) (s : AttestedFacts Thread) (level : Int)
    (answers : PlatformAnswers) (readable : Bool) :
    s.Quiet (s.attestationVersions lib sdk level answers readable).1 ∧
      ((s.attestationVersions lib sdk level answers readable).2 = AndroidUtils.fallbackVersions sdk ∨
        (s.attestationVersions lib sdk level answers readable).1.resolvedVersions.lookup level =
          some (s.attestationVersions lib sdk level answers readable).2) ∧
      Known (s.resolvedVersions.lookup level) (some (s.attestationVersions lib sdk level answers readable).2) := by
  unfold attestationVersions
  cases hversions : s.resolvedVersions.lookup level with
  | some versions => exact ⟨Quiet.refl s, .inr hversions, Known.refl _⟩
  | none =>
    have hreads : s.Reads (s.exactVersions lib sdk level answers readable).1 := exactVersions_reads ..
    generalize s.exactVersions lib sdk level answers readable = r at hreads ⊢
    obtain ⟨t, _ | exact⟩ := r
    · exact ⟨hreads.quiet, .inl rfl, known_none _⟩
    · have hnone : t.resolvedVersions.lookup level = none := by
        have hsame : t.resolvedVersions = s.resolvedVersions := by
          dsimp only at hreads
          rw [hreads.same]
        rw [hsame]
        exact hversions
      have hlookup (level' : Int) : Known (t.resolvedVersions.lookup level')
          ((AList.insert level exact t.resolvedVersions).lookup level') := by
        intro versions hknown
        by_cases heq : level' = level
        · rw [heq, hnone] at hknown
          cases hknown
        · rw [AList.lookup_insert_ne heq]
          exact hknown
      have hquiet : t.Quiet { t with resolvedVersions := AList.insert level exact t.resolvedVersions } :=
        ⟨⟨id, fun _ => Known.refl _, hlookup, Known.refl _, Known.refl _, fun _ _ => rfl⟩, rfl, rfl, rfl⟩
      exact ⟨hreads.quiet.trans hquiet, .inr (AList.lookup_insert _), known_none _⟩

/-- The boot key of a process is chosen once. -/
theorem bootKey_reportBootKey (secrets : DeviceSecrets) (r : DeviceSecrets.BootKeyReading) :
    Known secrets.bootKey (secrets.reportBootKey r).bootKey ∧
      (secrets.reportBootKey r).bootKey = some ((secrets.reportBootKey r).bootKey.getD []) := by
  unfold DeviceSecrets.reportBootKey
  cases hkey : secrets.bootKey with
  | some key =>
    dsimp only
    rw [hkey]
    exact ⟨Known.refl _, rfl⟩
  | none => exact ⟨known_none _, rfl⟩

theorem bootKey_spec (lib : LeafLibrary) (s : AttestedFacts Thread) (r : DeviceSecrets.BootKeyReading)
    (readable : Bool) :
    s.Quiet (s.bootKey lib r readable).1 ∧
      (s.bootKey lib r readable).1.secrets.bootKey = some (s.bootKey lib r readable).2 := by
  have hstep (t : AttestedFacts Thread) (r : DeviceSecrets.BootKeyReading) :
      t.Quiet { t with secrets := t.secrets.reportBootKey r } :=
    ⟨⟨id, fun _ => Known.refl _, fun _ => Known.refl _, (bootKey_reportBootKey t.secrets r).1, Known.refl _,
      fun _ _ => rfl⟩, rfl, rfl, rfl⟩
  unfold bootKey
  split_ifs
  · exact ⟨hstep _ _, (bootKey_reportBootKey _ _).2⟩
  · exact ⟨(CachedAttestData_spec lib s readable).1.quiet.trans (hstep _ _), (bootKey_reportBootKey _ _).2⟩

theorem osVersion_spec (lib : LeafLibrary) (sdk : Int) (s : AttestedFacts Thread) (readable : Bool) :
    s.Quiet (s.osVersion lib sdk readable).1 ∧
      ((s.osVersion lib sdk readable).2 = AndroidUtils.fallbackOsVersion sdk ∨
        ∃ data, (s.osVersion lib sdk readable).1.Cached data ∧
          data.osVersion = some (s.osVersion lib sdk readable).2) ∧
      ∀ data, s.Cached data → Known data.osVersion (some (s.osVersion lib sdk readable).2) := by
  obtain ⟨hreads, hfound, hcached⟩ := CachedAttestData_spec lib s readable
  unfold osVersion
  generalize s.CachedAttestData lib readable = r at hreads hfound hcached
  obtain ⟨t, _ | data⟩ := r
  · refine ⟨hreads.quiet, .inl rfl, fun data h => ?_⟩
    cases hcached data h
  · refine ⟨hreads.quiet, ?_, fun data' h => ?_⟩
    · dsimp only [Option.bind_some]
      cases hversion : data.osVersion with
      | none => exact .inl rfl
      | some version => exact .inr ⟨data, hfound data rfl, hversion⟩
    · obtain rfl := Option.some.inj (hcached data' h)
      dsimp only [Option.bind_some]
      cases data.osVersion with
      | none => exact known_none _
      | some version => exact Known.refl _

theorem reportModuleHash_spec (lib : LeafLibrary) (h : Digests) (s : AttestedFacts Thread)
    (info : Option Bytes) (readable : Bool) :
    s.Quiet (s.reportModuleHash lib h info readable).1 ∧
      (s.reportModuleHash lib h info readable).1.moduleHash = some (s.reportModuleHash lib h info readable).2 := by
  unfold reportModuleHash
  cases hhash : s.moduleHash with
  | some hash => exact ⟨Quiet.refl s, hhash⟩
  | none =>
    have hstep (t : AttestedFacts Thread) (ht : t.moduleHash = none) (hash : Bytes) :
        t.Quiet { t with moduleHash := some hash } := by
      refine ⟨⟨id, fun _ => Known.refl _, fun _ => Known.refl _, Known.refl _, ?_, fun _ _ => rfl⟩, rfl, rfl, rfl⟩
      rw [ht]
      exact known_none _
    cases info with
    | some info => exact ⟨hstep s hhash _, rfl⟩
    | none =>
      have hreads := (CachedAttestData_spec lib s readable).1
      refine ⟨hreads.quiet.trans (hstep _ ?_ _), rfl⟩
      rw [hreads.same]
      exact hhash

/-! ## Attestations -/

/-- An attestation says what is known, or what stands in for it; `digest` is the property at the start. -/
structure Settled (sdk : Int) (digest : Option (List Char)) (s : AttestedFacts Thread) (d : AttestedDevice) :
    Prop where
  versions : d.versions = AndroidUtils.fallbackVersions sdk ∨
    s.resolvedVersions.lookup d.securityLevel = some d.versions
  bootKey : s.secrets.bootKey = some d.bootKey
  bootHash : AndroidUtils.getBootHashFromProp digest = some d.bootHash ∨ s.Refreshed d.bootHash
  osVersion : d.osVersion = AndroidUtils.fallbackOsVersion sdk ∨
    ∃ data, s.Cached data ∧ data.osVersion = some d.osVersion
  moduleHash : s.moduleHash = some d.moduleHash

theorem Settled.mono (hd : s.Settled sdk digest d) (hst : s.Keeps t) : t.Settled sdk digest d where
  versions := hd.versions.imp_right (hst.versions _ _)
  bootKey := hst.bootKey _ hd.bootKey
  bootHash := hd.bootHash.imp_right hst.refreshed_of
  osVersion := hd.osVersion.imp_right fun ⟨data, hcached, hversion⟩ => ⟨data, hst.cached_of hcached, hversion⟩
  moduleHash := hst.moduleHash _ hd.moduleHash

/-- What a later attestation says, compared with an earlier one. -/
structure ChangesOnce (sdk : Int) (digest : Option (List Char)) (d d' : AttestedDevice) : Prop where
  versions : d.securityLevel = d'.securityLevel →
    d.versions = AndroidUtils.fallbackVersions sdk ∨ d'.versions = d.versions
  bootKey : d'.bootKey = d.bootKey
  bootHash : AndroidUtils.getBootHashFromProp digest = some d.bootHash ∨ d'.bootHash = d.bootHash
  osVersion : d.osVersion = AndroidUtils.fallbackOsVersion sdk ∨ d'.osVersion = d.osVersion
  moduleHash : d'.moduleHash = d.moduleHash

/-- The invariant: the property is as it was at the start, or holds the hash of the hardware. -/
structure Sound (sdk : Int) (digest : Option (List Char)) (s : AttestedFacts Thread) : Prop where
  tee : s.tee.Sound
  property : s.digest = digest ∨ ∃ hash, s.Refreshed hash
  settled : ∀ d ∈ s.attested, s.Settled sdk digest d
  changesOnce : s.attested.Pairwise (ChangesOnce sdk digest)

theorem Sound.of_keeps (hs : s.Sound sdk digest) (hst : s.Keeps t) (htee : t.tee.Sound)
    (hproperty : t.digest = digest ∨ ∃ hash, t.Refreshed hash) (hattested : t.attested = s.attested) :
    t.Sound sdk digest :=
  ⟨htee, hproperty, fun d hd => (hs.settled d (hattested ▸ hd)).mono hst, hattested ▸ hs.changesOnce⟩

theorem Sound.quiet (hs : s.Sound sdk digest) (hst : s.Quiet t) : t.Sound sdk digest := by
  apply hs.of_keeps hst.toKeeps (hst.tee ▸ hs.tee) _ hst.attested
  rw [hst.digest]
  exact hs.property.imp_right fun ⟨hash, hhash⟩ => ⟨hash, hst.refreshed_of hhash⟩

theorem ofHex_of_getBootHashFromProp {digest : List Char} {hash : Bytes}
    (h : AndroidUtils.getBootHashFromProp (some digest) = some hash) : ofHex digest = some hash := by
  simp only [AndroidUtils.getBootHashFromProp, Option.bind_some] at h
  split_ifs at h
  exact h

/-- The hash that is reported is that of the start, or that of the hardware. -/
theorem Sound.bootHash (hs : s.Sound sdk digest) {hash : Bytes}
    (hhash : AndroidUtils.getBootHashFromProp s.digest = some hash) :
    AndroidUtils.getBootHashFromProp digest = some hash ∨ s.Refreshed hash := by
  rcases hs.property with hsame | ⟨hash', hrefreshed⟩
  · exact .inl (hsame ▸ hhash)
  · rw [hrefreshed.2.2] at hhash
    have hread := ofHex_of_getBootHashFromProp hhash
    rw [ofHex_toHex] at hread
    exact .inr (Option.some.inj hread ▸ hrefreshed)

/-- A new attestation says what is known. -/
structure Repeats (s : AttestedFacts Thread) (d : AttestedDevice) : Prop where
  versions : Known (s.resolvedVersions.lookup d.securityLevel) (some d.versions)
  bootKey : Known s.secrets.bootKey (some d.bootKey)
  bootHash : AndroidUtils.getBootHashFromProp s.digest = some d.bootHash
  osVersion : ∀ data, s.Cached data → Known data.osVersion (some d.osVersion)
  moduleHash : Known s.moduleHash (some d.moduleHash)

theorem Settled.changesOnce {d' : AttestedDevice} (hd : s.Settled sdk digest d) (hd' : s.Repeats d') :
    ChangesOnce sdk digest d d' where
  versions hlevel := hd.versions.imp_right fun hknown =>
    Option.some.inj (hd'.versions _ (hlevel ▸ hknown))
  bootKey := Option.some.inj (hd'.bootKey _ hd.bootKey)
  bootHash := by
    apply hd.bootHash.imp_right
    intro hrefreshed
    have hread := hd'.bootHash
    rw [hrefreshed.2.2] at hread
    have hsame := ofHex_of_getBootHashFromProp hread
    rw [ofHex_toHex] at hsame
    exact (Option.some.inj hsame).symm
  osVersion := hd.osVersion.imp_right fun ⟨data, hcached, hversion⟩ =>
    Option.some.inj (hd'.osVersion data hcached _ hversion)
  moduleHash := Option.some.inj (hd'.moduleHash _ hd.moduleHash)

theorem Sound.attest (hs : s.Sound sdk digest) (h : Digests) (level : Int) (answers : PlatformAnswers)
    (r : DeviceSecrets.BootKeyReading) (readable : CachedFact → Bool) :
    (s.attest lib h sdk level answers r readable).Sound sdk digest := by
  unfold AttestedFacts.attest
  have hspec₁ := attestationVersions_spec lib sdk s level answers (readable .versions)
  generalize s.attestationVersions lib sdk level answers (readable .versions) = r₁ at hspec₁ ⊢
  obtain ⟨s₁, versions⟩ := r₁
  obtain ⟨hquiet₁, hversions, hknownVersions⟩ := hspec₁
  have hspec₂ := bootKey_spec lib s₁ r (readable .bootKey)
  dsimp only
  generalize s₁.bootKey lib r (readable .bootKey) = r₂ at hspec₂ ⊢
  obtain ⟨s₂, key⟩ := r₂
  obtain ⟨hquiet₂, hkey⟩ := hspec₂
  have hs₂ := hs.quiet (hquiet₁.trans hquiet₂)
  dsimp only
  cases hhash : AndroidUtils.getBootHashFromProp s₂.digest with
  | none => exact hs₂
  | some hash =>
    have hspec₃ := osVersion_spec lib sdk s₂ (readable .osVersion)
    generalize s₂.osVersion lib sdk (readable .osVersion) = r₃ at hspec₃ ⊢
    obtain ⟨s₃, version⟩ := r₃
    obtain ⟨hquiet₃, hversion, hknownVersion⟩ := hspec₃
    have hspec₄ := reportModuleHash_spec lib h s₃ answers.supplementaryAttestationInfo (readable .moduleHash)
    dsimp only
    generalize s₃.reportModuleHash lib h answers.supplementaryAttestationInfo (readable .moduleHash) = r₄ at hspec₄ ⊢
    obtain ⟨s₄, moduleHash⟩ := r₄
    obtain ⟨hquiet₄, hmodule⟩ := hspec₄
    have hlater := hquiet₃.trans hquiet₄
    have hearlier := hquiet₁.trans hquiet₂
    have hsettled : s₄.Settled sdk digest ⟨level, versions, key, hash, version, moduleHash⟩ :=
      { versions := hversions.imp_right ((hquiet₂.trans hlater).versions _ _)
        bootKey := hlater.bootKey _ hkey
        bootHash := (hs₂.bootHash hhash).imp_right hlater.refreshed_of
        osVersion := hversion.imp_right fun ⟨data, hcached, hosVersion⟩ =>
          ⟨data, hquiet₄.cached_of hcached, hosVersion⟩
        moduleHash := hmodule }
    have hrepeats : s.Repeats ⟨level, versions, key, hash, version, moduleHash⟩ :=
      { versions := hknownVersions
        bootKey := hkey ▸ hearlier.bootKey
        bootHash := hearlier.digest ▸ hhash
        osVersion := fun data hcached => hknownVersion data (hearlier.cached_of hcached)
        moduleHash := hmodule ▸ (hearlier.trans hlater).moduleHash }
    have hs₄ := hs₂.quiet hlater
    have hsame : s₄.attested = s.attested := (hearlier.trans hlater).attested
    refine ⟨hs₄.tee, hs₄.property, fun d hd => ?_, ?_⟩
    · rcases List.mem_append.1 hd with hd | hd
      · exact (hs₄.settled d hd).mono (keeps_attested _ _)
      · obtain rfl := List.mem_singleton.1 hd
        exact hsettled.mono (keeps_attested _ _)
    · refine List.pairwise_append.2 ⟨hs₄.changesOnce, List.pairwise_singleton _ _, fun d hd d' hd' => ?_⟩
      obtain rfl := List.mem_singleton.1 hd'
      exact (hs.settled d (hsame ▸ hd)).changesOnce hrepeats

/-! ## The other steps -/

theorem Sound.refreshBootHash (hs : s.Sound sdk digest) (readable written : Bool) :
    (s.refreshBootHashFromAttestation lib readable written).Sound sdk digest := by
  obtain ⟨hreads, hfound, -⟩ := CachedAttestData_spec lib s readable
  unfold refreshBootHashFromAttestation
  generalize s.CachedAttestData lib readable = r at hreads hfound
  obtain ⟨t, data⟩ := r
  have ht := hs.quiet hreads.quiet
  dsimp only
  split
  · rename_i hash hhash
    obtain ⟨hash', hverified, hnonzero⟩ := Option.bind_eq_some_iff.1 hhash
    obtain ⟨found, rfl, hverified⟩ := Option.bind_eq_some_iff.1 hverified
    obtain rfl : hash' = hash := by
      unfold DeviceSecrets.takeIfNonZero at hnonzero
      split_ifs at hnonzero
      exact Option.some.inj hnonzero
    have hcached := hfound found rfl
    split_ifs
    · have hrefreshed : ({ t with digest := some (toHex hash') } : AttestedFacts Thread).Refreshed hash' :=
        ⟨hcached.1, ⟨found, hcached.2, hverified⟩, rfl⟩
      -- what was in the property before is what is in it now
      have hkeeps : t.Keeps { t with digest := some (toHex hash') } := by
        refine ⟨id, fun _ => Known.refl _, fun _ => Known.refl _, Known.refl _, Known.refl _, ?_⟩
        rintro earlier ⟨-, ⟨data, hdata, hverified'⟩, hdigest⟩
        obtain rfl := Option.some.inj (hdata.symm.trans hcached.2)
        obtain rfl := Option.some.inj (hverified'.symm.trans hverified)
        exact hdigest.symm
      exact ht.of_keeps hkeeps ht.tee (.inr ⟨hash', hrefreshed⟩) rfl
    · exact ht
  · exact ht

variable [DecidableEq Thread]

theorem Sound.teeStep (hs : s.Sound sdk digest) (e : TeeEvent Thread) (leaf : Certificate) :
    (s.teeStep e leaf).Sound sdk digest := by
  obtain ⟨hextends, htee⟩ := hs.tee.next_step e
  have hworking (h : s.tee.state = .WORKING) : (s.tee.next e).state = .WORKING := by
    have hverdict : (s.tee.next e).state.verdict = some false := hextends.verdict _ (congrArg TeeState.verdict h)
    exact TeeState.verdict_inj hverdict
  have hkeeps : s.Keeps (s.teeStep e leaf) := by
    refine ⟨hworking, fun h => ?_, fun _ => Known.refl _, Known.refl _, Known.refl _, fun _ _ => rfl⟩
    dsimp only [AttestedFacts.teeStep]
    rw [if_neg fun hchanged => hchanged.2 (hworking h)]
    exact Known.refl _
  exact hs.of_keeps hkeeps htee (hs.property.imp_right fun ⟨hash, hhash⟩ => ⟨hash, hkeeps.refreshed_of hhash⟩) rfl

theorem Sound.next (hs : s.Sound sdk digest) (e : Event Thread) : (next lib h sdk s e).Sound sdk digest := by
  cases e with
  | tee e leaf => exact hs.teeStep e leaf
  | refreshBootHash readable written => exact hs.refreshBootHash readable written
  | attest level answers r readable => exact hs.attest h level answers r readable

/-- Of the attestations that one process makes one after another, whatever the files and the boot hash
property are at its start and whatever the probe thread, the listener and the threads in `checkNeed` do
between them: all have one boot key and one module hash; the OS version, the boot hash and the versions of
a security level change at most once, from the value that stands in for them. -/
theorem attested_changes_once (lib : LeafLibrary) (h : Digests) (sdk : Int) (digest : Option (List Char))
    (files : Files SecretFile UInt8) (es : List (Event Thread)) :
    (Machine.run (AttestedFacts.next lib h sdk) { digest := digest, secrets := { files := files } }
      es).attested.Pairwise (ChangesOnce sdk digest) := by
  have hstart : ({ digest := digest, secrets := { files := files } } : AttestedFacts Thread).Sound sdk digest := by
    refine ⟨TeeDaemon.sound_initial, .inl rfl, ?_, List.Pairwise.nil⟩
    rintro d ⟨⟩
  have hrun : (Machine.run (AttestedFacts.next lib h sdk) { digest := digest, secrets := { files := files } }
      es).Sound sdk digest := Machine.run_invariant (fun s e hs => hs.next e) hstart
  exact hrun.changesOnce

end AttestedFacts

end TrickyStore
