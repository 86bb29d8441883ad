import TrickyStore.Proof.AttestationRewrite
import TrickyStore.Proof.GenerateKey
import TrickyStore.Proof.MetadataAgreement

/-!
# Patch levels of a re-signed key

`patchAuthorizations` maps over the authorizations of a real key, `hackAttestExtension` strips tags from the
enforced list and adds its own.  The two are compared tag by tag, for a leaf that was signed again and for
the original leaf, which is delivered when signing throws.
-/

open Lib

namespace TrickyStore

open CertificateHack

/-! ## What a certificate and its metadata report -/

/-- The patch level tags, each with the override that the uid has for it. -/
def patchLevels (env : Env) (uid : Int) : List (Int × Option Int) :=
  [(Tag.OS_PATCHLEVEL, env.patchLevelOverride uid), (Tag.VENDOR_PATCHLEVEL, env.vendorPatchLevelOverride uid),
    (Tag.BOOT_PATCHLEVEL, env.bootPatchLevelOverride uid)]

def patchLevelTags : List Int := [Tag.OS_PATCHLEVEL, Tag.VENDOR_PATCHLEVEL, Tag.BOOT_PATCHLEVEL]

/-- The authorizations have this value under a tag, or the tag is absent. -/
def Authorizes (authorizations : List Authorization) (tag : Int) (v : Option Int) : Prop :=
  ∀ x, (∃ auth ∈ authorizations, auth.keyParameter = ⟨tag, x⟩) ↔ v.map .integer = some x

/-- The list has this value under a tag, or the tag is absent. -/
def Attests (objects : List TaggedObject) (tag : Int) (v : Option Int) : Prop :=
  attested objects tag = (v.map Asn1.integer).toList

/-- The key description of a leaf. -/
def LeafLibrary.keyDescription (lib : LeafLibrary) (leaf : Certificate) : Option (List Asn1) :=
  (lib.attestationExtension leaf).bind lib.codec.getInstance

def enforcedList (encodables : List Asn1) : List TaggedObject := listAt encodables (teeIndexOf encodables)

/-- The authorizations and the leaf have the same patch levels, each with a value or absent. -/
def SamePatchLevels (lib : LeafLibrary) (m : KeyMetadata) : Prop :=
  ∃ leaf encodables, m.certificate.bind lib.generateCertificate = some leaf ∧
    lib.keyDescription leaf = some encodables ∧
    ∀ tag ∈ patchLevelTags, ∃ v, Authorizes (m.authorizations.getD []) tag v ∧
      Attests (enforcedList encodables) tag v

/-- The key description can be rewritten, and there is a keybox with which the leaf can be built. -/
def Resignable (lib : LeafLibrary) (P : Platform) (env : Env) (data : AttestationData) (uid : Int)
    (keyboxes : HashMap String KeyBox) (leaf : Certificate) (encodables : List Asn1) : Prop :=
  ∃ hacked keybox, hackKeyDescription P env data uid encodables = some hacked ∧
    keyboxFor keyboxes (lib.publicKeyAlgorithm leaf) = some keybox ∧ keybox.certificates ≠ [] ∧
    lib.build keybox leaf (lib.codec.encoded hacked) ≠ none

/-- The overrides do the same to the authorizations and to the leaf that is delivered. -/
structure PatchesAlike (env : Env) (uid : Int) (authorizations : List Authorization) (resignable : Prop) :
    Prop where
  signed : resignable → ∀ row ∈ patchLevels env uid,
    row.2 = none ∨ row.2 = some DO_NOT_REPORT ∨ ¬ Authorizes authorizations row.1 none
  original : ¬ resignable → ∀ row ∈ patchLevels env uid,
    row.2 = none ∨ Authorizes authorizations row.1 none ∨
      row.2 ≠ some DO_NOT_REPORT ∧ Authorizes authorizations row.1 row.2

/-! ## One tag -/

/-- What the authorizations have after an override. -/
def patchedLevel (override v : Option Int) : Option Int :=
  match override with
  | none => v
  | some w => if w = DO_NOT_REPORT then none else v.map fun _ => w

/-- What a rewritten list has after an override. -/
def attestedLevel (override v : Option Int) : Option Int :=
  match override with
  | none => v
  | some w => if w = DO_NOT_REPORT then none else some w

theorem patchedLevel_eq_attestedLevel_iff (o v : Option Int) :
    patchedLevel o v = attestedLevel o v ↔ o = none ∨ o = some DO_NOT_REPORT ∨ v ≠ none := by
  unfold patchedLevel attestedLevel
  cases o with
  | none => simp
  | some w =>
    by_cases hno : w = DO_NOT_REPORT
    · simp [hno]
    · cases v <;> simp [hno]

theorem patchedLevel_eq_self_iff (o v : Option Int) :
    patchedLevel o v = v ↔ o = none ∨ v = none ∨ o ≠ some DO_NOT_REPORT ∧ v = o := by
  unfold patchedLevel
  cases o with
  | none => simp
  | some w =>
    by_cases hno : w = DO_NOT_REPORT
    · simp [hno, eq_comm]
    · cases v <;> simp [hno, eq_comm]

section Authorizations

variable {env : Env} {uid : Int} {authorizations : List Authorization} {row : Int × Option Int}
  {v w : Option Int} {tag : Int}

theorem Authorizes.unique (h : Authorizes authorizations tag v) (h' : Authorizes authorizations tag w) :
    v = w := by
  have hmap : v.map KeyParameterValue.integer = w.map .integer := by
    apply Option.ext
    intro x
    exact (h x).symm.trans (h' x)
  have hinj : Function.Injective KeyParameterValue.integer := fun a b hab => by simpa using hab
  exact Option.map_injective hinj hmap

/-- The override that an authorization meets is the one of its tag. -/
theorem patchAuthorization_row (hrow : row ∈ patchLevels env uid) (x : KeyParameterValue) (l : Int) :
    patchAuthorization env uid ⟨⟨row.1, x⟩, l⟩ =
      match row.2 with
      | none => some ⟨⟨row.1, x⟩, l⟩
      | some w => if w = DO_NOT_REPORT then none else some ⟨⟨row.1, .integer w⟩, l⟩ := by
  simp only [patchLevels, List.mem_cons, List.not_mem_nil, or_false] at hrow
  rcases hrow with rfl | rfl | rfl <;> rfl

theorem patchAuthorization_tag {auth patched : Authorization}
    (h : patchAuthorization env uid auth = some patched) : patched.keyParameter.tag = auth.keyParameter.tag := by
  unfold patchAuthorization at h
  dsimp only at h
  split at h
  · rw [Option.some.inj h]
  · split_ifs at h with hno
    obtain rfl := Option.some.inj h
    rfl

/-- An authorization of the patched list comes from one with the same tag. -/
theorem exists_patched_iff (hrow : row ∈ patchLevels env uid) (x : KeyParameterValue) :
    (∃ patched ∈ authorizations.filterMap (patchAuthorization env uid),
        patched.keyParameter = ⟨row.1, x⟩) ↔
      ∃ y, (∃ auth ∈ authorizations, auth.keyParameter = ⟨row.1, y⟩) ∧
        (row.2 = none ∧ x = y ∨ ∃ w, row.2 = some w ∧ w ≠ DO_NOT_REPORT ∧ x = .integer w) := by
  constructor
  · rintro ⟨patched, hpatched, hparameter⟩
    obtain ⟨⟨⟨tag, y⟩, l⟩, hauth, hpatch⟩ := List.mem_filterMap.1 hpatched
    have htag := patchAuthorization_tag hpatch
    rw [hparameter] at htag
    obtain rfl : row.1 = tag := htag
    refine ⟨y, ⟨_, hauth, rfl⟩, ?_⟩
    rw [patchAuthorization_row hrow] at hpatch
    cases hoverride : row.2 with
    | none =>
      rw [hoverride] at hpatch
      obtain rfl := Option.some.inj hpatch
      exact .inl ⟨rfl, (KeyParameter.mk.inj hparameter).2.symm⟩
    | some w =>
      rw [hoverride] at hpatch
      dsimp only at hpatch
      split_ifs at hpatch with hno
      obtain rfl := Option.some.inj hpatch
      exact .inr ⟨w, rfl, hno, (KeyParameter.mk.inj hparameter).2.symm⟩
  · rintro ⟨y, ⟨⟨parameter, l⟩, hauth, rfl⟩, h⟩
    have hpatch := patchAuthorization_row hrow y l
    obtain ⟨hoverride, rfl⟩ | ⟨w, hoverride, hno, rfl⟩ := h
    · rw [hoverride] at hpatch
      exact ⟨_, List.mem_filterMap.2 ⟨_, hauth, hpatch⟩, rfl⟩
    · rw [hoverride] at hpatch
      dsimp only at hpatch
      rw [if_neg hno] at hpatch
      exact ⟨_, List.mem_filterMap.2 ⟨_, hauth, hpatch⟩, rfl⟩

theorem authorizes_patched (hrow : row ∈ patchLevels env uid) (h : Authorizes authorizations row.1 v) :
    Authorizes (authorizations.filterMap (patchAuthorization env uid)) row.1 (patchedLevel row.2 v) := by
  intro x
  rw [exists_patched_iff hrow]
  cases hoverride : row.2 with
  | none => simp [h _, patchedLevel]
  | some w =>
    by_cases hno : w = DO_NOT_REPORT
    · simp [hno, patchedLevel]
    · cases v with
      | none => simp [h _, patchedLevel, hno]
      | some n => simp [h _, patchedLevel, hno, eq_comm]

end Authorizations

section Lists

variable {objects : List TaggedObject} {tag : Int} {v w : Option Int}

theorem Attests.unique (h : Attests objects tag v) (h' : Attests objects tag w) : v = w := by
  have hlist : (v.map Asn1.integer).toList = (w.map Asn1.integer).toList := h.symm.trans h'
  cases v with
  | none =>
    cases w with
    | none => rfl
    | some w => simp at hlist
  | some v =>
    cases w with
    | none => simp at hlist
    | some w =>
      have hval : v = w := by simpa using hlist
      rw [hval]

/-- Both sides have one value each, so they agree when the values do. -/
theorem agree_iff {authorizations : List Authorization} (hauth : Authorizes authorizations tag v)
    (hlist : Attests objects tag w) :
    (∃ u, Authorizes authorizations tag u ∧ Attests objects tag u) ↔ v = w := by
  constructor
  · rintro ⟨u, hu, hu'⟩
    rw [hauth.unique hu, hlist.unique hu']
  · rintro rfl
    exact ⟨v, hauth, hlist⟩

variable {P : Platform} {env : Env} {data : AttestationData} {uid : Int} {encodables hacked : List Asn1}
  {row : Int × Option Int}

/-- The rows are those of the rewriting, with the tags of the authorizations. -/
theorem mem_overrides (hrow : row ∈ patchLevels env uid) :
    (attestationTag row.1, row.2) ∈ overrides env uid := by
  simp only [patchLevels, List.mem_cons, List.not_mem_nil, or_false] at hrow
  rcases hrow with rfl | rfl | rfl
  · exact List.mem_cons_self
  · exact List.mem_cons_of_mem _ List.mem_cons_self
  · exact List.mem_cons_of_mem _ (List.mem_cons_of_mem _ List.mem_cons_self)

/-- A description that was rewritten has its enforced list where it was, with nothing else changed. -/
theorem changesOnlyWhatItMust_of_hacked (hdescription : KeyDescription encodables)
    (h : hackKeyDescription P env data uid encodables = some hacked) :
    ChangesOnlyWhatItMust P env data uid encodables hacked ∧ teeIndexOf hacked = teeIndexOf encodables := by
  obtain ⟨objects, hlist, hnodup⟩ := hdescription.lists (teeIndexOf encodables) (by
    obtain h | h := teeIndexOf_eq encodables <;> simp [h])
  have hlength := hdescription.length
  rw [hackKeyDescription_eq (by omega) hlist] at h
  obtain ⟨hash, hhash, hset⟩ := Option.map_eq_some_iff.1 h
  refine ⟨changesOnlyWhatItMust_set hlength hlist hnodup hhash hset.symm, ?_⟩
  rw [← hset]
  exact teeIndexOf_set hlength (exists_rootOfTrust_rebuilt (hnodup.sublist (List.filter_sublist.map _)))

theorem attests_hacked (hdescription : KeyDescription encodables)
    (h : hackKeyDescription P env data uid encodables = some hacked) (hrow : row ∈ patchLevels env uid)
    (hv : Attests (enforcedList encodables) row.1 v) :
    Attests (enforcedList hacked) row.1 (attestedLevel row.2 v) := by
  obtain ⟨hchanges, hindex⟩ := changesOnlyWhatItMust_of_hacked hdescription h
  have hfilter := hchanges.patchLevels _ (mem_overrides hrow)
  unfold Attests attested enforcedList at hv ⊢
  rw [hindex, hfilter]
  cases hoverride : row.2 with
  | none => exact hv
  | some w =>
    simp only [overridden, attestedLevel]
    split_ifs <;> rfl

/-- Where both sides are rewritten, they agree unless a value is reported that the authorizations lack. -/
theorem agree_signed_iff {old new : List Authorization} (hdescription : KeyDescription encodables)
    (hhacked : hackKeyDescription P env data uid encodables = some hacked) (hrow : row ∈ patchLevels env uid)
    (hauth : Authorizes old row.1 v) (hpatched : Authorizes new row.1 (patchedLevel row.2 v))
    (hlist : Attests (enforcedList encodables) row.1 v) :
    (∃ w, Authorizes new row.1 w ∧ Attests (enforcedList hacked) row.1 w) ↔
      row.2 = none ∨ row.2 = some DO_NOT_REPORT ∨ ¬ Authorizes old row.1 none := by
  have hnone : Authorizes old row.1 none ↔ v = none := ⟨fun h => hauth.unique h, fun h => h ▸ hauth⟩
  rw [agree_iff hpatched (attests_hacked hdescription hhacked hrow hlist), patchedLevel_eq_attestedLevel_iff, hnone]

/-- Where the leaf stays, an override may not change the authorizations. -/
theorem agree_original_iff {old new : List Authorization} {objects : List TaggedObject}
    (hauth : Authorizes old row.1 v) (hpatched : Authorizes new row.1 (patchedLevel row.2 v))
    (hlist : Attests objects row.1 v) :
    (∃ w, Authorizes new row.1 w ∧ Attests objects row.1 w) ↔
      row.2 = none ∨ Authorizes old row.1 none ∨ row.2 ≠ some DO_NOT_REPORT ∧ Authorizes old row.1 row.2 := by
  have hvalue : ∀ w, Authorizes old row.1 w ↔ v = w := fun w => ⟨fun h => hauth.unique h, fun h => h ▸ hauth⟩
  rw [agree_iff hpatched hlist, patchedLevel_eq_self_iff, hvalue, hvalue]

end Lists

/-! ## The delivered metadata -/

section Delivered

variable {lib : LeafLibrary} {P : Platform} {env : Env} {data : AttestationData} {uid : Int}
  {keyboxes : HashMap String KeyBox} {leaf : Certificate} {encodables : List Asn1}

theorem attestedLeaf_of_keyDescription {certificate : Bytes}
    (hleaf : lib.generateCertificate certificate = some leaf) (h : lib.keyDescription leaf = some encodables) :
    attestedLeaf (lib.x509 P env data) certificate = some leaf := by
  obtain ⟨octets, hoctets, -⟩ := Option.bind_eq_some_iff.1 h
  refine Option.filter_eq_some_iff.2 ⟨hleaf, ?_⟩
  show (lib.attestationExtension leaf).isSome = true
  rw [hoctets, Option.isSome_some]

theorem rebuildLeaf_eq (h : lib.keyDescription leaf = some encodables) (keybox : KeyBox) :
    (lib.x509 P env data).rebuildLeaf keybox leaf uid =
      (hackKeyDescription P env data uid encodables).bind fun hacked =>
        lib.build keybox leaf (lib.codec.encoded hacked) := by
  obtain ⟨octets, hoctets, hread⟩ := Option.bind_eq_some_iff.1 h
  show lib.rebuildLeaf P env data keybox leaf uid = _
  simp only [LeafLibrary.rebuildLeaf, hackExtension, hoctets, hread, Option.bind_eq_bind, Option.bind_some]
  cases hackKeyDescription P env data uid encodables <;> rfl

/-- What was signed is a leaf with the rewritten description. -/
theorem of_signing {signed : KeyBox × Certificate} (h : lib.keyDescription leaf = some encodables)
    (hsigned : signing (lib.x509 P env data) keyboxes leaf uid = some signed) :
    Resignable lib P env data uid keyboxes leaf encodables ∧
      ∃ hacked, hackKeyDescription P env data uid encodables = some hacked ∧
        lib.generateCertificate signed.2.encoded = some signed.2 ∧
        lib.attestationExtension signed.2 = some (lib.codec.encoded hacked) := by
  simp only [signing, Option.bind_eq_bind, Option.bind_eq_some_iff] at hsigned
  obtain ⟨keybox, hkeybox, first, hfirst, built, hrebuilt, hpair⟩ := hsigned
  obtain rfl := Option.some.inj hpair
  rw [rebuildLeaf_eq h, Option.bind_eq_some_iff] at hrebuilt
  obtain ⟨hacked, hhacked, hbuilt⟩ := hrebuilt
  refine ⟨⟨hacked, keybox, hhacked, hkeybox, ?_, ?_⟩, hacked, hhacked, lib.generateCertificate_build hbuilt,
    lib.attestationExtension_build hbuilt⟩
  · intro hnil
    rw [hnil] at hfirst
    simp at hfirst
  · rw [hbuilt]
    simp

theorem not_resignable_of_signing (h : lib.keyDescription leaf = some encodables)
    (hsigned : signing (lib.x509 P env data) keyboxes leaf uid = none) :
    ¬ Resignable lib P env data uid keyboxes leaf encodables := by
  rintro ⟨hacked, keybox, hhacked, hkeybox, hcertificates, hbuild⟩
  obtain ⟨built, hbuilt⟩ := Option.ne_none_iff_exists'.1 hbuild
  obtain ⟨first, rest, hcons⟩ := List.exists_cons_of_ne_nil hcertificates
  have hrebuilt : (lib.x509 P env data).rebuildLeaf keybox leaf uid = some built := by
    rw [rebuildLeaf_eq h, hhacked, Option.bind_some, hbuilt]
  have hkeybox' : keyboxFor keyboxes ((lib.x509 P env data).publicKeyAlgorithm leaf) = some keybox := hkeybox
  simp [signing, hkeybox', hcons, hrebuilt] at hsigned

theorem putCertificateChain_certificate (m : KeyMetadata) (first : Certificate) (rest : List Certificate) :
    (m.putCertificateChain (first :: rest)).certificate = some first.encoded := by
  cases rest <;> rfl

variable {level : SecurityLevel} {d : Daemon} {kd : Option KeyDescriptor} {p : Parcel} {a : String}
  {m : KeyMetadata}

/-- What the post-hook delivers: the leaf that was signed, or the original one, with the patched
authorizations. -/
theorem postGenerateKey_delivers (env : Env) (data : AttestationData)
    (ha : kd.bind KeyDescriptor.keyAlias = some a) (hmark : d.treatsAsPassthrough level ⟨uid, a⟩ = false)
    (hmetadata : p.keyMetadata = some (some m)) (hleaf : m.certificate.bind lib.generateCertificate = some leaf)
    (h : lib.keyDescription leaf = some encodables) :
    ∃ delivered, (d.postGenerateKey (lib.hookPlatform P) (lib.hookEnv P env data) level uid kd (some p)).2 =
        .typedReply delivered ∧
      delivered.authorizations = patchAuthorizations env uid m.authorizations ∧
      delivered.certificate =
        some ((signing (lib.x509 P env data) d.keyboxes leaf uid).elim leaf Prod.snd).encoded := by
  have hbind : (m.certificate.bind (lib.hookPlatform P).toCertificate) = some leaf := hleaf
  rw [Daemon.postGenerateKey_eq ha, hmetadata]
  simp only [hmark, Option.bind_some, hbind]
  refine ⟨_, rfl, rfl, ?_⟩
  obtain ⟨certificate, -, hgenerate⟩ := Option.bind_eq_some_iff.1 hleaf
  have hattested : attestedLeaf (lib.x509 P env data) leaf.encoded = some leaf :=
    attestedLeaf_of_keyDescription (lib.generateCertificate_encoded hgenerate) h
  have hchain : ∀ rest, ((d.takeMark level ⟨uid, a⟩).relinquishPassthroughOwnership ⟨uid, a⟩
      |>.clearSyntheticCertificateState ⟨uid, a⟩ false).hackCertificateChain (lib.hookEnv P env data)
        (leaf :: rest) uid =
      ((signing (lib.x509 P env data) d.keyboxes leaf uid).map fun signed =>
        signed.2 :: signed.1.certificates).getD (leaf :: rest) := by
    intro rest
    rw [← hackLeaf_attested hattested]
    rfl
  rw [hchain]
  cases signing (lib.x509 P env data) d.keyboxes leaf uid with
  | none => exact putCertificateChain_certificate _ _ _
  | some signed => exact putCertificateChain_certificate _ _ _

theorem patchAuthorizations_getD (authorizations : Option (List Authorization)) :
    (patchAuthorizations env uid authorizations).getD [] =
      (authorizations.getD []).filterMap (patchAuthorization env uid) := by
  cases authorizations <;> rfl

/-- The levels that are to be the same, for a certificate whose description is known. -/
theorem samePatchLevels_iff {certificate : Certificate} {description : List Asn1}
    (hcertificate : m.certificate.bind lib.generateCertificate = some certificate)
    (h : lib.keyDescription certificate = some description) :
    SamePatchLevels lib m ↔ ∀ tag ∈ patchLevelTags, ∃ v, Authorizes (m.authorizations.getD []) tag v ∧
      Attests (enforcedList description) tag v := by
  constructor
  · rintro ⟨leaf, encodables, hleaf, hencodables, hsame⟩
    obtain rfl := Option.some.inj (hcertificate.symm.trans hleaf)
    obtain rfl := Option.some.inj (h.symm.trans hencodables)
    exact hsame
  · intro hsame
    exact ⟨certificate, description, hcertificate, h, hsame⟩

theorem forall_patchLevelTags (env : Env) (uid : Int) {p : Int → Prop} :
    (∀ tag ∈ patchLevelTags, p tag) ↔ ∀ row ∈ patchLevels env uid, p row.1 := by
  simp [patchLevelTags, patchLevels]

/-- A re-signed key keeps its certificate and its authorizations in step just when the overrides do the
same to both. -/
theorem same_patch_levels_iff (ha : kd.bind KeyDescriptor.keyAlias = some a)
    (hmark : d.treatsAsPassthrough level ⟨uid, a⟩ = false) (hmetadata : p.keyMetadata = some (some m))
    (hleaf : m.certificate.bind lib.generateCertificate = some leaf)
    (hread : lib.keyDescription leaf = some encodables) (hdescription : KeyDescription encodables)
    (hcodec : ∀ hacked, hackKeyDescription P env data uid encodables = some hacked →
      lib.codec.getInstance (lib.codec.encoded hacked) = some hacked)
    (hsame : SamePatchLevels lib m) :
    ∃ delivered, (d.postGenerateKey (lib.hookPlatform P) (lib.hookEnv P env data) level uid kd (some p)).2 =
        .typedReply delivered ∧
      (SamePatchLevels lib delivered ↔ PatchesAlike env uid (m.authorizations.getD [])
        (Resignable lib P env data uid d.keyboxes leaf encodables)) := by
  obtain ⟨delivered, hdelivered, hauthorizations, hcertificate⟩ :=
    postGenerateKey_delivers env data ha hmark hmetadata hleaf hread
  refine ⟨delivered, hdelivered, ?_⟩
  have hold := (forall_patchLevelTags env uid).1 ((samePatchLevels_iff hleaf hread).1 hsame)
  have hpatched : ∀ row ∈ patchLevels env uid, ∀ v, Authorizes (m.authorizations.getD []) row.1 v →
      Authorizes (delivered.authorizations.getD []) row.1 (patchedLevel row.2 v) := by
    intro row hrow v hv
    rw [hauthorizations, patchAuthorizations_getD]
    exact authorizes_patched hrow hv
  cases hsigned : signing (lib.x509 P env data) d.keyboxes leaf uid with
  | some signed =>
    obtain ⟨hresignable, hacked, hhacked, hgenerate, hextension⟩ := of_signing hread hsigned
    rw [hsigned] at hcertificate
    have hbind : delivered.certificate.bind lib.generateCertificate = some signed.2 := by
      rw [hcertificate]
      exact hgenerate
    have hnew : lib.keyDescription signed.2 = some hacked := by
      rw [LeafLibrary.keyDescription, hextension]
      exact hcodec hacked hhacked
    rw [samePatchLevels_iff hbind hnew, forall_patchLevelTags env uid]
    have hrow : ∀ row ∈ patchLevels env uid, (∃ v, Authorizes (delivered.authorizations.getD []) row.1 v ∧
        Attests (enforcedList hacked) row.1 v) ↔
          row.2 = none ∨ row.2 = some DO_NOT_REPORT ∨ ¬ Authorizes (m.authorizations.getD []) row.1 none := by
      intro row hrow
      obtain ⟨v, hauth, hlist⟩ := hold row hrow
      exact agree_signed_iff hdescription hhacked hrow hauth (hpatched row hrow v hauth) hlist
    constructor
    · intro h
      exact ⟨fun _ row hmem => (hrow row hmem).1 (h row hmem), fun hnot => absurd hresignable hnot⟩
    · intro h row hmem
      exact (hrow row hmem).2 (h.signed hresignable row hmem)
  | none =>
    have hnot := not_resignable_of_signing hread hsigned
    rw [hsigned] at hcertificate
    obtain ⟨certificate, -, hgenerate⟩ := Option.bind_eq_some_iff.1 hleaf
    have hbind : delivered.certificate.bind lib.generateCertificate = some leaf := by
      rw [hcertificate]
      exact lib.generateCertificate_encoded hgenerate
    rw [samePatchLevels_iff hbind hread, forall_patchLevelTags env uid]
    have hrow : ∀ row ∈ patchLevels env uid, (∃ v, Authorizes (delivered.authorizations.getD []) row.1 v ∧
        Attests (enforcedList encodables) row.1 v) ↔
          row.2 = none ∨ Authorizes (m.authorizations.getD []) row.1 none ∨
            row.2 ≠ some DO_NOT_REPORT ∧ Authorizes (m.authorizations.getD []) row.1 row.2 := by
      intro row hrow
      obtain ⟨v, hauth, hlist⟩ := hold row hrow
      exact agree_original_iff hauth (hpatched row hrow v hauth) hlist
    constructor
    · intro h
      exact ⟨fun hyes => absurd hyes hnot, fun _ row hmem => (hrow row hmem).1 (h row hmem)⟩
    · intro h row hmem
      exact (hrow row hmem).2 (h.original hnot row hmem)

end Delivered

/-! ## A key with a system patch level -/

namespace Demo

/-- Certificates that are nothing but their attestation extension. -/
def leafLibrary : LeafLibrary where
  generateCertificate := fun b => some ⟨b⟩
  attestationExtension := fun leaf => some leaf.encoded
  publicKeyAlgorithm := fun _ => "EC"
  codec := codec
  build := fun _ _ octets => if octets.length < 2 ^ 31 then some ⟨octets⟩ else none
  generateCertificate_encoded := fun _ => rfl
  generateCertificate_build := fun _ => rfl
  attestationExtension_build := by
    intro keybox leaf built octets h
    split_ifs at h
    obtain rfl := Option.some.inj h
    rfl
  length_build := by
    intro keybox leaf built octets h
    split_ifs at h with hlength
    obtain rfl := Option.some.inj h
    exact hlength

def attestedKey : KeyMetadata where
  key := some (byId 7)
  authorizations := some [⟨⟨Tag.OS_PATCHLEVEL, .integer 202401⟩, 1⟩]
  certificate := some originalOctets

theorem keyDescription_attestedKey :
    leafLibrary.keyDescription ⟨originalOctets⟩ = some (attestation originalTee) := rfl

theorem samePatchLevels_attestedKey : SamePatchLevels leafLibrary attestedKey := by
  refine ⟨⟨originalOctets⟩, attestation originalTee, rfl, keyDescription_attestedKey, ?_⟩
  intro tag htag
  simp only [patchLevelTags, List.mem_cons, List.not_mem_nil, or_false] at htag
  rcases htag with rfl | rfl | rfl
  · exact ⟨some 202401, by simp [Authorizes, attestedKey], rfl⟩
  · exact ⟨none, by simp [Authorizes, attestedKey, Tag.OS_PATCHLEVEL, Tag.VENDOR_PATCHLEVEL], rfl⟩
  · exact ⟨none, by simp [Authorizes, attestedKey, Tag.OS_PATCHLEVEL, Tag.BOOT_PATCHLEVEL], rfl⟩

theorem delivered_without_keybox : ∃ delivered,
    (({} : Daemon).postGenerateKey (leafLibrary.hookPlatform platform)
      (leafLibrary.hookEnv platform patchedEnv attestationData) .trustedEnvironment owner (some byAlias)
      (some (.typedObject (.metadata attestedKey)))).2 = .typedReply delivered ∧
    delivered.authorizations = patchAuthorizations patchedEnv owner attestedKey.authorizations ∧
    delivered.certificate = some originalOctets :=
  postGenerateKey_delivers (a := "a") patchedEnv attestationData rfl rfl rfl rfl keyDescription_attestedKey

end Demo

open Demo in
theorem same_patch_levels_of_attested_key : ∃ delivered,
    (({ keyboxes := keyboxes } : Daemon).postGenerateKey (leafLibrary.hookPlatform platform)
      (leafLibrary.hookEnv platform patchedEnv attestationData) .trustedEnvironment owner (some byAlias)
      (some (.typedObject (.metadata attestedKey)))).2 = .typedReply delivered ∧
    (SamePatchLevels leafLibrary delivered ↔ PatchesAlike patchedEnv owner (attestedKey.authorizations.getD [])
      (Resignable leafLibrary platform patchedEnv attestationData owner keyboxes ⟨originalOctets⟩
        (attestation originalTee))) := by
  refine same_patch_levels_iff (a := "a") rfl rfl rfl rfl keyDescription_attestedKey
    keyDescription_attestation ?_ samePatchLevels_attestedKey
  intro hacked hhacked
  obtain rfl : attestation rewrittenTee = hacked := Option.some.inj (Eq.trans rfl hhacked)
  rfl

open Demo in
/-- Without a keybox the original leaf is delivered, with authorizations that have the override. -/
theorem fallback_patch_levels_differ : ¬ ∀ (d : Daemon) (m delivered : KeyMetadata),
    SamePatchLevels leafLibrary m →
    (d.postGenerateKey (leafLibrary.hookPlatform platform)
      (leafLibrary.hookEnv platform patchedEnv attestationData) .trustedEnvironment owner (some byAlias)
      (some (.typedObject (.metadata m)))).2 = .typedReply delivered →
    SamePatchLevels leafLibrary delivered := by
  intro h
  obtain ⟨delivered, hdelivered, hauthorizations, hcertificate⟩ := delivered_without_keybox
  have hsame := h {} attestedKey delivered samePatchLevels_attestedKey hdelivered
  have hbind : delivered.certificate.bind leafLibrary.generateCertificate = some ⟨originalOctets⟩ := by
    rw [hcertificate, Option.bind_some]
    rfl
  obtain ⟨v, hauth, hlist⟩ := (samePatchLevels_iff hbind keyDescription_attestedKey).1 hsame
    Tag.OS_PATCHLEVEL (by simp [patchLevelTags])
  have hv : v = some 202401 := hlist.unique rfl
  have hpatched : Authorizes (delivered.authorizations.getD []) Tag.OS_PATCHLEVEL (some 202512) := by
    have hrow : ((Tag.OS_PATCHLEVEL, some 202512) : Int × Option Int) ∈ patchLevels patchedEnv owner :=
      List.mem_cons_self
    rw [hauthorizations]
    exact authorizes_patched hrow (v := some 202401) (by simp [Authorizes])
  have hw := hauth.unique hpatched
  rw [hv] at hw
  simp at hw

end TrickyStore
