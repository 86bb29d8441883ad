import TrickyStore.Proof.GenerateKey
import TrickyStore.Proof.RepresentationRuns

/-!
# The key that signs for a designated attest key

`getAttestationKeyInfo` resolves the descriptor by its alias first and looks in `keyPairs`;
`findGeneratedKey` resolves it by its ids first and looks in `keys`.  The private keys in the two maps are
the same in every reachable state, the certificates need not be.
-/

open Lib

namespace TrickyStore

open CertificateAliasCache

/-- The key that `getAttestationKeyInfo` takes a descriptor for. -/
def CertificateAliasCache.signingOwner (c : CertificateAliasCache) (uid : Int) (descriptor : KeyDescriptor) :
    Option Key :=
  (descriptor.keyAlias.or (c.findAliasForNspace uid descriptor.nspace)).map fun a => ⟨uid, a⟩

/-- The subject of the certificate that `getKeyEntry` delivers for a key. -/
def CertificateAliasCache.deliveredSubject (P : Platform) (c : CertificateAliasCache) (k : Key) : Option String :=
  ((c.cachedResponse k).bind fun r => r.metadata.certificate.bind P.toCertificate).map P.subject

/-- The request for the certificate of a key that is forged for a designated attest key. -/
def Daemon.certificateRequest (P : Platform) (env : Env) (uid : Int) (descriptor : KeyDescriptor)
    (kgp : KeyGenParameters) (securityLevel : Int) (d : Daemon) : Option CertificateRequest := do
  let keyPair ←
    (if kgp.algorithm = Algorithm.EC ∨ kgp.algorithm = Algorithm.RSA then env.generateKeyPair kgp else none)
  let keybox ← d.getKeyboxForAlgorithm kgp.algorithm
  let signing ← d.getAttestationKeyInfo P uid descriptor
  return { keyPair, keybox, params := kgp, issuer := signing.2, uid, securityLevel, signingKeyPair := signing.1 }

/-- The descriptor stands for a forged attest key, whose private key signs and whose certificate names the
issuer. -/
def DesignatedKeySigns (P : Platform) (c : CertificateAliasCache) (uid : Int) (descriptor : KeyDescriptor)
    (request : CertificateRequest) : Prop :=
  ∃ k info, c.findGeneratedOwner uid descriptor = some (k, info) ∧
    info.params.purpose.contains KeyPurpose.ATTEST_KEY = true ∧
    info.keyPair = some request.signingKeyPair ∧ c.deliveredSubject P k = some request.issuer

/-- What the two resolvers find for a descriptor fits together. -/
structure DesignatesOneKey (P : Platform) (c : CertificateAliasCache) (uid : Int) (descriptor : KeyDescriptor) :
    Prop where
  sameKey : descriptor.keyAlias ≠ none → descriptor.nspace ≠ 0 →
    ∀ k info k' info', c.findGeneratedOwner uid descriptor = some (k, info) →
      c.signingOwner uid descriptor = some k' → c.keys.lookup k' = some info' → info.keyPair = info'.keyPair
  purpose : ∀ k info, c.findGeneratedOwner uid descriptor = some (k, info) →
    info.params.purpose.contains KeyPurpose.ATTEST_KEY = true
  sameSubject : ∀ k info k' keyPair first rest, c.findGeneratedOwner uid descriptor = some (k, info) →
    c.signingOwner uid descriptor = some k' → c.keyPairs.lookup k' = some (keyPair, first :: rest) →
      c.deliveredSubject P k = some (P.subject first)

/-! ## The two copies of a key pair -/

/-- A key pair in `keyPairs` is the one in `keys`. -/
def CertificateAliasCache.PairsMatch (c : CertificateAliasCache) : Prop :=
  ∀ k keyPair chain, c.keyPairs.lookup k = some (keyPair, chain) →
    ∃ info, c.keys.lookup k = some info ∧ info.keyPair = some keyPair

/-- Every file has the key pair of a forged key. -/
def PersistenceManager.HavePairs (p : PersistenceManager) : Prop := ∀ pk, p.Keeps pk → pk.keyPair.isSome = true

namespace CertificateAliasCache

variable {c c' : CertificateAliasCache} {k : Key}

theorem PairsMatch.empty : ({} : CertificateAliasCache).PairsMatch := by
  intro k keyPair chain h
  cases h

theorem PairsMatch.congr (h : c.PairsMatch) (hkeys : c'.keys = c.keys) (hpairs : c'.keyPairs = c.keyPairs) :
    c'.PairsMatch := by
  intro k keyPair chain hk
  rw [hpairs] at hk
  rw [hkeys]
  exact h k keyPair chain hk

theorem PairsMatch.clear (h : c.PairsMatch) : (c.clear k).PairsMatch := by
  intro k' keyPair chain hk
  obtain ⟨hne, hk⟩ := HashMap.lookup_erase_eq_some.1 hk
  obtain ⟨info, hinfo, hpair⟩ := h k' keyPair chain hk
  exact ⟨info, HashMap.lookup_erase_eq_some.2 ⟨hne, hinfo⟩, hpair⟩

/-- Both maps get the pair under the same key. -/
theorem PairsMatch.insert {info : Info} {keyPair : KeyPair} {chain : List Certificate} (h : c.PairsMatch)
    (hkeys : c'.keys = c.keys.insert k info) (hpairs : c'.keyPairs = c.keyPairs.insert k (keyPair, chain))
    (hpair : info.keyPair = some keyPair) : c'.PairsMatch := by
  intro k' keyPair' chain' hk
  rw [hpairs] at hk
  rw [hkeys]
  rcases HashMap.lookup_insert_eq_some.1 hk with ⟨rfl, heq⟩ | ⟨hne, hk⟩
  · cases heq
    exact ⟨info, HashMap.lookup_insert_eq_some.2 (.inl ⟨rfl, rfl⟩), hpair⟩
  · obtain ⟨info', hinfo, hpair'⟩ := h k' keyPair' chain' hk
    exact ⟨info', HashMap.lookup_insert_eq_some.2 (.inr ⟨hne, hinfo⟩), hpair'⟩

theorem PairsMatch.updateKeyCertChain {publicCert certificateChain : Option Bytes} (h : c.PairsMatch) :
    (c.updateKeyCertChain k publicCert certificateChain).PairsMatch := by
  intro k' keyPair chain hk
  obtain ⟨info, hinfo, hpair⟩ := h k' keyPair chain hk
  rw [updateKeyCertChain_keys_lookup, hinfo, Option.map_some]
  split_ifs
  · exact ⟨_, rfl, hpair⟩
  · exact ⟨_, rfl, hpair⟩

end CertificateAliasCache

theorem HookStep.pairsMatch {uid : Int} {request : Request} {now : ℕ} {ids : Int → Prop}
    {c c' : CertificateAliasCache} {p p' : PassthroughKeyRegistry} (h : c.PairsMatch)
    (hs : HookStep uid request now ids c p c' p') : c'.PairsMatch := by
  cases hs with
  | unchanged => exact h
  | cleared | relinquished => exact h.clear
  | generated a info keyPair chain n skip _ _ _ _ hpair => exact h.clear.insert rfl rfl hpair
  | patched a r => exact h.clear.congr (register_keys ..) (register_keyPairs ..)
  | promoted a n => exact h.clear.congr (register_keys ..) (register_keyPairs ..)
  | unskipped | regranted | granted | ungranted | resigned => exact h.congr rfl rfl
  | updated => exact h.updateKeyCertChain

namespace PersistenceManager

variable {p p' : PersistenceManager}

theorem HavePairs.of_subset (h : p.HavePairs) (hfiles : p'.files = p.files)
    (hqueue : ∀ pk, .saveKey pk ∈ p'.queue → .saveKey pk ∈ p.queue) : p'.HavePairs := by
  intro pk hpk
  exact h pk (hpk.imp (fun ⟨k, hk⟩ => ⟨k, hfiles ▸ hk⟩) (hqueue pk))

theorem HavePairs.execute {t : PersistTask} (h : p.HavePairs)
    (ht : ∀ pk, t = .saveKey pk → pk.keyPair.isSome = true) : (p.execute t).HavePairs := by
  rintro pk (hpk | hpk)
  · exact h pk (.inl hpk)
  · rcases mem_execute hpk with hpk | rfl
    · exact h pk (.inr hpk)
    · exact ht pk rfl

theorem HavePairs.step (h : p.HavePairs) : p.step.HavePairs := by
  intro pk hpk
  obtain ⟨params, hpk⟩ := keeps_step hpk
  exact h { pk with params := params } hpk

theorem HavePairs.hook {ids : Int → Prop} (h : p.HavePairs) (hs : PersistStep ids p p') : p'.HavePairs := by
  cases hs with
  | kept => exact h
  | deleted k => exact h.execute fun pk hpk => by cases hpk
  | saved new hn hid hpair =>
    apply h.execute
    rintro pk heq
    rw [← PersistTask.saveKey.inj heq]
    exact hpair

end PersistenceManager

namespace Daemon

variable {P : Platform} {env : Env} {d d' : Daemon} {level : SecurityLevel}

/-- The key pairs of the cache and of the files. -/
structure PairsKept (d : Daemon) : Prop where
  cache : d.cache.PairsMatch
  persistence : d.persistence.HavePairs

theorem PairsKept.loadPersistedKeys (h : d.PairsKept) : (d.loadPersistedKeys P env level).PairsKept := by
  refine loadPersistedKeys_invariant (I := fun d' => d'.PairsKept) h ?_
  intro d' pk hpk hd'
  obtain ⟨⟨k, pk'⟩, hentry, rfl⟩ := List.mem_map.1 hpk
  have hsome := h.persistence pk' (.inl ⟨k, HashMap.lookup_eq_some_iff.2 hentry⟩)
  obtain ⟨keyPair, hpair⟩ := Option.isSome_iff_exists.1 hsome
  have hpairs : (d'.restoreKey P env level pk').cache.keyPairs =
      d'.cache.keyPairs.insert pk'.key (keyPair, pk'.chain) := by
    simp only [restoreKey, hpair]
  exact ⟨hd'.cache.insert rfl hpairs hpair, hd'.persistence⟩

theorem PairsKept.step (h : d.PairsKept) (hs : DaemonStep P d d') : d'.PairsKept := by
  have hclear : ({ } : CertificateAliasCache).PairsMatch ∧ d.persistence.clearAll.HavePairs :=
    ⟨.empty, h.persistence.execute fun pk hpk => by cases hpk⟩
  cases hs with
  | idle => exact h
  | pre env uid request =>
    exact ⟨(pre_steps P env request).pairsMatch h.cache, h.persistence.hook (pre_persistence P env uid d request)⟩
  | post env uid request resultCode reply =>
    exact ⟨(post_steps P env request resultCode reply).pairsMatch h.cache,
      h.persistence.hook (post_persistence P env uid d request resultCode reply)⟩
  | operate op call =>
    unfold operate
    split
    · exact h
    · exact ⟨h.cache.congr rfl rfl, h.persistence⟩
  | targetChanged | packageManagerDied => exact ⟨h.cache, h.persistence⟩
  | keyboxChanged => exact ⟨hclear.1, hclear.2⟩
  | persist => exact ⟨h.cache, h.persistence.step⟩
  | restart => exact ⟨.empty, h.persistence.of_subset rfl fun pk hpk => by cases hpk⟩
  | loadPersistedKeys level env => exact ⟨h.loadPersistedKeys.cache, h.loadPersistedKeys.persistence⟩
  | initializeConfig modes keyboxes =>
    cases modes <;> cases keyboxes
    · exact h
    · exact ⟨hclear.1, hclear.2⟩
    · exact ⟨h.cache, h.persistence⟩
    · exact ⟨hclear.1, hclear.2⟩

theorem pairsKept_run (P : Platform) (es : List Event) : (World.run P {} es).daemon.PairsKept :=
  World.run_daemon P {} (fun _ _ h hs => h.step hs) ⟨.empty, fun _ hpk => by rcases hpk with ⟨_, h⟩ | h <;> cases h⟩ es

/-! ## The two resolvers -/

end Daemon

namespace CertificateAliasCache

variable {c : CertificateAliasCache} {uid : Int} {descriptor : KeyDescriptor} {k : Key}

/-- A descriptor without an alias means the key that is registered under its id. -/
theorem signingOwner_of_no_alias (ha : descriptor.keyAlias = none) (h : c.signingOwner uid descriptor = some k) :
    c.ownKey uid descriptor.nspace = some k := by
  obtain ⟨a, halias, rfl⟩ := Option.map_eq_some_iff.1 h
  rw [ha, Option.none_or] at halias
  obtain ⟨k', hk', rfl⟩ := Option.map_eq_some_iff.1 halias
  have huid : k'.uid = uid := (ownKey_eq_some.1 hk').2
  rw [hk', ← huid]

theorem signingOwner_of_alias {a : String} (ha : descriptor.keyAlias = some a) :
    c.signingOwner uid descriptor = some ⟨uid, a⟩ := by
  rw [signingOwner, ha, Option.some_or, Option.map_some]

/-- What signs is found by its ids as well; when the descriptor has one form only, it is the same key. -/
theorem findGeneratedOwner_of_signingOwner {info : Info}
    (hdescriptor : descriptor.keyAlias ≠ none ∨ descriptor.nspace ≠ 0)
    (h : c.signingOwner uid descriptor = some k) (hk : c.keys.lookup k = some info) :
    ∃ k' info', c.findGeneratedOwner uid descriptor = some (k', info') ∧
      (descriptor.keyAlias = none ∨ descriptor.nspace = 0 → k' = k) := by
  unfold findGeneratedOwner resolveOwnerKeys
  cases ha : descriptor.keyAlias with
  | none =>
    have hnspace : descriptor.nspace ≠ 0 := by simpa [ha] using hdescriptor
    rw [if_pos hnspace, signingOwner_of_no_alias ha h]
    exact ⟨k, info, by simp [hk], fun _ => rfl⟩
  | some a =>
    obtain rfl := Option.some.inj ((signingOwner_of_alias ha).symm.trans h)
    by_cases hnspace : descriptor.nspace = 0
    · rw [if_neg (not_not.2 hnspace)]
      exact ⟨⟨uid, a⟩, info, by simp [hk], fun _ => rfl⟩
    · rw [if_pos hnspace, List.findSome?_append]
      generalize List.findSome? _ ((c.ownKey uid descriptor.nspace).toList ++
        (c.grantedKey uid descriptor.nspace).toList) = byId
      cases byId with
      | none => exact ⟨⟨uid, a⟩, info, by simp [hk], fun h => absurd h (by simp [hnspace])⟩
      | some found => exact ⟨found.1, found.2, rfl, fun h => absurd h (by simp [hnspace])⟩

end CertificateAliasCache

namespace Daemon

variable {P : Platform} {env : Env} {uid securityLevel : Int} {level : SecurityLevel} {d : Daemon}
  {descriptor : KeyDescriptor} {kgp : KeyGenParameters} {request : CertificateRequest}

/-- The signer and the issuer of a request are those of one entry of `keyPairs`. -/
theorem certificateRequest_eq_some
    (h : d.certificateRequest P env uid descriptor kgp securityLevel = some request) :
    ∃ k first rest, d.cache.signingOwner uid descriptor = some k ∧
      d.cache.keyPairs.lookup k = some (request.signingKeyPair, first :: rest) ∧
      request.issuer = P.subject first := by
  simp only [certificateRequest, getAttestationKeyInfo, Option.bind_eq_bind, Option.bind_eq_some_iff] at h
  obtain ⟨keyPair, -, keybox, -, signing, ⟨a, ha, entry, hentry, first, hfirst, hsigning⟩, hrequest⟩ := h
  obtain rfl := Option.some.inj hsigning
  obtain rfl := Option.some.inj hrequest
  obtain ⟨keyPair', chain⟩ := entry
  obtain ⟨rest, rfl⟩ := List.head?_eq_some_iff.1 hfirst
  refine ⟨⟨uid, a⟩, first, rest, ?_, hentry, rfl⟩
  rw [signingOwner, ha, Option.map_some]

/-- The leaf of a key that is forged for a designated attest key. -/
theorem generateKeyPair_eq_some {made : KeyPair × List Certificate}
    (h : d.generateKeyPair P env uid (some descriptor) kgp securityLevel = some made) :
    ∃ request leaf, d.certificateRequest P env uid descriptor kgp securityLevel = some request ∧
      env.buildCertificate request = some leaf ∧ made = (request.keyPair, [leaf]) := by
  unfold generateKeyPair at h
  by_cases halgorithm : kgp.algorithm = Algorithm.EC ∨ kgp.algorithm = Algorithm.RSA
  · rw [if_pos halgorithm] at h
    simp only [Option.bind_eq_bind, Option.bind_eq_some_iff] at h
    obtain ⟨keyPair, hpair, keybox, hkeybox, first, -, signing, hsigning, leaf, hleaf, hmade⟩ := h
    refine ⟨_, leaf, ?_, hleaf, (Option.some.inj hmade).symm⟩
    simp only [certificateRequest, if_pos halgorithm, hpair, hkeybox, hsigning, Option.bind_eq_bind,
      Option.bind_some]
    rfl
  · rw [if_neg halgorithm] at h
    cases h

theorem designatedKeySigns_iff (hpairs : d.cache.PairsMatch)
    (hdescriptor : descriptor.keyAlias ≠ none ∨ descriptor.nspace ≠ 0)
    (h : d.certificateRequest P env uid descriptor kgp securityLevel = some request) :
    DesignatedKeySigns P d.cache uid descriptor request ↔ DesignatesOneKey P d.cache uid descriptor := by
  obtain ⟨k', first, rest, howner, hentry, hissuer⟩ := certificateRequest_eq_some h
  obtain ⟨info', hinfo', hpair'⟩ := hpairs k' _ _ hentry
  obtain ⟨k, info, hfound, hsame⟩ := findGeneratedOwner_of_signingOwner hdescriptor howner hinfo'
  constructor
  · rintro ⟨k₁, info₁, hfound₁, hpurpose, hpair, hsubject⟩
    refine ⟨?_, ?_, ?_⟩
    · intro _ _ k₂ info₂ k₃ info₃ hfound₂ howner₃ hinfo₃
      cases hfound₁.symm.trans hfound₂
      cases howner.symm.trans howner₃
      cases hinfo'.symm.trans hinfo₃
      rw [hpair, hpair']
    · intro k₂ info₂ hfound₂
      cases hfound₁.symm.trans hfound₂
      exact hpurpose
    · intro k₂ info₂ k₃ keyPair₃ first₃ rest₃ hfound₂ howner₃ hentry₃
      cases hfound₁.symm.trans hfound₂
      cases howner.symm.trans howner₃
      cases hentry.symm.trans hentry₃
      rw [hsubject, hissuer]
  · intro hone
    refine ⟨k, info, hfound, hone.purpose k info hfound, ?_, ?_⟩
    · by_cases hform : descriptor.keyAlias = none ∨ descriptor.nspace = 0
      · obtain rfl := hsame hform
        cases hinfo'.symm.trans (findGeneratedOwner_eq_some hfound).2
        exact hpair'
      · obtain ⟨halias, hnspace⟩ := not_or.1 hform
        rw [hone.sameKey halias hnspace k info k' info' hfound howner hinfo', hpair']
    · rw [hissuer]
      exact hone.sameSubject k info k' _ first rest hfound howner hentry

end Daemon

/-! ## Answered requests -/

namespace Daemon

variable {P : Platform} {env : Env} {uid : Int} {level : SecurityLevel} {d : Daemon}
  {kd ak : Option KeyDescriptor} {params : Option (List KeyParameter)} {m : KeyMetadata}

theorem checkGenerateKey_attestationKeyDescriptor {d₁ : Daemon} {req : KeygenRequest}
    (h : d.checkGenerateKey P env uid kd ak params = (d₁, .ok req)) : req.attestationKeyDescriptor = ak := by
  unfold checkGenerateKey at h
  dsimp only at h
  repeat' split at h
  all_goals cases h <;> rfl

/-- A request with a designated attest key that is answered with a new key: the leaf of the answer is built
from the request for its certificate. -/
theorem preGenerateKey_designated {descriptor : KeyDescriptor}
    (h : (d.preGenerateKey P env level uid kd (some descriptor) params).2 = .typedReply m) :
    ∃ kgp request leaf, d.certificateRequest P env uid descriptor kgp level.toInt = some request ∧
      env.buildCertificate request = some leaf ∧ m.certificate = some leaf.encoded := by
  have houtcome := preGenerateKey_outcome P env uid level d kd (some descriptor) params
  generalize d.preGenerateKey P env level uid kd (some descriptor) params = outcome at houtcome h
  cases houtcome with
  | answered _ _ _ hreply => exact absurd h (hreply m)
  | forwarded => cases h
  | forged skip hlook hcheck _ hmade =>
    rw [checkGenerateKey_attestationKeyDescriptor hcheck] at hmade
    obtain ⟨request, leaf, hrequest, hleaf, heq⟩ := generateKeyPair_eq_some hmade
    cases heq
    obtain ⟨config, rfl⟩ := hlook.eq
    refine ⟨_, request, leaf, hrequest, hleaf, ?_⟩
    cases h
    rfl

end Daemon

/-- In every reachable state, the designated attest key is the one that signs just when what the two
resolvers find for its descriptor fits together. -/
theorem designated_key_signs_iff (P : Platform) (es : List Event) {env : Env} {uid : Int}
    {level : SecurityLevel} {kd : Option KeyDescriptor} {descriptor : KeyDescriptor}
    {params : Option (List KeyParameter)} {m : KeyMetadata}
    (hdescriptor : descriptor.keyAlias ≠ none ∨ descriptor.nspace ≠ 0)
    (hanswer : ((World.run P {} es).daemon.pre P env uid
      (.generateKey level kd (some descriptor) params)).2 = .typedReply m) :
    ∃ kgp request leaf,
      (World.run P {} es).daemon.certificateRequest P env uid descriptor kgp level.toInt = some request ∧
      env.buildCertificate request = some leaf ∧ m.certificate = some leaf.encoded ∧
      (DesignatedKeySigns P (World.run P {} es).daemon.cache uid descriptor request ↔
        DesignatesOneKey P (World.run P {} es).daemon.cache uid descriptor) := by
  obtain ⟨kgp, request, leaf, hrequest, hleaf, hcertificate⟩ := Daemon.preGenerateKey_designated hanswer
  exact ⟨kgp, request, leaf, hrequest, hleaf, hcertificate,
    Daemon.designatedKeySigns_iff (Daemon.pairsKept_run P es).cache hdescriptor hrequest⟩

/-! ## Two attest keys -/

namespace Demo

def named (a : String) : KeyDescriptor := { keyAlias := some a }

/-- An attested EC key for attesting others. -/
def attestParams : List KeyParameter :=
  [⟨Tag.ALGORITHM, .algorithm Algorithm.EC⟩, ⟨Tag.PURPOSE, .keyPurpose KeyPurpose.ATTEST_KEY⟩,
    ⟨Tag.ATTESTATION_CHALLENGE, .blob [8]⟩]

/-- The surroundings of a hook that draws the id `n` and a pair of its own. -/
def pairEnv (n : ℕ) : Env := { env n with generateKeyPair := fun _ => some ⟨[1], [UInt8.ofNat n]⟩ }

def generateNamed (a : String) (attestKey : Option KeyDescriptor) : Request :=
  .generateKey .trustedEnvironment (some (named a)) attestKey (some attestParams)

/-- The attest keys `a` and `b`, with the ids 7 and 8. -/
def twoAttestKeys : List Event :=
  start .GENERATE .GENERATE ++
    [.arrive 0 owner (generateNamed "a" none) (pairEnv 7), .arrive 1 owner (generateNamed "b" none) (pairEnv 8)]

end Demo

open Demo in
theorem designated_key_signs_by_alias : ∃ m,
    ((World.run platform {} twoAttestKeys).daemon.pre platform (pairEnv 9) owner
      (generateNamed "c" (some (named "a")))).2 = .typedReply m ∧
    ∃ kgp request leaf, (World.run platform {} twoAttestKeys).daemon.certificateRequest platform (pairEnv 9)
        owner (named "a") kgp SecurityLevel.trustedEnvironment.toInt = some request ∧
      (pairEnv 9).buildCertificate request = some leaf ∧ m.certificate = some leaf.encoded ∧
      (DesignatedKeySigns platform (World.run platform {} twoAttestKeys).daemon.cache owner (named "a") request ↔
        DesignatesOneKey platform (World.run platform {} twoAttestKeys).daemon.cache owner (named "a")) := by
  obtain ⟨m, hanswer⟩ : ∃ m, ((World.run platform {} twoAttestKeys).daemon.pre platform (pairEnv 9) owner
      (generateNamed "c" (some (named "a")))).2 = .typedReply m := ⟨_, rfl⟩
  exact ⟨m, hanswer, designated_key_signs_iff platform twoAttestKeys (.inl (by decide)) hanswer⟩

open Demo in
/-- A descriptor with the alias of one attest key and the id of another: the first signs, the second is what
the descriptor stands for. -/
theorem alias_and_id_of_two_keys : ¬ ∀ (descriptor : KeyDescriptor) (m : KeyMetadata),
    (descriptor.keyAlias ≠ none ∨ descriptor.nspace ≠ 0) →
    ((World.run platform {} twoAttestKeys).daemon.pre platform (pairEnv 9) owner
      (generateNamed "c" (some descriptor))).2 = .typedReply m →
    ∃ kgp request leaf, (World.run platform {} twoAttestKeys).daemon.certificateRequest platform (pairEnv 9)
        owner descriptor kgp SecurityLevel.trustedEnvironment.toInt = some request ∧
      (pairEnv 9).buildCertificate request = some leaf ∧ m.certificate = some leaf.encoded ∧
      DesignatedKeySigns platform (World.run platform {} twoAttestKeys).daemon.cache owner descriptor
        request := by
  intro h
  obtain ⟨kgp, request, leaf, hrequest, -, -, k, info, hfound, -, hpair, -⟩ :=
    h { domain := 4, nspace := 8, keyAlias := some "a" } _ (.inl (by decide)) rfl
  obtain ⟨k', first, rest, howner, hentry, -⟩ := Daemon.certificateRequest_eq_some hrequest
  obtain rfl : (⟨owner, "a"⟩ : Key) = k' := Option.some.inj howner
  have hsigner : (World.run platform {} twoAttestKeys).daemon.cache.keyPairs.lookup ⟨owner, "a"⟩ =
      some (⟨[1], [7]⟩, [⟨[3]⟩, ⟨[7]⟩]) := rfl
  have hdesignated : ((World.run platform {} twoAttestKeys).daemon.cache.findGeneratedOwner owner
      { domain := 4, nspace := 8, keyAlias := some "a" }).map (fun o => o.2.keyPair) =
        some (some ⟨[1], [8]⟩) := rfl
  rw [hfound] at hdesignated
  have hsame := Option.some.inj (hpair.symm.trans (Option.some.inj hdesignated))
  have hsigns := (Prod.mk.inj (Option.some.inj (hsigner.symm.trans hentry))).1
  rw [← hsigns] at hsame
  exact absurd hsame (by decide)

end TrickyStore
