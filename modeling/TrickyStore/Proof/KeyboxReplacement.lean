import TrickyStore.Model.KeyboxReload
import TrickyStore.Proof.LegacyAuto

/-!
# What a keybox replacement leaves behind

`cleanupAll` drops every key that was stored before, and its file once the executor has run.  A chain that
was made with an old keybox and is stored behind `cleanupAll` stays, in memory and on disk.  A chain is
stored in time when the keybox was read after the keyboxes were cleared, and the entry of a designated
attest key after `cleanupAll`.
-/

open Lib

namespace TrickyStore

open CertificateAliasCache

/-- The stored chain is signed by an installed keybox and ends in its certificates, or it was stored behind
`cleanupAll` and signed by an attest key whose own chain is fresh. -/
inductive StoredChain.Fresh (installed : List KeyBox) (stored : List StoredChain) : StoredChain → Prop
  | keybox {c : StoredChain} {b : KeyBox} {leaf : Certificate} (hsigner : c.made.signer = .keybox b)
      (hinstalled : b ∈ installed) (hchain : c.made.chain = leaf :: b.certificates) :
    Fresh installed stored c
  | attestKey {c c' : StoredChain} {keyPair : KeyPair}
      (hsigner : c.made.signer = .attestKey c'.made.key keyPair c'.made.chain) (hstored : c.storedAt = .done)
      (hmem : c' ∈ stored) (hpair : c'.made.keyPair = some keyPair) (hfresh : Fresh installed stored c') :
    Fresh installed stored c

/-- The metadata carries the chain. -/
def KeyMetadata.Carries (m : KeyMetadata) (chain : List Certificate) : Prop :=
  ∃ (m₀ : KeyMetadata) (authorizations : Option (List Authorization)),
    m = { m₀.putCertificateChain chain with authorizations := authorizations }

/-- Every chain that was forged or re-signed is fresh, in memory and in the files. -/
structure AllFresh (installed : List KeyBox) (stored : List StoredChain) (cache : CertificateAliasCache)
    (files : HashMap Key PersistedKey) : Prop where
  keyPairs : ∀ k keyPair chain, cache.keyPairs.lookup k = some (keyPair, chain) →
    ∃ c ∈ stored, c.made.key = k ∧ c.made.keyPair = some keyPair ∧ c.made.chain = chain ∧
      c.Fresh installed stored
  patchedResponses : ∀ k r, cache.patchedResponses.lookup k = some r →
    ∃ c ∈ stored, c.made.key = k ∧ r.metadata.Carries c.made.chain ∧
      (c.made.signer = .nobody ∨ c.Fresh installed stored)
  files : ∀ k pk, files.lookup k = some pk →
    ∃ c ∈ stored, c.made.key = k ∧ c.made.keyPair = pk.keyPair ∧ c.made.chain = pk.chain ∧
      c.Fresh installed stored

/-- When everything has ended, nothing is left that the old keybox signed. -/
def KeyboxReplaced (P : Platform) (x : X509) (d : Daemon) (elements : List (String × KeyBox))
    (es : List KeyboxReload.Event) : Prop :=
  let s := Machine.run (KeyboxReload.next P x) (.start d elements) es
  s.Ended → AllFresh (elements.map Prod.snd) s.stored s.daemon.cache s.daemon.persistence.files

/-- The keybox was read after the keyboxes were cleared, the entry of an attest key behind `cleanupAll`. -/
def SigningInFlight.InTime (t : SigningInFlight) : Prop :=
  match t.made.signer with
  | .keybox _ => t.readAt ≠ .waiting
  | .attestKey .. => t.readAt = .done
  | .nobody => True

/-- Behind `cleanupAll`, only chains that were made in time are stored. -/
def StoresInTime (s : KeyboxReload) : KeyboxReload.Event → Prop
  | .store id => s.stage = .done → ∀ t, s.inFlight.lookup id = some t → t.InTime
  | _ => True

/-! ## Fresh chains -/

section Fresh

variable {installed : List KeyBox} {stored stored' : List StoredChain} {cache : CertificateAliasCache}
  {files : HashMap Key PersistedKey} {c : StoredChain} {k : Key}

theorem StoredChain.Fresh.mono (h : c.Fresh installed stored) (hstored : stored ⊆ stored') :
    c.Fresh installed stored' := by
  induction h with
  | keybox hsigner hinstalled hchain => exact .keybox hsigner hinstalled hchain
  | attestKey hsigner hdone hmem hpair _ ih => exact .attestKey hsigner hdone (hstored hmem) hpair ih

namespace AllFresh

theorem mono (h : AllFresh installed stored cache files) (hstored : stored ⊆ stored') :
    AllFresh installed stored' cache files where
  keyPairs := by
    intro k keyPair chain hk
    obtain ⟨c, hc, hkey, hpair, hchain, hfresh⟩ := h.keyPairs k keyPair chain hk
    exact ⟨c, hstored hc, hkey, hpair, hchain, hfresh.mono hstored⟩
  patchedResponses := by
    intro k r hk
    obtain ⟨c, hc, hkey, hcarries, hfresh⟩ := h.patchedResponses k r hk
    exact ⟨c, hstored hc, hkey, hcarries, hfresh.imp_right fun hfresh => hfresh.mono hstored⟩
  files := by
    intro k pk hk
    obtain ⟨c, hc, hkey, hpair, hchain, hfresh⟩ := h.files k pk hk
    exact ⟨c, hstored hc, hkey, hpair, hchain, hfresh.mono hstored⟩

theorem empty : AllFresh installed stored {} ∅ :=
  ⟨fun _ _ _ h => (by cases h), fun _ _ h => (by cases h), fun _ _ h => (by cases h)⟩

theorem clear (h : AllFresh installed stored cache files) (k : Key) :
    AllFresh installed stored (cache.clear k) files where
  keyPairs := fun _ keyPair chain hk' => h.keyPairs _ keyPair chain (HashMap.lookup_erase_eq_some.1 hk').2
  patchedResponses := fun _ r hk' => h.patchedResponses _ r (HashMap.lookup_erase_eq_some.1 hk').2
  files := h.files

/-- A fresh forged key joins. -/
theorem storeGenerated {info : Info} {keyPair : KeyPair} {chain : List Certificate} {n : Int} {skip : Bool}
    (h : AllFresh installed stored cache files) (hc : c ∈ stored) (hpair : c.made.keyPair = some keyPair)
    (hchain : c.made.chain = chain) (hfresh : c.Fresh installed stored) :
    AllFresh installed stored (cache.storeGenerated c.made.key info keyPair chain n skip) files where
  keyPairs := by
    intro k' keyPair' chain' hk'
    rcases HashMap.lookup_insert_eq_some.1 hk' with ⟨rfl, heq⟩ | ⟨-, hold⟩
    · cases heq
      exact ⟨c, hc, rfl, hpair, hchain, hfresh⟩
    · exact h.keyPairs k' keyPair' chain' hold
  patchedResponses := h.patchedResponses
  files := h.files

theorem storePatched {r : KeyEntryResponse} (h : AllFresh installed stored cache files) (hc : c ∈ stored)
    (hcarries : r.metadata.Carries c.made.chain)
    (hfresh : c.made.signer = .nobody ∨ c.Fresh installed stored) :
    AllFresh installed stored (cache.storePatched c.made.key r) files where
  keyPairs := by
    unfold CertificateAliasCache.storePatched
    rw [register_keyPairs]
    exact h.keyPairs
  patchedResponses := by
    intro k' r' hk'
    rw [CertificateAliasCache.storePatched, register_patchedResponses] at hk'
    rcases HashMap.lookup_insert_eq_some.1 hk' with ⟨rfl, rfl⟩ | ⟨-, hold⟩
    · exact ⟨c, hc, rfl, hcarries, hfresh⟩
    · exact h.patchedResponses k' r' hold
  files := h.files

/-- The file of a fresh forged key, or the old files where its alias does not fit. -/
theorem saveKey {pk : PersistedKey} (h : AllFresh installed stored cache files) (hc : c ∈ stored)
    (hkey : c.made.key = pk.key) (hpair : c.made.keyPair = pk.keyPair) (hchain : c.made.chain = pk.chain)
    (hfresh : c.Fresh installed stored) :
    AllFresh installed stored cache (PersistenceManager.runTask files (.saveKey pk)) where
  keyPairs := h.keyPairs
  patchedResponses := h.patchedResponses
  files := by
    intro k' pk' hk'
    simp only [PersistenceManager.runTask] at hk'
    split_ifs at hk'
    · rcases HashMap.lookup_insert_eq_some.1 hk' with ⟨rfl, rfl⟩ | ⟨-, hold⟩
      · exact ⟨c, hc, hkey, hpair, hchain, hfresh⟩
      · exact h.files k' pk' hold
    · exact h.files k' pk' hk'

end AllFresh

end Fresh

/-! ## Who signs -/

/-- The signer of a chain is what the code signs with in the state: a keybox that is there, whose certificates
follow the leaf, or the entry of an attest key.  A key is never forged without one. -/
structure MadeChain.Justified (d : Daemon) (m : MadeChain) : Prop where
  keybox : ∀ b, m.signer = .keybox b →
    (∃ name, d.keyboxes.lookup name = some b) ∧ ∃ leaf, m.chain = leaf :: b.certificates
  attestKey : ∀ k keyPair chain, m.signer = .attestKey k keyPair chain →
    d.cache.keyPairs.lookup k = some (keyPair, chain)
  nobody : m.signer = .nobody → m.keyPair = none

namespace Daemon

variable {P : Platform} {x : X509} {env : Env} {level : SecurityLevel} {uid : Int} {d d' : Daemon}

theorem head?_lookup {m : HashMap String KeyBox} {b : KeyBox}
    (h : m.entries.head?.map Sigma.snd = some b) : ∃ name, m.lookup name = some b := by
  obtain ⟨e, he, rfl⟩ := Option.map_eq_some_iff.1 h
  exact ⟨e.1, HashMap.lookup_eq_some_iff.2 (List.mem_of_head? he)⟩

theorem getKeyboxForAlgorithm_lookup {algorithm : Int} {b : KeyBox}
    (h : d.getKeyboxForAlgorithm algorithm = some b) : ∃ name, d.keyboxes.lookup name = some b := by
  obtain ⟨name, -, h⟩ := Option.bind_eq_some_iff.1 h
  rcases Option.or_eq_some_iff.1 h with h | ⟨-, h⟩
  · exact ⟨name, h⟩
  · exact head?_lookup h

theorem leafSigning_lookup {chain : List Certificate} {signed : KeyBox × Certificate}
    (h : d.leafSigning x uid chain = some signed) : ∃ name, d.keyboxes.lookup name = some signed.1 := by
  obtain ⟨leaf, -, hsigning⟩ := Option.bind_eq_some_iff.1 h
  simp only [CertificateHack.signing, Option.bind_eq_bind, Option.bind_eq_some_iff] at hsigning
  obtain ⟨b, hb, -, -, hacked, -, heq⟩ := hsigning
  cases heq
  rcases Option.or_eq_some_iff.1 hb with hb | ⟨-, hb⟩
  · exact ⟨_, hb⟩
  · exact head?_lookup hb

/-- The chain after re-signing: that of the keybox, or the chain as it was. -/
theorem hackCertificateChain_eq (chain : List Certificate) :
    d.hackCertificateChain { env with hackLeaf := CertificateHack.hackLeaf x } chain uid =
      (d.leafSigning x uid chain).elim chain fun signed => signed.2 :: signed.1.certificates := by
  unfold hackCertificateChain leafSigning
  dsimp only
  cases hfirst : chain.head? with
  | none => simp [CertificateHack.hackLeaf, hfirst]
  | some first =>
    rw [Option.bind_some]
    cases hleaf : x.generateCertificate first.encoded with
    | none => simp [CertificateHack.hackLeaf, CertificateHack.attestedLeaf, hfirst, hleaf]
    | some leaf =>
      cases hattested : x.hasAttestationExtension leaf with
      | false =>
        have hplain : CertificateHack.attestedLeaf x first.encoded = none :=
          Option.filter_eq_none_iff.2 fun leaf' hleaf' => by
            cases hleaf.symm.trans hleaf'
            simp [hattested]
        simp [CertificateHack.hackLeaf, hplain, hfirst, hleaf, hattested]
      | true =>
        have hfound : CertificateHack.attestedLeaf x first.encoded = some leaf :=
          Option.filter_eq_some_iff.2 ⟨hleaf, hattested⟩
        rw [hfound, Option.bind_some]
        simp only [CertificateHack.hackLeaf, CertificateHack.signing, hfirst, hleaf, hattested,
          Option.bind_eq_bind, Option.bind_some, Bool.not_true, Bool.false_eq_true, if_false]
        cases CertificateHack.keyboxFor d.keyboxes (x.publicKeyAlgorithm leaf) with
        | none => rfl
        | some b =>
          simp only [Option.bind_some]
          cases b.certificates.head? with
          | none => rfl
          | some c =>
            simp only [Option.bind_some]
            cases x.rebuildLeaf b leaf uid <;> rfl

/-- The signer of a forged chain is the one that `generateKeyPair` signed with. -/
theorem justified_forged {request : KeygenRequest} {made : KeyPair × List Certificate} {skip : Bool}
    (h : d.generateKeyPair P env uid request.attestationKeyDescriptor request.kgp level.toInt = some made) :
    (MadeChain.forged uid level request env made.1 made.2 (d.forgeSigner uid request) skip).Justified d := by
  unfold Daemon.generateKeyPair at h
  by_cases halgorithm : request.kgp.algorithm = Algorithm.EC ∨ request.kgp.algorithm = Algorithm.RSA
  · rw [if_pos halgorithm] at h
    cases hak : request.attestationKeyDescriptor with
    | none =>
      simp only [hak, Option.bind_eq_bind, Option.bind_eq_some_iff] at h
      obtain ⟨keyPair, -, b, hb, first, -, signing, -, leaf, -, heq⟩ := h
      cases heq
      have hsigner : d.forgeSigner uid request = .keybox b := by
        rw [forgeSigner, hak]
        simp only [hb, Option.elim_some]
      refine ⟨fun b' hb' => ?_, fun k keyPair' chain' hk => ?_, fun hnobody => ?_⟩
      · cases hsigner.symm.trans hb'
        exact ⟨getKeyboxForAlgorithm_lookup hb, leaf, rfl⟩
      · cases hsigner.symm.trans hk
      · cases hsigner.symm.trans hnobody
    | some descriptor =>
      simp only [hak, getAttestationKeyInfo, Option.bind_eq_bind, Option.bind_eq_some_iff] at h
      obtain ⟨keyPair, -, b, -, first, -, signing, ⟨keyAlias, halias, entry, hentry, -⟩, -⟩ := h
      have hsigner : d.forgeSigner uid request = .attestKey ⟨uid, keyAlias⟩ entry.1 entry.2 := by
        rw [forgeSigner, hak]
        simp only [attestationKey, halias, hentry, Option.bind_some, Option.map_some, Option.getD_some]
      refine ⟨fun b' hb' => ?_, fun k keyPair' chain' hk => ?_, fun hnobody => ?_⟩
      · cases hsigner.symm.trans hb'
      · cases hsigner.symm.trans hk
        exact hentry
      · cases hsigner.symm.trans hnobody
  · rw [if_neg halgorithm] at h
    cases h

theorem justified_resigned {keyAlias : String} {metadata : KeyMetadata} {chain : List Certificate} :
    (MadeChain.resigned uid level keyAlias metadata env
      (d.hackCertificateChain { env with hackLeaf := CertificateHack.hackLeaf x } chain uid)
      ((d.leafSigning x uid chain).elim .nobody fun signed => .keybox signed.1)).Justified d := by
  rw [hackCertificateChain_eq]
  cases hsigned : d.leafSigning x uid chain with
  | none => exact ⟨fun _ h => (by cases h), fun _ _ _ h => (by cases h), fun _ => rfl⟩
  | some signed =>
    refine ⟨fun b hb => ?_, fun _ _ _ h => (by cases h), fun _ => rfl⟩
    cases hb
    exact ⟨leafSigning_lookup hsigned, signed.2, rfl⟩

/-- The first step of a transaction at most clears a key, and makes a justified chain. -/
theorem beginSigning_spec (signing : Signing) :
    (d.beginSigning P x signing).1.keyboxes = d.keyboxes ∧
      (d.beginSigning P x signing).1.persistence = d.persistence ∧
      ((d.beginSigning P x signing).1.cache = d.cache ∨
        ∃ k, (d.beginSigning P x signing).1.cache = d.cache.clear k) ∧
      ∀ made, (d.beginSigning P x signing).2 = some made →
        made.Justified (d.beginSigning P x signing).1 := by
  cases signing with
  | forge uid level request env =>
    refine ⟨rfl, rfl, .inl rfl, fun made hmade => ?_⟩
    obtain ⟨made', hmade', rfl⟩ := Option.map_eq_some_iff.1 hmade
    exact justified_forged hmade'
  | resign uid level keyAlias metadata chain env =>
    refine ⟨rfl, rfl, .inr ⟨⟨uid, keyAlias⟩, rfl⟩, fun made hmade => ?_⟩
    cases hmade
    exact justified_resigned

end Daemon

/-! ## The invariant -/

/-- What is known of a transaction between its two steps. -/
structure SigningInFlight.Known (installed : List KeyBox) (stored : List StoredChain) (t : SigningInFlight) :
    Prop where
  keybox : ∀ b, t.made.signer = .keybox b →
    (∃ leaf, t.made.chain = leaf :: b.certificates) ∧ (t.readAt ≠ .waiting → b ∈ installed)
  attestKey : ∀ k keyPair chain, t.made.signer = .attestKey k keyPair chain → t.readAt = .done →
    ∃ c ∈ stored, c.made.key = k ∧ c.made.keyPair = some keyPair ∧ c.made.chain = chain ∧
      c.Fresh installed stored
  nobody : t.made.signer = .nobody → t.made.keyPair = none

namespace SigningInFlight.Known

variable {installed : List KeyBox} {stored stored' : List StoredChain} {t : SigningInFlight}

theorem mono (h : t.Known installed stored) (hstored : stored ⊆ stored') : t.Known installed stored' where
  keybox := h.keybox
  attestKey := by
    intro k keyPair chain hsigner hread
    obtain ⟨c, hc, hkey, hpair, hchain, hfresh⟩ := h.attestKey k keyPair chain hsigner hread
    exact ⟨c, hstored hc, hkey, hpair, hchain, hfresh.mono hstored⟩
  nobody := h.nobody

/-- A chain that was made in time is fresh when it is stored. -/
theorem fresh (h : t.Known installed stored) (ht : t.InTime) :
    t.made.signer = .nobody ∨
      StoredChain.Fresh installed (⟨t.made, .done⟩ :: stored) ⟨t.made, .done⟩ := by
  unfold InTime at ht
  cases hsigner : t.made.signer with
  | nobody => exact .inl rfl
  | keybox b =>
    rw [hsigner] at ht
    obtain ⟨⟨leaf, hchain⟩, hinstalled⟩ := h.keybox b hsigner
    exact .inr (.keybox hsigner (hinstalled ht) hchain)
  | attestKey k keyPair chain =>
    rw [hsigner] at ht
    obtain ⟨c, hc, rfl, hpair, rfl, hfresh⟩ := h.attestKey k keyPair chain hsigner ht
    exact .inr (.attestKey hsigner rfl (List.mem_cons_of_mem _ hc) hpair (hfresh.mono (List.subset_cons_self ..)))

end SigningInFlight.Known

namespace KeyboxReload

variable {P : Platform} {x : X509} {elements : List (String × KeyBox)} {s : KeyboxReload}

/-- The replacement has not begun, or only its keyboxes are installed and the rest of its steps is left. -/
def Progress (elements : List (String × KeyBox)) (s : KeyboxReload) : Prop :=
  s.reload = ReloadStep.updateKeyBox elements ∨
    (∀ name b, s.daemon.keyboxes.lookup name = some b → b ∈ elements.map Prod.snd) ∧
      (s.reload = [] ∨ ∃ rest, rest ⊆ elements ∧
        s.reload = (rest.map fun e => ReloadStep.storeKeybox e.1 e.2) ++ [.cleanupAll])

/-- What every step keeps, when only chains made in time are stored behind `cleanupAll`. -/
structure Inv (elements : List (String × KeyBox)) (s : KeyboxReload) : Prop where
  progress : s.Progress elements
  inFlight : ∀ id t, s.inFlight.lookup id = some t → t.Known (elements.map Prod.snd) s.stored
  fresh : s.stage = .done →
    AllFresh (elements.map Prod.snd) s.stored s.daemon.cache s.daemon.persistence.settled

theorem stage_storing (rest : List (String × KeyBox)) :
    ReloadStep.stage ((rest.map fun e => ReloadStep.storeKeybox e.1 e.2) ++ [.cleanupAll]) = .running := by
  cases rest <;> rfl

theorem Progress.installed (h : s.Progress elements) (hstage : s.stage ≠ .waiting) (name : String)
    {b : KeyBox} (hb : s.daemon.keyboxes.lookup name = some b) : b ∈ elements.map Prod.snd := by
  rcases h with h | ⟨h, -⟩
  · rw [stage, h] at hstage
    exact absurd rfl hstage
  · exact h name b hb

theorem inv_start (d : Daemon) : (start d elements).Inv elements :=
  ⟨.inl rfl, fun _ _ h => (by cases h), fun h => (by cases h)⟩

namespace Inv

theorem beginSigning (h : s.Inv elements) (id : ℕ) (signing : Signing) :
    (s.next P x (.beginSigning id signing)).Inv elements := by
  unfold next
  dsimp only
  split
  · exact h
  · obtain ⟨hkeyboxes, hpersistence, hcache, hmade⟩ :=
      Daemon.beginSigning_spec (P := P) (x := x) (d := s.daemon) signing
    have hprogress (t : HashMap ℕ SigningInFlight) : Progress elements
        { s with daemon := (s.daemon.beginSigning P x signing).1, inFlight := t } := by
      unfold Progress
      dsimp only
      rw [hkeyboxes]
      exact h.progress
    have hfresh (hdone : s.stage = .done) : AllFresh (elements.map Prod.snd) s.stored
        (s.daemon.beginSigning P x signing).1.cache
        (s.daemon.beginSigning P x signing).1.persistence.settled := by
      rw [hpersistence]
      rcases hcache with hcache | ⟨k, hcache⟩
      · rw [hcache]
        exact h.fresh hdone
      · rw [hcache]
        exact (h.fresh hdone).clear k
    generalize s.daemon.beginSigning P x signing = begun at hprogress hfresh hmade hkeyboxes
    obtain ⟨d, made⟩ := begun
    cases made with
    | none => exact ⟨hprogress s.inFlight, h.inFlight, hfresh⟩
    | some made =>
      refine ⟨hprogress _, fun id' t ht => ?_, hfresh⟩
      rcases HashMap.lookup_insert_eq_some.1 ht with ⟨-, rfl⟩ | ⟨-, hold⟩
      · have hjustified := hmade made rfl
        refine ⟨fun b hb => ?_, fun k keyPair chain hsigner hread => ?_, hjustified.nobody⟩
        · obtain ⟨⟨name, hname⟩, hchain⟩ := hjustified.keybox b hb
          refine ⟨hchain, fun hstage => h.progress.installed hstage name ?_⟩
          rw [← hkeyboxes]
          exact hname
        · exact (hfresh hread).keyPairs k keyPair chain (hjustified.attestKey k keyPair chain hsigner)
      · exact h.inFlight id' t hold

/-- A fresh chain may join the fresh ones, forged or re-signed. -/
theorem storeChain {installed : List KeyBox} {stored : List StoredChain} {d : Daemon} {made : MadeChain}
    (h : AllFresh installed stored d.cache d.persistence.settled) (hnobody : made.signer = .nobody →
      made.keyPair = none) (hmem : ⟨made, .done⟩ ∈ stored)
    (hfresh : made.signer = .nobody ∨ StoredChain.Fresh installed stored ⟨made, .done⟩) :
    AllFresh installed stored (d.storeChain P made).cache (d.storeChain P made).persistence.settled := by
  cases made with
  | forged uid level request env keyPair chain signer skip =>
    have hforged : StoredChain.Fresh installed stored _ :=
      hfresh.resolve_left fun hsigner => (by cases hnobody hsigner)
    unfold Daemon.storeChain Daemon.storeGeneratedKey
    dsimp only
    rw [PersistenceManager.saveKey, PersistenceManager.settled_execute]
    exact ((h.clear _).storeGenerated hmem rfl rfl hforged).saveKey hmem rfl rfl rfl hforged
  | resigned uid level keyAlias metadata env chain signer =>
    exact h.storePatched hmem ⟨metadata, _, rfl⟩ hfresh

theorem store (h : s.Inv elements) (id : ℕ) (hs : StoresInTime s (.store id)) :
    (s.next P x (.store id)).Inv elements := by
  unfold next
  dsimp only
  cases hlookup : s.inFlight.lookup id with
  | none => exact h
  | some t =>
    have hkeyboxes : (s.daemon.storeChain P t.made).keyboxes = s.daemon.keyboxes := by
      unfold Daemon.storeChain
      cases t.made <;> rfl
    have hsubset : s.stored ⊆ ⟨t.made, s.stage⟩ :: s.stored := List.subset_cons_self ..
    refine ⟨?_, fun id' t' ht' => ?_, fun hdone => ?_⟩
    · unfold Progress
      dsimp only
      rw [hkeyboxes]
      exact h.progress
    · exact (h.inFlight id' t' (HashMap.lookup_erase_eq_some.1 ht').2).mono hsubset
    · change s.stage = .done at hdone
      have hknown := h.inFlight id t hlookup
      have hfresh := hknown.fresh (hs hdone t hlookup)
      rw [hdone] at hsubset
      dsimp only
      rw [hdone]
      exact storeChain ((h.fresh hdone).mono hsubset) hknown.nobody List.mem_cons_self hfresh

theorem reload (h : s.Inv elements) : (s.next P x .reload).Inv elements := by
  rcases h.progress with hwaiting | ⟨hinstalled, hdone | ⟨rest, hrest, hstoring⟩⟩
  · have hnext : s.next P x .reload = { s with
        daemon := ReloadStep.clear.run s.daemon
        reload := (elements.map fun e => ReloadStep.storeKeybox e.1 e.2) ++ [.cleanupAll] } := by
      unfold next
      simp only [hwaiting, ReloadStep.updateKeyBox, List.cons_append]
    rw [hnext]
    refine ⟨.inr ⟨fun name b hb => (by cases hb), .inr ⟨elements, List.Subset.refl _, rfl⟩⟩, h.inFlight,
      fun hstage => ?_⟩
    cases (stage_storing elements).symm.trans hstage
  · have hnext : s.next P x .reload = s := by
      unfold next
      simp only [hdone]
    rwa [hnext]
  · cases rest with
    | nil =>
      have hnext : s.next P x .reload = { s with daemon := s.daemon.cleanupAll, reload := [] } := by
        unfold next
        simp only [hstoring, List.map_nil, List.nil_append, ReloadStep.run]
      rw [hnext]
      refine ⟨.inr ⟨hinstalled, .inl rfl⟩, h.inFlight, fun _ => ?_⟩
      have hsettled : s.daemon.cleanupAll.persistence.settled = ∅ := PersistenceManager.settled_clearAll _
      dsimp only
      rw [hsettled]
      exact AllFresh.empty
    | cons e rest =>
      have hnext : s.next P x .reload = { s with
          daemon := (ReloadStep.storeKeybox e.1 e.2).run s.daemon
          reload := (rest.map fun e => ReloadStep.storeKeybox e.1 e.2) ++ [.cleanupAll] } := by
        unfold next
        simp only [hstoring, List.map_cons, List.cons_append]
      rw [hnext]
      refine ⟨.inr ⟨fun name b hb => ?_, .inr ⟨rest, fun e' he' => hrest (List.mem_cons_of_mem _ he'), rfl⟩⟩,
        h.inFlight, fun hstage => ?_⟩
      · rcases HashMap.lookup_insert_eq_some.1 hb with ⟨-, rfl⟩ | ⟨-, hold⟩
        · exact List.mem_map_of_mem (hrest List.mem_cons_self)
        · exact hinstalled name b hold
      · cases (stage_storing rest).symm.trans hstage

theorem persist (h : s.Inv elements) : (s.next P x .persist).Inv elements := by
  refine ⟨h.progress, h.inFlight, fun hdone => ?_⟩
  show AllFresh _ s.stored s.daemon.cache s.daemon.persistence.step.settled
  rw [PersistenceManager.settled_step]
  exact h.fresh hdone

theorem next {e : Event} (h : s.Inv elements) (hs : StoresInTime s e) : (s.next P x e).Inv elements := by
  cases e with
  | beginSigning id signing => exact h.beginSigning id signing
  | store id => exact h.store id hs
  | reload => exact h.reload
  | persist => exact h.persist

end Inv

end KeyboxReload

/-- A replacement leaves nothing signed by the old keybox in every run that stores behind `cleanupAll` only
what was made in time. -/
theorem keyboxReplaced_of_storesInTime (P : Platform) (x : X509) (d : Daemon)
    (elements : List (String × KeyBox)) (es : List KeyboxReload.Event)
    (h : Machine.AllSteps (KeyboxReload.next P x) StoresInTime (.start d elements) es) :
    KeyboxReplaced P x d elements es := by
  intro hended
  have hinv : (Machine.run (KeyboxReload.next P x) (.start d elements) es).Inv elements :=
    h.invariant (KeyboxReload.inv_start d) fun s e hs he => hs.next he
  have hdone : (Machine.run (KeyboxReload.next P x) (.start d elements) es).stage = .done := by
    rw [KeyboxReload.stage, hended.reload]
    rfl
  have hfresh := hinv.fresh hdone
  rwa [PersistenceManager.settled_of_queue_eq_nil hended.queue] at hfresh

/-! ## Two replacements among forgings -/

namespace Demo

def oldKeybox : KeyBox := ⟨⟨[5], [6]⟩, [⟨[7]⟩]⟩

def newKeybox : KeyBox := ⟨⟨[15], [16]⟩, [⟨[17]⟩]⟩

/-- The owner has an EC key forged. -/
def forging : Signing :=
  .forge owner .trustedEnvironment
    { descriptor := byAlias, keyAlias := "a", attestationKeyDescriptor := none
      kgp := .ofParams platform.x500Name ecParams, hasDeviceIdAttestation := false } (env 5)

/-- The keybox is read before the replacement, and the chain stored behind it. -/
def storedLate : List KeyboxReload.Event :=
  [.beginSigning 0 forging, .reload, .reload, .reload, .store 0, .persist, .persist, .persist]

/-- A chain with the old keybox is stored before `cleanupAll`, one with the new keybox behind it. -/
def storedInTime : List KeyboxReload.Event :=
  [.beginSigning 0 forging, .reload, .store 0, .reload, .beginSigning 1 forging, .reload, .store 1, .persist,
    .persist, .persist, .persist]

/-- The daemon with the old keybox. -/
def withOldKeybox : Daemon := (World.run platform {} (start .GENERATE .AUTO)).daemon

end Demo

open Demo in
theorem keyboxReplaced_storedInTime :
    KeyboxReplaced platform x509 withOldKeybox [("EC", newKeybox)] storedInTime := by
  refine keyboxReplaced_of_storesInTime platform x509 withOldKeybox [("EC", newKeybox)] storedInTime ?_
  refine Machine.allSteps_cons trivial (Machine.allSteps_cons trivial ?_)
  refine Machine.allSteps_cons (fun hdone => by cases hdone) (Machine.allSteps_cons trivial ?_)
  refine Machine.allSteps_cons trivial (Machine.allSteps_cons trivial ?_)
  refine Machine.allSteps_cons (fun _ t ht => ?_) ?_
  · cases ht
    exact fun hwaiting => by cases hwaiting
  · exact Machine.allSteps_cons trivial (Machine.allSteps_cons trivial (Machine.allSteps_cons trivial
      (Machine.allSteps_cons trivial Machine.allSteps_nil)))

open Demo in
/-- A chain of the old keybox that is stored behind `cleanupAll` stays, and so does its file. -/
theorem old_keybox_survives_replacement :
    ¬ ∀ P history x elements es, KeyboxReplaced P x (World.run P {} history).daemon elements es := by
  intro h
  have hended : (Machine.run (KeyboxReload.next platform x509) (.start withOldKeybox [("EC", newKeybox)])
      storedLate).Ended := by
    refine ⟨rfl, fun id => ?_, rfl⟩
    show (AList.erase 0 (AList.insert 0 _ ∅)).lookup id = none
    rw [HashMap.lookup_erase_ite, HashMap.lookup_insert_ite]
    split_ifs <;> rfl
  obtain ⟨c, hc, -, -, -, hfresh⟩ := (h platform (start .GENERATE .AUTO) x509 [("EC", newKeybox)] storedLate
    hended).keyPairs key ⟨[1], [2]⟩ [⟨[3]⟩, ⟨[7]⟩] rfl
  have hsigner : c.made.signer = .keybox oldKeybox := by
    rw [List.mem_singleton.1 hc]
    rfl
  cases hfresh with
  | keybox hnew hinstalled =>
    cases hsigner.symm.trans hnew
    exact absurd hinstalled (by decide)
  | attestKey hnew => cases hsigner.symm.trans hnew

end TrickyStore
